import TrackedFields.Proofs.Session.Heard
import TrackedFields.Proofs.Session.Replay
import TrackedFields.Proofs.Store.Shelf
import TrackedFields.Tracker.Forward

/-!
# What a session goes through

Between two moments a field reports relation changes and ends of changes to its owner, and the store
that it makes its changes in right away, if there is one, does what some operations do. These parts
add up: what happens between two moments happens one after the other.
-/

namespace TrackedFields

namespace Session

variable {E : Type}

/-- A reliable store of the given order holds the given elements for an owner. -/
structure Serves (s : Session E) (name : StoreName) (owner : ObjectId) (cmp : Comparator E)
    (es : List E) : Prop where
  order : (s.rules name).order = some cmp
  reliable : (s.store name).Reliable
  contents : (s.store name).contents owner = es

/-- What a store serves does not change as long as the stores are left alone. -/
theorem Serves.of_stores_eq {s after : Session E} {name : StoreName} {owner : ObjectId}
    {cmp : Comparator E} {es : List E} (h : s.Serves name owner cmp es)
    (hstores : after.stores = s.stores) : after.Serves name owner cmp es := by
  have hstore : after.store name = s.store name := store_of_stores_eq hstores name
  constructor
  case order =>
    rw [rules, hstore]
    exact h.order
  case reliable =>
    rw [hstore]
    exact h.reliable
  case contents =>
    rw [hstore]
    exact h.contents

variable [DecidableEq E]

/-- What a session went through between two moments, seen from a field: the owner heard of relation
changes and ends of changes, and the store that changes are made in right away, if there is one, did
what some operations do. -/
structure Advances (t : Tracker) (o : Owner) (relations : List (RelationChange E)) (changes : Nat)
    (kinds : List (OperationKind E)) (s after : Session E) : Prop where
  hearing : after.hearing o.id = s.hearing o.id
  heard : after.heard o.id =
    s.heard o.id ++ (s.hearing o.id).news o.field relations changes
  carried : ∀ name, t.dispatch = .immediate name →
    (s.store name).Continues (after.store name) ∧
      OperationKind.stockAll (s.rules name) ((s.store name).shelf o.id) kinds =
        some ((after.store name).shelf o.id)

variable {t : Tracker} {o : Owner} {relations more : List (RelationChange E)}
  {changes others : Nat} {kinds later : List (OperationKind E)} {s mid after : Session E}

/-- Nothing happens between a moment and itself. -/
theorem Advances.refl (t : Tracker) (o : Owner) (s : Session E) : Advances t o [] 0 [] s s :=
  ⟨rfl, (Hearing.append_news_nil _ _ _).symm, fun _ _ => ⟨⟨rfl, id⟩, rfl⟩⟩

/-- What happens between two moments happens one after the other. -/
theorem Advances.trans (h : Advances t o relations changes kinds s mid)
    (h' : Advances t o more others later mid after) :
    Advances t o (relations ++ more) (changes + others) (kinds ++ later) s after := by
  refine ⟨h'.hearing.trans h.hearing, ?_, ?_⟩
  · rw [h'.heard, h.heard, h.hearing, News.append_assoc, Hearing.news_append]
  · intro name hname
    obtain ⟨hcontinues, hkinds⟩ := h.carried name hname
    obtain ⟨hcontinues', hlater⟩ := h'.carried name hname
    refine ⟨hcontinues.trans hcontinues', ?_⟩
    have hrules : mid.rules name = s.rules name := hcontinues.rules
    rw [OperationKind.stockAll_append, hkinds, Option.bind_some, ← hrules]
    exact hlater

/-- Requests that reach no store do nothing there. -/
theorem Advances.of_stores_eq (hhearing : after.hearing o.id = s.hearing o.id)
    (hheard : after.heard o.id =
      s.heard o.id ++ (s.hearing o.id).news o.field relations changes)
    (hstores : after.stores = s.stores) : Advances t o relations changes [] s after := by
  refine ⟨hhearing, hheard, fun name _ => ?_⟩
  rw [store_of_stores_eq hstores name]
  exact ⟨⟨rfl, id⟩, rfl⟩

/-- A report tells the owner of the relation changes. -/
theorem Advances.announce (howner : t.owner = some o) (report : Report E) (s : Session E) :
    Advances t o report.relations 0 [] s (t.announce report s) :=
  .of_stores_eq (t.hearing_announce s report o.id) (t.heard_announce s howner report)
    (t.stores_announce s report)

/-- The end of a change is told once. -/
theorem Advances.changed (howner : t.owner = some o) (s : Session E) :
    Advances t o [] 1 [] s (t.changed s) :=
  .of_stores_eq (t.hearing_changed s o.id) (t.heard_changed s howner) (t.stores_changed s)

/-- A change that is made in the store and then reported. -/
theorem Advances.reported (h : Advances t o [] 0 kinds s mid) (howner : t.owner = some o)
    (report : Report E) :
    Advances t o report.relations 1 kinds s (t.changed (t.announce report mid)) := by
  have hreport := (h.trans (.announce howner report mid)).trans (.changed howner _)
  simpa using hreport

/-- A change that is reported and then made in the store. -/
theorem Advances.of_reported {report : Report E} (howner : t.owner = some o)
    (h : Advances t o [] 0 kinds (t.announce report s) after) :
    Advances t o report.relations 1 kinds s (t.changed after) := by
  have hreport := ((Advances.announce howner report s).trans h).trans (.changed howner _)
  simpa using hreport

/-- Elements from outside the session are taken in silently. -/
theorem Advances.attach (t : Tracker) (o : Owner) (es : List E) (s : Session E) :
    Advances t o [] 0 [] s (t.attach es s) := by
  apply Advances.of_stores_eq
  · exact t.hearing_attach s es o.id
  · rw [t.heard_attach, Hearing.append_news_nil]
  · exact t.stores_attach s es

variable {α : Type} {name : StoreName} {answer : α}

/-- A store call is not heard; the store that changes are made in does what the call does. -/
theorem Advances.afterCalls {store : Store E} (hdispatch : t.dispatch = .immediate name)
    (hcontinues : (s.store name).Continues store)
    (hkinds : OperationKind.stockAll (s.rules name) ((s.store name).shelf o.id) kinds =
      some (store.shelf o.id)) :
    Advances t o [] 0 kinds s (s.afterCalls name store) := by
  refine ⟨s.hearing_afterCalls name store o.id, ?_, ?_⟩
  · rw [heard_afterCalls, Hearing.append_news_nil]
  · intro other hother
    obtain rfl : name = other := by
      rw [hdispatch] at hother
      exact Dispatch.immediate.inj hother
    have hstore : (s.afterCalls name store).store name = store := by
      rw [store_afterCalls, if_pos rfl]
    rw [hstore]
    exact ⟨hcontinues, hkinds⟩

/-- A store that changes are made in right away serves what their operations make of its elements.
-/
theorem Advances.serves {cmp : Comparator E} {es next : List E}
    (h : Advances t o relations changes kinds s after) (hdispatch : t.dispatch = .immediate name)
    (hserves : s.Serves name o.id cmp es) (hsorted : cmp.Sorted es)
    (hkinds : ∀ rules : Store.Rules E, rules.order = some cmp → rules.Fits es →
      OperationKind.carryOutAll rules es kinds = some next) :
    after.Serves name o.id cmp next := by
  obtain ⟨hcontinues, hstock⟩ := h.carried name hdispatch
  have hfits : (s.rules name).Fits es := by
    intro other hother
    rw [hserves.order] at hother
    cases hother
    exact hsorted
  have hmade : OperationKind.carryOutAll (s.rules name) ((s.store name).contents o.id) kinds =
      some ((after.store name).contents o.id) := by
    have hshelf := OperationKind.map_elements_stockAll (s.rules name) ((s.store name).shelf o.id)
      kinds
    rw [hstock] at hshelf
    exact hshelf.symm
  rw [hserves.contents, hkinds _ hserves.order hfits] at hmade
  have hrules : after.rules name = s.rules name := hcontinues.rules
  refine ⟨?_, hcontinues.reliable hserves.reliable, (Option.some.inj hmade).symm⟩
  rw [hrules]
  exact hserves.order

/-- A change that is forwarded reaches the store if changes are made there right away; else nothing
happens. -/
theorem forward_advances (howner : t.owner = some o) (operation : String)
    (action : ObjectId → StoreAction E α)
    (haction : ∀ name, t.dispatch = .immediate name →
      (s.store name).Carries o.id (action o.id) answer kinds) :
    ∃ forwarded after, t.forward operation action s = (forwarded, after) ∧
      Advances t o [] 0 kinds s after ∧
      (forwarded = .applied answer ∨
        forwarded = .skipped ∧ ∀ name, t.dispatch ≠ .immediate name) := by
  have hsilent (hnot : ∀ name, t.dispatch ≠ .immediate name) :
      Advances t o [] 0 kinds s s :=
    ⟨rfl, (Hearing.append_news_nil _ _ _).symm, fun name hname => absurd hname (hnot name)⟩
  cases hdispatch : t.dispatch with
  | memory =>
    have hnot (name : StoreName) : t.dispatch ≠ .immediate name := by simp [hdispatch]
    refine ⟨.skipped, s, ?_, hsilent hnot, .inr ⟨rfl, by simp⟩⟩
    rw [Tracker.forward, hdispatch]
  | queued store =>
    have hnot (name : StoreName) : t.dispatch ≠ .immediate name := by simp [hdispatch]
    refine ⟨.skipped, s, ?_, hsilent hnot, .inr ⟨rfl, by simp⟩⟩
    rw [Tracker.forward, hdispatch]
  | immediate name =>
    obtain ⟨store, hcall, hcontinues, hkinds⟩ := haction name hdispatch
    have hchannel : t.channel = some (name, o.id) := by
      rw [Tracker.channel, hdispatch, howner]
    refine ⟨.applied answer, s.afterCalls name store, ?_,
      .afterCalls hdispatch hcontinues hkinds, .inl rfl⟩
    simp only [Tracker.forward, hdispatch, Tracker.call, hchannel, access_ok hcall]

end Session

end TrackedFields
