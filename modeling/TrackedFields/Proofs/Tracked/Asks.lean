import TrackedFields.Proofs.Session.Notices
import TrackedFields.Store.Bulk

/-!
# What containers ask of their sessions

All requests that containers make of their sessions, and all changes that they make in their stores
right away, by the elements that they bring in. What survives single writes that bring in nothing
but good elements survives all of these changes, and the flush that makes the others.
-/

namespace TrackedFields

/-- An operation that carries a good element, or none. -/
def OperationKind.Bears {E : Type} (good : E → Prop) (kind : OperationKind E) : Prop :=
  ∀ e, kind.element? = some e → good e

/-- Operations that carry listed elements bear what the list holds. -/
theorem OperationKind.bears_of_mem_map {E : Type} {good : E → Prop} {es : List E}
    (hes : ∀ e ∈ es, good e) {make : E → OperationKind E}
    (hmake : ∀ e, (make e).element? = some e) : ∀ kind ∈ es.map make, kind.Bears good := by
  intro kind hkind a ha
  obtain ⟨e, he, rfl⟩ := List.mem_map.mp hkind
  rw [hmake] at ha
  cases ha
  exact hes a he

/-- A container that is emptied tells of it without an element. -/
theorem Report.bears_cleared {E : Type} (good : E → Prop) (es : List E) :
    ∀ kind ∈ (Report.cleared es).operations, kind.Bears good := by
  intro kind hkind
  rw [List.mem_singleton.mp hkind]
  exact nofun

namespace Store

variable {E α : Type} {good : E → Prop}

/-- A change of a container that brings in nothing but good elements. -/
def BringsIn (good : E → Prop) (change : List E → Except StoreError (α × List E)) : Prop :=
  ∀ es answer next, (∀ e ∈ es, good e) → change es = .ok (answer, next) → ∀ e ∈ next, good e

variable [DecidableEq E]

/-- A change that a container makes in its store right away, with good elements only. -/
inductive Write (good : E → Prop) : {α : Type} → (ObjectId → StoreAction E α) → Prop where
  | add (e : E) (hint : Option Nat) (h : good e) : Write good (Store.add · e hint)
  | addAll (es : List E) (hint : Option Nat) (h : ∀ e ∈ es, good e) :
      Write good (Store.addAll · es hint)
  | remove (e : E) (hint : Option Nat) (cascade : Bool) :
      Write good (Store.remove · e hint cascade)
  | removeAt (position : Nat) (hint : Option Nat) : Write good (Store.removeAt · position hint)
  | removeAll (es : List E) (hint : Option Nat) : Write good (Store.removeAll · es hint)
  | clear : Write good Store.clear
  | updateEmbedded (e : E) (field : FieldOrdinal) : Write good (Store.updateEmbedded · e field)

/-- What survives every single write to the container of an owner that brings in good elements
only, and the deletions after it. -/
structure SurvivesWrites (owner : ObjectId) (good : E → Prop) (P : Store E → Prop) : Prop where
  writing : ∀ {α : Type} (call : StoreCall E)
    (change : List E → Except StoreError (α × List E)), call.isRead = false →
      BringsIn good change → Keeps P (writing call owner change)
  deletion : ∀ (cascade : Bool) (removed : List E), Keeps P (deleteOrphans owner cascade removed)
  update : ∀ (e : E) (field : FieldOrdinal),
    Keeps P (reading (.updateEmbedded e field) fun _ => false)

namespace SurvivesWrites

variable {owner : ObjectId} {P : Store E → Prop} (h : SurvivesWrites owner good P)
include h

/-- Appending a good element. -/
theorem add {e : E} (he : good e) (hint : Option Nat) :
    Keeps P (Store.add owner e hint) := by
  refine h.writing _ _ rfl ?_
  intro es answer next hgood hchange
  cases hchange
  intro a ha
  rcases List.mem_append.mp ha with ha | ha
  · exact hgood a ha
  · rwa [List.mem_singleton.mp ha]

/-- Inserting a good element. -/
theorem insert (position : Nat) {e : E} (he : good e) :
    Keeps P (Store.insert owner position e) := by
  refine h.writing _ _ rfl ?_
  intro es answer next hgood hchange
  dsimp only at hchange
  split at hchange
  · cases hchange
  · next hposition =>
    cases hchange
    intro a ha
    rcases (List.mem_insertIdx (Nat.le_of_not_lt hposition)).mp ha with rfl | ha
    · exact he
    · exact hgood a ha

/-- Removing an element. -/
theorem remove (e : E) (hint : Option Nat) (cascade : Bool) :
    Keeps P (Store.remove owner e hint cascade) := by
  refine (h.writing _ _ rfl ?_).bind fun _ => (h.deletion _ _).bind fun _ => .pure _
  intro es answer next hgood hchange
  cases hchange
  exact fun a ha => hgood a (List.mem_of_mem_erase ha)

/-- Removing what stands at a position. -/
theorem removeAt (position : Nat) (hint : Option Nat) :
    Keeps P (Store.removeAt owner position hint) := by
  refine (h.writing _ _ rfl ?_).bind fun _ => (h.deletion _ _).bind fun _ => .pure _
  intro es answer next hgood hchange
  cases hchange
  exact fun a ha => hgood a (List.mem_of_mem_eraseIdx ha)

/-- Putting a good element at a position. -/
theorem set (position : Nat) {e : E} (he : good e) (cascade : Bool) :
    Keeps P (Store.set owner position e cascade) := by
  refine (h.writing _ _ rfl ?_).bind fun _ => (h.deletion _ _).bind fun _ => .pure _
  intro es answer next hgood hchange
  dsimp only at hchange
  split at hchange
  · cases hchange
    intro a ha
    rcases List.mem_or_eq_of_mem_set ha with ha | rfl
    · exact hgood a ha
    · exact he
  · cases hchange

/-- Removing everything. -/
theorem clear : Keeps P (Store.clear owner) := by
  refine (h.writing _ _ rfl ?_).bind fun _ => h.deletion _ _
  intro es answer next _ hchange
  cases hchange
  exact nofun

/-- Appending good elements, one by one. -/
theorem addFrom (hint : Option Nat) (offset : Nat) {es : List E}
    (hes : ∀ e ∈ es, good e) : Keeps P (Store.addFrom owner hint offset es) := by
  have hadvance (offset : Nat) : Keeps P (advanceHint hint offset) := by
    intro st hst
    unfold stateAfter advanceHint
    cases hint with
    | none => exact hst
    | some size =>
      dsimp only
      cases Word.addSizes size offset <;> exact hst
  induction es generalizing offset with
  | nil => exact .pure false
  | cons e es ih =>
    exact (hadvance offset).bind fun size =>
      (h.add (hes e List.mem_cons_self) size).bind fun _ =>
        (ih (offset + 1) fun a ha => hes a (List.mem_cons_of_mem _ ha)).bind fun _ => .pure _

/-- Removing listed elements, one by one. -/
theorem removeAll (es : List E) (hint : Option Nat) :
    Keeps P (Store.removeAll owner es hint) := by
  induction es with
  | nil => exact .pure false
  | cons e es ih => exact (h.remove e hint true).bind fun _ => ih.bind fun _ => .pure _

/-- What survives single writes survives every change that containers make right away. -/
theorem write {action : ObjectId → StoreAction E α} (haction : Write good action) :
    Keeps P (action owner) := by
  cases haction with
  | add e hint he => exact h.add he hint
  | addAll es hint hes => exact h.addFrom hint 0 hes
  | remove e hint cascade => exact h.remove e hint cascade
  | removeAt position hint => exact h.removeAt position hint
  | removeAll es hint => exact h.removeAll es hint
  | clear => exact h.clear
  | updateEmbedded e field => exact h.update e field

/-- What survives single writes and survives asking for a size survives every operation. -/
theorem perform (hsize : Keeps P (Store.size owner)) {kind : OperationKind E}
    (hkind : kind.Bears good) : Keeps P (kind.perform owner) := by
  cases kind with
  | collectionAdd e => exact (h.add (hkind e rfl) none).discard
  | collectionRemove e cascade => exact (h.remove e none cascade).discard
  | collectionClear => exact h.clear
  | listAddAt index e => exact h.insert index (hkind e rfl)
  | listRemoveAt index =>
    exact (h.removeAt index none).bind fun _ =>
      (hsize.bind fun _ => .throw _).ite (.pure _)
  | listSet index e cascade => exact (h.set index (hkind e rfl) cascade).discard

end SurvivesWrites

end Store

/-- A request that a container makes of its session, with good elements only in what is to be
repeated on a store or made there right away. -/
inductive Tracker.Asks {E : Type} [DecidableEq E] [Element E] (good : E → Prop) (t : Tracker) :
    Session E → Session E → Prop where
  | announce (report : Report E) (h : ∀ kind ∈ report.operations, kind.Bears good)
      (s : Session E) : Asks good t s (t.announce report s)
  | enqueue (kinds : List (OperationKind E)) (h : ∀ kind ∈ kinds, kind.Bears good)
      (s : Session E) : Asks good t s (t.enqueue kinds s)
  | call {α : Type} (operation : String) {action : ObjectId → StoreAction E α}
      (h : Store.Write good action) (s : Session E) : Asks good t s (t.call operation action s).2
  | attach (es : List E) (s : Session E) : Asks good t s (t.attach es s)
  | detach (es : List E) (seen : Detachment) (s : Session E) : Asks good t s (t.detach es seen s).2
  | markDirty (s : Session E) : Asks good t s (t.markDirty s)
  | changed (s : Session E) : Asks good t s (t.changed s)

/-- Making a change in the store is a call of it, if anything. -/
theorem Tracker.Asks.forward {E α : Type} [DecidableEq E] [Element E] {good : E → Prop}
    (t : Tracker) (operation : String) {action : ObjectId → StoreAction E α}
    (haction : Store.Write good action) (s : Session E) :
    (t.forward operation action s).2 = s ∨ t.Asks good s (t.forward operation action s).2 := by
  unfold Tracker.forward
  cases t.dispatch with
  | immediate name => exact .inr (.call operation haction s)
  | memory => exact .inl rfl
  | queued store => exact .inl rfl

/-- A request lets operations wait, or makes a change in the store of the container. -/
theorem Tracker.Asks.queued_or_written {E : Type} [DecidableEq E] [Element E] {good : E → Prop}
    {t : Tracker} {s after : Session E} (h : t.Asks good s after) :
    (∃ kinds : List (OperationKind E), (∀ kind ∈ kinds, kind.Bears good) ∧
      after.pending = s.pending ++ t.queued kinds ∧ after.stores = s.stores) ∨
    ∃ (name : StoreName) (owner : ObjectId) (α : Type) (action : ObjectId → StoreAction E α),
      t.channel = some (name, owner) ∧ Store.Write good action ∧ after.pending = s.pending ∧
        after.stores = (s.afterCalls name (stateAfter (action owner) (s.store name))).stores := by
  have hquiet {after : Session E} (hpending : after.pending = s.pending)
      (hstores : after.stores = s.stores) :
      ∃ kinds : List (OperationKind E), (∀ kind ∈ kinds, kind.Bears good) ∧
        after.pending = s.pending ++ t.queued kinds ∧ after.stores = s.stores :=
    ⟨[], nofun, by rw [hpending, Tracker.queued_nil, List.append_nil], hstores⟩
  cases h with
  | announce report hreport =>
    exact .inl ⟨report.operations, hreport, t.pending_announce s report,
      t.stores_announce s report⟩
  | enqueue kinds hkinds =>
    exact .inl ⟨kinds, hkinds, t.pending_enqueue s kinds, t.stores_enqueue s kinds⟩
  | @call α operation action haction =>
    unfold Tracker.call
    split
    · exact .inl (hquiet rfl rfl)
    · next name owner hchannel =>
      refine .inr ⟨name, owner, _, _, hchannel, haction, ?_⟩
      cases hcall : action owner (s.store name) with
      | ok answer store =>
        rw [Session.access_ok hcall, stateAfter_of_ok hcall]
        exact ⟨rfl, rfl⟩
      | error e store =>
        rw [Session.access_error hcall, stateAfter_of_error hcall]
        exact ⟨rfl, rfl⟩
  | attach es => exact .inl (hquiet (t.pending_attach s es) (t.stores_attach s es))
  | detach es seen =>
    refine .inl (hquiet ?_ ?_)
    · unfold Tracker.detach
      split <;> rfl
    · unfold Tracker.detach
      split <;> rfl
  | markDirty => exact .inl (hquiet (t.pending_markDirty s) (t.stores_markDirty s))
  | changed => exact .inl (hquiet (t.pending_changed s) (t.stores_changed s))

namespace Session

variable {E : Type} [DecidableEq E]

/-- Replaying an operation makes its change in a store, if there is one to make it in. -/
theorem stateAfter_replay (default : Option StoreName) (operation : Operation E) (s : Session E) :
    stateAfter (replay default operation) s =
      match operation.store.or default with
      | none => s
      | some name => s.afterCalls name
          (stateAfter (operation.kind.perform operation.owner) (s.store name)) := by
  unfold replay
  cases operation.store.or default with
  | none => rfl
  | some name =>
    unfold stateAfter EStateM.adaptExcept access
    dsimp only
    cases operation.kind.perform operation.owner (s.store name) <;> rfl

/-- What survives single replays of waiting operations, and survives their leaving the queue,
survives a flush. -/
theorem keeps_flush {P : Session E → Prop} (default : Option StoreName)
    (hreplay : ∀ {s operation rest}, P s → s.pending = operation :: rest →
      P (stateAfter (replay default operation) s))
    (hrest : ∀ {s operation rest}, P s → s.pending = operation :: rest →
      P { s with pending := rest }) : Keeps P (flush default) := by
  have hall (operations : List (Operation E)) :
      ∀ s : Session E, P s → s.pending = operations →
        P (stateAfter (replayAll default operations) s) := by
    induction operations with
    | nil => exact fun s hs _ => hs
    | cons operation rest ih =>
      intro s hs hpending
      have hmid := hreplay hs hpending
      have hwaits : (stateAfter (replay default operation) s).pending = operation :: rest := by
        rw [stateAfter_replay]
        split <;> exact hpending
      rw [replayAll, stateAfter_bind]
      cases hstep : replay default operation s with
      | error e mid =>
        rw [stateAfter_of_error hstep] at hmid
        exact hmid
      | ok answer mid =>
        rw [stateAfter_of_ok hstep] at hmid hwaits
        have hgoes := ih { mid with pending := rest } (hrest hmid hwaits) rfl
        change P (stateAfter (replayAll default rest >>= fun n => pure (n + 1)) _)
        unfold stateAfter at hgoes
        rw [stateAfter_bind]
        cases hend : replayAll default rest { mid with pending := rest } <;>
          rwa [hend] at hgoes
  exact fun s hs => hall s.pending s hs rfl

end Session

/-- A step in the life of a container: a call, a flush of its session, or a change in what is known
of the entities. -/
inductive Tracked.Step {C E : Type} [DecidableEq E]
    (calls : {α : Type} → TrackedAction (Tracked C) E α → Prop) :
    Scene (Tracked C) E → Scene (Tracked C) E → Prop where
  | call {α : Type} {action : TrackedAction (Tracked C) E α} (h : calls action)
      (scene : Scene (Tracked C) E) : Step calls scene (stateAfter action scene)
  | flush (default : Option StoreName) (scene : Scene (Tracked C) E) :
      Step calls scene { scene with session := stateAfter (Session.flush default) scene.session }
  | lifecycle (entities : Table ObjectId Entity) (scene : Scene (Tracked C) E) :
      Step calls scene { scene with session := { scene.session with entities } }

/-- A step stays one if more calls are possible. -/
theorem Tracked.Step.mono {C E : Type} [DecidableEq E]
    {calls calls' : {α : Type} → TrackedAction (Tracked C) E α → Prop}
    {scene after : Scene (Tracked C) E} (h : Tracked.Step calls scene after)
    (hcalls : ∀ {α : Type} {action : TrackedAction (Tracked C) E α},
      calls action → calls' action) : Tracked.Step calls' scene after := by
  cases h with
  | call hcall => exact .call (hcalls hcall) scene
  | flush default => exact .flush default scene
  | lifecycle entities => exact .lifecycle entities scene

end TrackedFields
