import Mathlib
import TrackedFields.Proofs.Session.Advances
import TrackedFields.Proofs.Session.Dedicated
import TrackedFields.TrackedQueue.Replace

/-!
# What replacing a value deletes

The value of a priority queue is replaced in its store by clearing it and adding the new elements
one by one. A store of dependent elements deletes what it is cleared of, and does not know of the
elements that follow. So a replacement that reaches the store deletes the records of all elements of
the old value, also of those that the new value keeps.
-/

namespace TrackedFields

open Store (Rules)

namespace OperationKind

variable {E : Type} [DecidableEq E]

/-- Additions delete nothing. -/
theorem stockAll_added (rules : Rules E) (shelf : Shelf E) (new : List E) :
    stockAll rules shelf (new.map collectionAdd) =
      (carryOutAll rules shelf.elements (new.map collectionAdd)).map (⟨·, shelf.deleted⟩) := by
  induction new generalizing shelf with
  | nil => rfl
  | cons e new ih =>
    have hstock : stock rules shelf (collectionAdd e) =
        some ⟨rules.arrange (shelf.elements ++ [e]), shelf.deleted⟩ := by
      unfold stock
      change some (Shelf.mk _ (shelf.deleted ++ if rules.dependent then [] else [])) = _
      rw [ite_self, List.append_nil]
    rw [List.map_cons, stockAll_cons, hstock, Option.bind_some, ih, carryOutAll_cons]
    rfl

/-- Elements that are added to an empty container one by one are arranged as all at once. -/
theorem carryOutAll_added_nil {rules : Rules E}
    (hlaws : ∀ cmp, rules.order = some cmp → Std.TransCmp cmp) (new : List E) :
    carryOutAll rules [] (new.map collectionAdd) = some (rules.arrange new) := by
  cases horder : rules.order with
  | some cmp =>
    have := hlaws cmp horder
    have hsorted : cmp.Sorted [] := .nil
    rw [carryOutAll_inserted horder hsorted, cmp.insertAll_nil, Rules.arrange, horder]
  | none =>
    have hall (es : List E) :
        carryOutAll rules es (new.map collectionAdd) = some (es ++ new) := by
      induction new generalizing es with
      | nil => rw [List.append_nil]; rfl
      | cons e new ih =>
        have hplace : carryOut rules es (collectionAdd e) = some (es ++ [e]) := by
          change some (rules.arrange (es ++ [e])) = _
          rw [Rules.arrange, horder]
        rw [List.map_cons, carryOutAll_cons, hplace, Option.bind_some, ih, List.append_assoc]
        rfl
    rw [hall, List.nil_append, Rules.arrange, horder]

/-- Clearing a container and adding elements to it deletes all it held before. -/
theorem stockAll_replaced {rules : Rules E}
    (hlaws : ∀ cmp, rules.order = some cmp → Std.TransCmp cmp) (shelf : Shelf E) (new : List E) :
    stockAll rules shelf (collectionClear :: new.map collectionAdd) = some {
      elements := rules.arrange new
      deleted := shelf.deleted ++ if rules.dependent then shelf.elements else [] } := by
  have hnone : rules.arrange ([] : List E) = [] := by
    have hfits : rules.Fits [] := fun cmp _ => .nil
    exact hfits.arrange_sublist (.refl [])
  have hclear : stock rules shelf collectionClear = some {
      elements := []
      deleted := shelf.deleted ++ if rules.dependent then shelf.elements else [] } := by
    change some (Shelf.mk (rules.arrange []) (shelf.deleted ++
      if rules.dependent then shelf.elements.filter fun e => !(rules.arrange []).contains e
      else [])) = _
    have hall : (shelf.elements.filter fun e => !([] : List E).contains e) = shelf.elements :=
      List.filter_eq_self.mpr fun _ _ => rfl
    rw [hnone, hall]
  rw [stockAll_cons, hclear, Option.bind_some, stockAll_added, carryOutAll_added_nil hlaws]
  rfl

end OperationKind

namespace Tracker

variable {E : Type} [DecidableEq E]

/-- Carry out what waits, if changes are queued. -/
def settle (t : Tracker) : EStateM ReplayError (Session E) Unit :=
  if t.isQueued then discard (Session.flush none) else return ()

/-- The shelf that a store has for an owner as soon as everything that waits is carried out. -/
structure Owes (t : Tracker) (s : Session E) (name : StoreName) (id : ObjectId) (shelf : Shelf E) :
    Prop where
  queued : t.isQueued = true → s.Dedicated name id ∧
    OperationKind.stockAll (s.rules name) ((s.store name).shelf id)
      (s.pending.map Operation.kind) = some shelf
  idle : t.isQueued = false → (s.store name).shelf id = shelf

variable {t : Tracker} {s after : Session E} {name : StoreName} {id : ObjectId} {shelf : Shelf E}

/-- Settling gives a store the shelf that it is owed. -/
theorem Owes.settle (h : t.Owes s name id shelf) :
    ∃ after, t.settle s = .ok () after ∧ (after.store name).shelf id = shelf := by
  unfold Tracker.settle
  by_cases hqueues : t.isQueued = true
  · obtain ⟨hdedicated, hstock⟩ := h.queued hqueues
    obtain ⟨after, hflush, -, hshelf⟩ := hdedicated.flush none hstock
    refine ⟨after, ?_, hshelf⟩
    rw [if_pos hqueues, discard_apply, hflush]
  · refine ⟨s, ?_, h.idle (by simpa using hqueues)⟩
    rw [if_neg hqueues]
    rfl

/-- A request that leaves queue and stores alone owes the same. -/
theorem Owes.of_stores_eq (h : t.Owes s name id shelf) (hpending : after.pending = s.pending)
    (hstores : after.stores = s.stores) : t.Owes after name id shelf := by
  have hstore : after.store name = s.store name := Session.store_of_stores_eq hstores name
  constructor
  case queued =>
    intro hqueues
    obtain ⟨hdedicated, hstock⟩ := h.queued hqueues
    rw [hpending, Session.rules, hstore]
    exact ⟨hdedicated.of_stores_eq hstores (by rw [hpending]; exact hdedicated.waiting), hstock⟩
  case idle =>
    rw [hstore]
    exact h.idle

end Tracker

namespace TrackedQueue

variable {E : Type} [DecidableEq E]

/-- A queue with a reliable store of dependent elements. What waits, if changes are queued, is for
this queue and can be carried out. -/
structure Backed (id : ObjectId) (name : StoreName) (scene : Scene (TrackedQueue E) E) : Prop where
  channel : scene.value.tracker.channel = some (name, id)
  inOrder : (scene.session.views name).InOrder (scene.session.rules name)
  reliable : (scene.session.store name).Reliable
  dependent : (scene.session.store name).dependent = true
  waiting : scene.value.tracker.isQueued = true → ∀ operation ∈ scene.session.pending,
    operation.owner = id ∧ operation.store = some name
  feasible : scene.value.tracker.isQueued = true → ∃ shelf,
    OperationKind.stockAll (scene.session.rules name) ((scene.session.store name).shelf id)
      (scene.session.pending.map Operation.kind) = some shelf

/-- What replaces the value in the store: it is cleared, and the new elements are added. -/
def replacing (new : List E) : List (OperationKind E) :=
  .collectionClear :: new.map .collectionAdd

/-- The session after a value was replaced in the store or in the queue. -/
def replaced (q : TrackedQueue E) (new : List E) (s : Session E) : Session E :=
  let size := if q.content.useCache then some 0 else none
  let cleared := (q.tracker.forward "clear" Store.clear
    (q.tracker.enqueue (replacing new) s)).2
  (q.tracker.forward "add-all" (Store.addAll · new size) cleared).2

/-- Replacing a value always succeeds. -/
theorem initialiseWith_apply (new : List E) (scene : Scene (TrackedQueue E) E) :
    initialiseWith new scene = .ok () {
      value := { scene.value with content := { scene.value.content with
        elements := scene.value.content.order.sort new
        loaded := true } }
      session := scene.value.tracker.markDirty
        (if replacementReachesStore scene.value scene.session then
          replaced scene.value new scene.session
        else scene.session) } := by
  unfold initialiseWith
  rw [bind_apply]
  change (if replacementReachesStore scene.value scene.session = true then _ else _ :
    Action E Unit) scene = _
  split
  · rfl
  · rfl

section Replaced

variable {q : TrackedQueue E} {s : Session E} {name : StoreName} {o : Owner} {shelf : Shelf E}

/-- Replacing a value deletes all that the store of dependent elements held. -/
private theorem stockAll_replacing (hin : (s.views name).InOrder (s.rules name))
    (hdependent : (s.store name).dependent = true) (shelf : Shelf E) (new : List E) :
    OperationKind.stockAll (s.rules name) shelf (replacing new) =
      some ⟨(s.store name).arrange new, shelf.deleted ++ shelf.elements⟩ := by
  have hlaws : ∀ cmp, (s.rules name).order = some cmp → Std.TransCmp cmp :=
    fun cmp hcmp => (hin cmp hcmp).1
  have hrules : (s.rules name).dependent = true := hdependent
  rw [replacing, OperationKind.stockAll_replaced hlaws, if_pos hrules]
  rfl

/-- Where changes are queued, a replacement waits behind everything else. -/
private theorem owes_replaced_of_queued (howner : q.tracker.owner = some o)
    (hdispatch : q.tracker.dispatch = .queued (some name))
    (hdependent : (s.store name).dependent = true) (h : q.tracker.Owes s name o.id shelf)
    (new : List E) :
    q.tracker.Owes (replaced q new s) name o.id
      ⟨(s.store name).arrange new, shelf.deleted ++ shelf.elements⟩ := by
  have hqueues : q.tracker.isQueued = true := by rw [Tracker.isQueued, hdispatch]
  obtain ⟨hdedicated, hstock⟩ := h.queued hqueues
  have hsame : replaced q new s = q.tracker.enqueue (replacing new) s := by
    unfold replaced Tracker.forward
    rw [hdispatch]
  have hpending := q.tracker.pending_enqueue s (replacing new)
  have hstores := q.tracker.stores_enqueue s (replacing new)
  have hstore := Session.store_of_stores_eq hstores name
  have hqueued := Tracker.queued_eq_map howner hdispatch (replacing new)
  rw [hsame]
  refine ⟨fun _ => ⟨hdedicated.of_stores_eq hstores ?_, ?_⟩, ?_⟩
  · rw [hpending, hqueued]
    intro operation hmem
    rcases List.mem_append.mp hmem with hmem | hmem
    · exact hdedicated.waiting operation hmem
    · obtain ⟨kind, -, rfl⟩ := List.mem_map.mp hmem
      exact ⟨rfl, rfl⟩
  · have hmap : (q.tracker.queued (replacing new)).map Operation.kind = replacing new := by
      rw [hqueued, List.map_map]
      exact List.map_id _
    rw [hpending, List.map_append, hmap, Session.rules, hstore, OperationKind.stockAll_append]
    change (OperationKind.stockAll (s.rules name) _ _).bind _ = _
    rw [hstock]
    exact stockAll_replacing hdedicated.inOrder hdependent shelf new
  · intro hidle
    rw [hqueues] at hidle
    cases hidle

/-- Where changes are made right away, so is a replacement. -/
private theorem owes_replaced_of_immediate (howner : q.tracker.owner = some o)
    (hdispatch : q.tracker.dispatch = .immediate name)
    (hin : (s.views name).InOrder (s.rules name)) (hreliable : (s.store name).Reliable)
    (hdependent : (s.store name).dependent = true) (h : q.tracker.Owes s name o.id shelf)
    {new : List E} (hcount : new.length < Word.sizeLimit) :
    q.tracker.Owes (replaced q new s) name o.id
      ⟨(s.store name).arrange new, shelf.deleted ++ shelf.elements⟩ := by
  have hidle : q.tracker.isQueued = false := by rw [Tracker.isQueued, hdispatch]
  have hname {other : StoreName} (hother : q.tracker.dispatch = .immediate other) :
      name = other := by
    rw [hdispatch] at hother
    exact Dispatch.immediate.inj hother
  have hsame : q.tracker.enqueue (replacing new) s = s := by
    unfold Tracker.enqueue
    rw [hdispatch]
  let size : Option Nat := if q.content.useCache then some 0 else none
  have hsize : ∀ n, size = some n → n + new.length ≤ Word.sizeLimit := by
    intro n hn
    obtain rfl : 0 = n := by
      unfold size at hn
      split at hn
      · exact Option.some.inj hn
      · cases hn
    rw [Nat.zero_add]
    exact Nat.le_of_lt hcount
  -- The store is cleared first, and deletes all it held; then it is filled.
  obtain ⟨_, mid, hclear, hcleared, -⟩ := Session.forward_advances (s := s) howner "clear"
    Store.clear fun other hother => by
      rw [← hname hother]
      exact Store.carries_clear hreliable o.id
  obtain ⟨hcontinues, -⟩ := hcleared.carried name hdispatch
  obtain ⟨_, after, hadd, hadded, -⟩ := Session.forward_advances (s := mid) howner "add-all"
    (Store.addAll · new size) fun other hother => by
      rw [← hname hother]
      exact Store.carries_addAll (hcontinues.reliable hreliable) o.id new size hsize
  have hafter : replaced q new s = after := by
    unfold replaced
    dsimp only
    rw [hsame, hclear]
    dsimp only
    rw [hadd]
  obtain ⟨-, hstock⟩ := (hcleared.trans hadded).carried name hdispatch
  rw [h.idle hidle] at hstock
  rw [hafter]
  refine ⟨?_, fun _ => ?_⟩
  · intro hqueues
    rw [hidle] at hqueues
    cases hqueues
  · have hreplaced := stockAll_replacing hin hdependent shelf new
    exact (Option.some.inj (hreplaced.symm.trans hstock)).symm

end Replaced

/-- What the store of a queue is owed. -/
private theorem Backed.exists_owes {id : ObjectId} {name : StoreName}
    {scene : Scene (TrackedQueue E) E} (h : Backed id name scene) :
    ∃ shelf, scene.value.tracker.Owes scene.session name id shelf := by
  by_cases hqueues : scene.value.tracker.isQueued = true
  · obtain ⟨shelf, hstock⟩ := h.feasible hqueues
    refine ⟨shelf, fun _ => ⟨⟨h.inOrder, h.reliable, h.waiting hqueues⟩, hstock⟩, ?_⟩
    intro hidle
    rw [hqueues] at hidle
    cases hidle
  · exact ⟨_, fun h => absurd h hqueues, fun _ => rfl⟩

/-- What replacing a value deletes. Once all that waits is carried out, a replacement that reaches
the store has deleted all elements that the store would hold without it, also those that the new
value keeps; any other replacement has deleted nothing. So no deleted element occurs in the new
value, and none is still held by the store, if and only if the replacement does not reach the store
or the old and the new value have no element in common. -/
theorem replacement_deletions {id : ObjectId} {name : StoreName}
    {scene : Scene (TrackedQueue E) E} (h : Backed id name scene) (new : List E)
    (hcount : new.length < Word.sizeLimit) :
    ∃ before next after lost,
      scene.value.tracker.settle scene.session = .ok () before ∧
      initialiseWith new scene = .ok () next ∧
      scene.value.tracker.settle next.session = .ok () after ∧
      (after.store name).deleted = (before.store name).deleted ++ lost ∧
      lost = (if replacementReachesStore scene.value scene.session then
        (before.store name).contents id else []) ∧
      (after.store name).contents id =
        (if replacementReachesStore scene.value scene.session then
          (scene.session.store name).arrange new else (before.store name).contents id) ∧
      (((∀ e ∈ lost, e ∉ new) ∧ ∀ e ∈ (after.store name).contents id, e ∉ lost) ↔
        (replacementReachesStore scene.value scene.session = true →
          ∀ e ∈ (before.store name).contents id, e ∉ new)) := by
  obtain ⟨shelf, howes⟩ := h.exists_owes
  obtain ⟨before, hbefore, hshelf⟩ := howes.settle
  have hcontents : (before.store name).contents id = shelf.elements :=
    congrArg Shelf.elements hshelf
  have hdeleted : (before.store name).deleted = shelf.deleted := congrArg Shelf.deleted hshelf
  have hrun := initialiseWith_apply new scene
  by_cases hreaches : replacementReachesStore scene.value scene.session = true
  · have hreplaced : scene.value.tracker.Owes (replaced scene.value new scene.session) name id
        ⟨(scene.session.store name).arrange new, shelf.deleted ++ shelf.elements⟩ := by
      obtain ⟨o, howner, rfl, hdispatch | hdispatch⟩ := Tracker.exists_owner_of_channel h.channel
      · exact owes_replaced_of_queued howner hdispatch h.dependent howes new
      · exact owes_replaced_of_immediate howner hdispatch h.inOrder h.reliable h.dependent howes
          hcount
    obtain ⟨after, hafter, hnew⟩ := (hreplaced.of_stores_eq
      (scene.value.tracker.pending_markDirty _) (scene.value.tracker.stores_markDirty _)).settle
    have helements : (after.store name).contents id = (scene.session.store name).arrange new :=
      congrArg Shelf.elements hnew
    rw [if_pos hreaches] at hrun
    refine ⟨before, _, after, shelf.elements, hbefore, hrun, hafter, ?_, ?_, ?_, ?_⟩
    · rw [hdeleted]
      exact congrArg Shelf.deleted hnew
    · rw [if_pos hreaches, hcontents]
    · rw [if_pos hreaches, helements]
    · rw [hcontents, helements]
      constructor
      · exact fun hkept _ => hkept.1
      · intro hdisjoint
        refine ⟨hdisjoint hreaches, fun e hmem hlost => hdisjoint hreaches e hlost ?_⟩
        exact ((scene.session.store name).arrange_perm new).mem_iff.mp hmem
  · obtain ⟨after, hafter, hsame⟩ := (howes.of_stores_eq
      (scene.value.tracker.pending_markDirty _) (scene.value.tracker.stores_markDirty _)).settle
    rw [if_neg hreaches] at hrun
    refine ⟨before, _, after, [], hbefore, hrun, hafter, ?_, ?_, ?_, ?_⟩
    · rw [hdeleted, List.append_nil]
      exact congrArg Shelf.deleted hsame
    · rw [if_neg hreaches]
    · rw [if_neg hreaches, hcontents]
      exact congrArg Shelf.elements hsame
    · refine iff_of_true ?_ fun h => absurd h hreaches
      simp

/-- Without common elements, the replacement deletes no element of the new value. -/
theorem replacement_deletions_of_other_value :
    let cmp : Comparator Int32 := compareOn Int32.toInt
    let o : Owner := { id := .ofNat 7, descriptor := { name := "books", ordinal := ⟨3⟩ } }
    let scene : Scene (TrackedQueue Int32) Int32 := {
      value := {
        tracker := { owner := some o, dispatch := .queued (some "books"), allowNulls := false }
        content := { order := cmp, useCache := true, lazily := true } }
      session := {
        entities := Table.empty.set o.id { typeName := "Library", flushed := true }
        stores := Table.empty.set "books"
          (Store.seed { order := some cmp, dependent := true } o.id [2, 1]) } }
    let next := (stateAfter (initialiseWith [3]) scene).session
    Backed o.id "books" scene ∧ [(3 : Int32)].length < Word.sizeLimit ∧
      ∃ after lost, scene.value.tracker.settle next = .ok () after ∧
        (after.store "books").deleted = lost ∧ lost = [1, 2] ∧ ∀ e ∈ lost, e ∉ [3] := by
  intro cmp o scene next
  have hbacked : Backed o.id "books" scene :=
    ⟨rfl, Store.inOrder_seed_new cmp true o.id [2, 1], ⟨rfl, rfl⟩, rfl, nofun, fun _ => ⟨_, rfl⟩⟩
  obtain ⟨before, _, after, lost, hbefore, hnext, hafter, hdeleted, hlost, -, hiff⟩ :=
    replacement_deletions hbacked [3] (by decide)
  have hsame : before = scene.session := (stateAfter_of_ok hbefore).symm
  have hheld : (before.store "books").contents o.id = [1, 2] := by
    rw [hsame]
    cbv
  have hnone : (before.store "books").deleted = [] := by
    rw [hsame]
    rfl
  have hreaches : replacementReachesStore scene.value scene.session = true := rfl
  rw [hnone, List.nil_append] at hdeleted
  rw [if_pos hreaches, hheld] at hlost
  rw [← stateAfter_of_ok hnext] at hafter
  refine ⟨hbacked, by decide, after, lost, hafter, hdeleted, hlost, (hiff.mpr fun _ => ?_).1⟩
  rw [hheld]
  simp

/-- A replacement deletes an element that the new value keeps, and that the store goes on holding.
-/
theorem replacement_deletes_kept :
    let cmp : Comparator Int32 := compareOn Int32.toInt
    let o : Owner := {
      id := .ofNat 7
      descriptor := {
        name := "books"
        ordinal := ⟨3⟩
        contents := some (.ofElement {
          typeName := "Book", hasIdentity := true, dependent := true }) } }
    let scene : Scene (TrackedQueue Int32) Int32 := {
      value := {
        tracker := { owner := some o, dispatch := .immediate "books", allowNulls := false }
        content := { order := cmp, useCache := true, lazily := true } }
      session := {
        entities := Table.empty.set o.id { typeName := "Library", flushed := true }
        stores := Table.empty.set "books"
          (Store.seed { order := some cmp, dependent := true } o.id [1, 2]) } }
    let store := (stateAfter (initialiseWith [2, 3]) scene).session.store "books"
    Backed o.id "books" scene ∧ store.deleted = [1, 2] ∧ store.contents o.id = [2, 3] ∧
      ¬ ((∀ e ∈ store.deleted, e ∉ [2, 3]) ∧ ∀ e ∈ store.contents o.id, e ∉ store.deleted) := by
  intro cmp o scene store
  have hbacked : Backed o.id "books" scene :=
    ⟨rfl, Store.inOrder_seed_new cmp true o.id [1, 2], ⟨rfl, rfl⟩, rfl, nofun, nofun⟩
  have hdeleted : store.deleted = [1, 2] := by cbv
  have hheld : store.contents o.id = [2, 3] := by cbv
  refine ⟨hbacked, hdeleted, hheld, fun h => ?_⟩
  rw [hdeleted] at h
  exact h.1 2 (by decide) (by decide)

end TrackedQueue

end TrackedFields
