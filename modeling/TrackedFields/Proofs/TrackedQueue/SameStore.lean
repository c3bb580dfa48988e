import TrackedFields.Proofs.TrackedQueue.QueuedWithoutCache

/-!
# Queued and immediate changes reach the same store

A priority queue that queues its changes and does not keep its content in memory never guesses too
low what its store is going to hold: stored and remembered copies of an element are at least as many
as there will be. So every removal that is needed is queued. Surplus ones are queued as well, but
they find nothing, as they are carried out before anything that is added later. Used alike, such a
queue and one that makes its changes right away come to the same after each flush.
-/

namespace TrackedFields.TrackedQueue

variable {E α : Type}

/-! ### Two queues -/

/-- Two queues that are used alike and do not keep their content in memory: one queues its changes,
the other one makes them right away. The stores have the same rules. What waits, carried out on what
the first store held when nothing waited, gives what the second store holds and has deleted; and
stored and remembered copies of an element are at least as many. -/
structure Abreast [DecidableEq E] (o o' : Owner) (name name' : StoreName) (before : Session E)
    (kinds : List (OperationKind E)) (scene twin : Scene (TrackedQueue E) E) : Prop where
  shadowing : Shadowing o name before kinds scene
  inOrder : (before.views name).InOrder (before.rules name)
  reliable : (before.store name).Reliable
  direct : WriteThrough o' name' twin
  rules : twin.session.rules name' = before.rules name
  allowNulls : twin.value.tracker.allowNulls = scene.value.tracker.allowNulls
  contents : OperationKind.carryOutAll (before.rules name) ((before.store name).contents o.id)
    kinds = some (held o' name' twin)
  deleted : ((before.store name).deleted ++ OperationKind.losses (before.rules name)
    ((before.store name).contents o.id) kinds).Perm (twin.session.store name').deleted
  covered : ∀ e, (held o' name' twin).count e ≤
    ((before.store name).contents o.id).count e + scene.value.content.elements.count e

section Stepping

variable [DecidableEq E] {o o' : Owner} {name name' : StoreName} {before : Session E}
  {kinds more made : List (OperationKind E)} {remembered next : List E}
  {scene twin after after' : Scene (TrackedQueue E) E}

/-- What the second store holds, fits into the first one. -/
theorem Abreast.fits (h : Abreast o o' name name' before kinds scene twin) :
    (before.rules name).Fits (held o' name' twin) :=
  OperationKind.fits_carryOutAll (fun cmp hcmp => (h.inOrder cmp hcmp).1) (h.inOrder.fits o.id)
    h.contents

/-- Two queues stay abreast if what the one queues comes to the same as what the other one makes,
and enough is remembered. -/
theorem Abreast.step (h : Abreast o o' name name' before kinds scene twin)
    (hqueues : Queues o name before kinds more remembered scene after)
    (hmakes : Makes o' name' made twin after')
    (hmore : OperationKind.carryOutAll (before.rules name) (held o' name' twin) more = some next)
    (hmade : OperationKind.carryOutAll (before.rules name) (held o' name' twin) made = some next)
    (hlosses : (OperationKind.losses (before.rules name) (held o' name' twin) more).Perm
      (OperationKind.losses (before.rules name) (held o' name' twin) made))
    (hcovered : ∀ e, next.count e ≤
      ((before.store name).contents o.id).count e + remembered.count e) :
    Abreast o o' name name' before (kinds ++ more) after after' := by
  have hstock := hmakes.stock
  rw [h.rules, OperationKind.stockAll_eq] at hstock
  change (OperationKind.carryOutAll _ (held o' name' twin) made).map _ = _ at hstock
  rw [hmade] at hstock
  have hshelf := Option.some.inj hstock
  have hheld : held o' name' after' = next := (congrArg Shelf.elements hshelf).symm
  have hrules : after'.session.rules name' = twin.session.rules name' := hmakes.continues.rules
  refine ⟨hqueues.shadowing, h.inOrder, h.reliable, hmakes.direct h.direct, hrules.trans h.rules,
    ?_, ?_, ?_, ?_⟩
  · rw [hmakes.tracker, hqueues.tracker]
    exact h.allowNulls
  · rw [OperationKind.carryOutAll_append, h.contents, hheld]
    exact hmore
  · rw [OperationKind.losses_append h.contents, ← List.append_assoc]
    exact (h.deleted.append hlosses).trans (.of_eq (congrArg Shelf.deleted hshelf))
  · intro e
    rw [hheld, hqueues.elements.count_eq]
    exact hcovered e

/-- Two queues stay abreast if both take out elements by value, the same in the end. -/
theorem Abreast.removed (h : Abreast o o' name name' before kinds scene twin) {gone gone' : List E}
    {cascade : Bool}
    (hqueues : Queues o name before kinds (gone.map (.collectionRemove · cascade)) remembered scene
      after)
    (hmakes : Makes o' name' (gone'.map (.collectionRemove · cascade)) twin after')
    (hsame : gone.foldl List.erase (held o' name' twin) =
      gone'.foldl List.erase (held o' name' twin))
    (hcovered : ∀ e, (gone'.foldl List.erase (held o' name' twin)).count e ≤
      ((before.store name).contents o.id).count e + remembered.count e) :
    ∃ kinds, Abreast o o' name name' before kinds after after' := by
  have hmore := OperationKind.carryOutAll_removed h.fits gone cascade
  rw [hsame] at hmore
  exact ⟨_, h.step hqueues hmakes hmore (OperationKind.carryOutAll_removed h.fits gone' cascade)
    (OperationKind.perm_losses_removed h.fits cascade hsame) hcovered⟩

/-- Two queues stay abreast if the one takes out all stored and remembered copies of some elements,
and the other one all copies that are there. -/
theorem Abreast.weeded (h : Abreast o o' name name' before kinds scene twin) (doomed : E → Bool)
    (hqueues : Queues o name before kinds ((((before.store name).contents o.id ++
      scene.value.content.elements).filter doomed).map (.collectionRemove · true))
      (scene.value.content.elements.filter fun e => !doomed e) scene after)
    (hmakes : Makes o' name' (((held o' name' twin).filter doomed).map
      (.collectionRemove · true)) twin after') :
    ∃ kinds, Abreast o o' name name' before kinds after after' := by
  have hsame : (((before.store name).contents o.id ++ scene.value.content.elements).filter
      doomed).foldl List.erase (held o' name' twin) =
        (held o' name' twin).filter fun e => !doomed e := by
    apply OperationKind.foldl_erase_covered
    · exact fun e he => (List.mem_filter.mp he).2
    · intro e he
      rw [List.count_filter he, List.count_append]
      exact h.covered e
  have hleft := OperationKind.foldl_erase_filter doomed (held o' name' twin)
  refine h.removed hqueues hmakes (hsame.trans hleft.symm) fun e => ?_
  rw [hleft]
  by_cases he : doomed e = true
  · have hgone : e ∉ (held o' name' twin).filter fun e => !doomed e := by simp [he]
    rw [List.count_eq_zero_of_not_mem hgone]
    exact Nat.zero_le _
  · have hkept : (!doomed e) = true := by simpa using he
    rw [List.count_filter (p := fun e => !doomed e) hkept,
      List.count_filter (p := fun e => !doomed e) hkept]
    exact h.covered e

/-- Removing an element by value. -/
theorem Abreast.removeWith (h : Abreast o o' name name' before kinds scene twin) (e : E)
    (cascade : Bool) :
    ∃ kinds, Abreast o o' name name' before kinds
      (stateAfter (TrackedQueue.removeWith e cascade) scene)
      (stateAfter (TrackedQueue.removeWith e cascade) twin) := by
  have hqueues := h.shadowing.removeWith h.reliable e cascade
  have hmakes : Makes o' name' ([e].map (.collectionRemove · cascade)) twin _ :=
    h.direct.removeWith e cascade
  refine h.removed hqueues hmakes ?_ fun a => ?_
  · split
    · rfl
    · next hunknown =>
      -- An element that is neither stored nor remembered is not there.
      have hcount := h.covered e
      rw [← List.count_append, List.count_eq_zero_of_not_mem hunknown] at hcount
      have hout : e ∉ held o' name' twin := List.count_eq_zero.mp (Nat.le_zero.mp hcount)
      exact (List.erase_of_not_mem hout).symm
  · have hcount := h.covered a
    change ((held o' name' twin).erase e).count a ≤ _
    rw [List.count_erase, List.count_erase]
    omega

/-- Removing listed elements. -/
theorem Abreast.removeListed (h : Abreast o o' name name' before kinds scene twin)
    (doomed : List E) :
    ∃ kinds, Abreast o o' name name' before kinds
      (stateAfter (TrackedQueue.removeListed doomed) scene)
      (stateAfter (TrackedQueue.removeListed doomed) twin) :=
  h.weeded doomed.contains (h.shadowing.removeListed h.reliable doomed)
    (h.direct.removeListed doomed)

/-- Keeping listed elements. -/
theorem Abreast.retainAll (h : Abreast o o' name name' before kinds scene twin) (keep : List E) :
    ∃ kinds, Abreast o o' name name' before kinds (stateAfter (TrackedQueue.retainAll keep) scene)
      (stateAfter (TrackedQueue.retainAll keep) twin) := by
  have hqueues := h.shadowing.retainAll h.reliable keep
  have hkept : scene.value.content.elements.filter keep.contains =
      scene.value.content.elements.filter fun e => !!keep.contains e := by
    simp only [Bool.not_not]
  rw [hkept] at hqueues
  exact h.weeded (fun e => !keep.contains e) hqueues (h.direct.retainAll keep)

/-- Removing all elements. -/
theorem Abreast.clear (h : Abreast o o' name name' before kinds scene twin) :
    ∃ kinds, Abreast o o' name name' before kinds (stateAfter TrackedQueue.clear scene)
      (stateAfter TrackedQueue.clear twin) := by
  have hcleared : OperationKind.carryOutAll (before.rules name) (held o' name' twin)
      [.collectionClear] = some [] :=
    OperationKind.carryOutAll_kept h.fits rfl (List.nil_sublist _) []
  exact ⟨_, h.step h.shadowing.clear h.direct.clear hcleared hcleared (.refl _) fun e => by simp⟩

variable [Element E]

/-- Adding elements without a check. -/
theorem Abreast.addUnchecked (h : Abreast o o' name name' before kinds scene twin)
    (operation : String) (store : ObjectId → Option Nat → StoreAction E Bool) {new : List E}
    {answer : Bool} (hstore : (twin.session.store name').Carries o'.id (store o'.id none) answer
      (new.map .collectionAdd)) :
    ∃ kinds, Abreast o o' name name' before kinds
      (stateAfter (TrackedQueue.addUnchecked operation store new) scene)
      (stateAfter (TrackedQueue.addUnchecked operation store new) twin) := by
  obtain ⟨next, hjoined, hperm⟩ := OperationKind.exists_carryOutAll_joined (before.rules name)
    (held o' name' twin) new
  refine ⟨_, h.step (h.shadowing.addUnchecked operation store new)
    (h.direct.addUnchecked operation store hstore) hjoined hjoined (.refl _) fun e => ?_⟩
  have hcount := h.covered e
  rw [hperm.count_eq, List.count_append, List.count_append]
  omega

omit [DecidableEq E] in
/-- An action that checks some elements first leaves everything as it is if one of them is refused.
-/
theorem stateAfter_checked (es : List E) (next : Action E α)
    (scene : Scene (TrackedQueue E) E) :
    stateAfter (do
        Tracked.require ((← Tracked.tracker?).checkAll es)
        next) scene =
      if es.any Element.isNull && !scene.value.tracker.allowNulls then scene
      else stateAfter next scene := by
  change stateAfter (Tracked.require (scene.value.tracker.checkAll es) >>= fun _ => next) scene = _
  rw [Tracker.checkAll_eq]
  split
  · rfl
  · rfl

/-- Two queues that check elements alike stay abreast if they do so once the elements are let
through. -/
private theorem Abreast.checked (h : Abreast o o' name name' before kinds scene twin) (es : List E)
    {next : Action E α}
    (hnext : ∃ kinds, Abreast o o' name name' before kinds (stateAfter next scene)
      (stateAfter next twin)) :
    ∃ kinds, Abreast o o' name name' before kinds
      (stateAfter (do
        Tracked.require ((← Tracked.tracker?).checkAll es)
        next) scene)
      (stateAfter (do
        Tracked.require ((← Tracked.tracker?).checkAll es)
        next) twin) := by
  rw [stateAfter_checked, stateAfter_checked, h.allowNulls]
  split
  · exact ⟨kinds, h⟩
  · exact hnext

/-- Adding an element. -/
theorem Abreast.add (h : Abreast o o' name name' before kinds scene twin) (e : E) :
    ∃ kinds, Abreast o o' name name' before kinds (stateAfter (TrackedQueue.add e) scene)
      (stateAfter (TrackedQueue.add e) twin) := by
  unfold TrackedQueue.add
  simp only [Tracker.check_eq_checkAll]
  apply h.checked [e]
  exact h.addUnchecked "add" (Store.add · e ·) (Store.carries_add h.direct.reliable o'.id e none)

/-- Adding several elements. -/
theorem Abreast.addAll (h : Abreast o o' name name' before kinds scene twin) (new : List E) :
    ∃ kinds, Abreast o o' name name' before kinds (stateAfter (TrackedQueue.addAll new) scene)
      (stateAfter (TrackedQueue.addAll new) twin) := by
  apply h.checked new
  split
  · exact ⟨kinds, h⟩
  · exact h.addUnchecked "add-all" (Store.addAll · new ·)
      (Store.carries_addAll h.direct.reliable o'.id new none nofun)

/-- The calls that add or remove elements by value. -/
def Call.Edits : Call E → Prop
  | .add _ | .addAll _ | .remove _ | .removeWith _ _ | .removeAll _ | .retainAll _ | .clear => True
  | .load | .poll | .attachCopy _ | .initialiseWith _ => False

/-- Every call that adds or removes elements by value keeps two queues abreast. -/
theorem Abreast.call (h : Abreast o o' name name' before kinds scene twin) (call : Call E)
    (hedits : call.Edits) :
    ∃ kinds, Abreast o o' name name' before kinds (stateAfter call.run scene)
      (stateAfter call.run twin) := by
  cases call with
  | load => exact hedits.elim
  | add e => simpa only [Call.run, stateAfter_discard] using h.add e
  | addAll new => simpa only [Call.run, stateAfter_discard] using h.addAll new
  | poll => exact hedits.elim
  | remove e =>
    have hremoved := h.removeWith e true
    simp only [Call.run, stateAfter_discard]
    exact hremoved
  | removeWith e cascade => simpa only [Call.run, stateAfter_discard] using h.removeWith e cascade
  | removeAll es =>
    have hlisted := h.removeListed es
    simp only [Call.run, stateAfter_discard]
    unfold TrackedQueue.removeAll
    split
    · exact ⟨kinds, h⟩
    · exact hlisted
  | retainAll keep => simpa only [Call.run, stateAfter_discard] using h.retainAll keep
  | clear => exact h.clear
  | attachCopy target => exact hedits.elim
  | initialiseWith new => exact hedits.elim

end Stepping

/-! ### Flushing -/

/-- Two queues that do not keep their content in memory and have come to the same: one queues its
changes, none of which waits, the other one makes them right away. Their stores have the same rules,
hold the same and have deleted the same, in some order. -/
structure CaughtUp (o o' : Owner) (name name' : StoreName) (scene twin : Scene (TrackedQueue E) E) :
    Prop where
  queued : Uncached o name scene
  direct : WriteThrough o' name' twin
  rules : twin.session.rules name' = scene.session.rules name
  allowNulls : twin.value.tracker.allowNulls = scene.value.tracker.allowNulls
  held : held o' name' twin = held o name scene
  deleted : (scene.session.store name).deleted.Perm (twin.session.store name').deleted

section Flushing

variable [DecidableEq E] {o o' : Owner} {name name' : StoreName} {before : Session E}
  {kinds : List (OperationKind E)} {scene twin : Scene (TrackedQueue E) E}

/-- Queues that have come to the same are abreast. -/
theorem CaughtUp.abreast (h : CaughtUp o o' name name' scene twin) :
    Abreast o o' name name' scene.session [] scene twin := by
  refine ⟨h.queued.shadowing, h.queued.inOrder, h.queued.reliable, h.direct, h.rules, h.allowNulls,
    congrArg some h.held.symm, ?_, fun e => ?_⟩
  · rw [OperationKind.losses, List.append_nil]
    exact h.deleted
  · rw [h.held]
    exact Nat.le_add_right _ _

/-- The store of a shadowing queue lags behind what its operations make of the container. -/
theorem Shadowing.behind {es : List E} (h : Shadowing o name before kinds scene)
    (hin : (before.views name).InOrder (before.rules name))
    (hreliable : (before.store name).Reliable)
    (hkinds : OperationKind.carryOutAll (before.rules name) ((before.store name).contents o.id)
      kinds = some es) :
    scene.session.Behind name (some name) o.id es := by
  obtain ⟨hinOrder, hgood, hwaiting⟩ := h.dedicated hin hreliable
  obtain ⟨hrules, hcontents, hpending⟩ := h.meets
  refine ⟨hinOrder, hgood, hwaiting, ?_⟩
  rw [hrules, hpending]
  exact (congrArg (OperationKind.carryOutAll _ · kinds) hcontents).trans hkinds

/-- A flush lets queues that are abreast come to the same. -/
theorem Abreast.flush (h : Abreast o o' name name' before kinds scene twin)
    (default : Option StoreName) :
    ∃ after, Session.flush default scene.session = .ok scene.session.pending.length after ∧
      CaughtUp o o' name name' { scene with session := after } twin := by
  have hbehind := h.shadowing.behind h.inOrder h.reliable h.contents
  have hname : (some name).or default = some name := rfl
  obtain ⟨after, hflush, hnil, hdeleted, hcontinues, hsynced⟩ := hbehind.flush_deletions hname
  obtain ⟨hrules, hcontents, hpending⟩ := h.shadowing.meets
  have hbefore : (scene.session.store name).deleted = (before.store name).deleted :=
    congrArg Store.View.deleted h.shadowing.view
  refine ⟨after, hflush, ⟨h.shadowing.owner, h.shadowing.dispatch, h.shadowing.useCache,
    hsynced.inOrder, hsynced.reliable, hnil⟩, h.direct, ?_, h.allowNulls, ?_, ?_⟩
  · rw [h.rules, ← hrules]
    exact (hcontinues name).rules.symm
  · have hcaught := hsynced.catches_up
    rw [hnil] at hcaught
    exact (Option.some.inj hcaught).symm
  · rw [hdeleted, Session.dueDeletions, hrules, hcontents, hpending, hbefore]
    exact h.deleted

variable [Element E]

/-- Two queues are used alike, or the session of the first one is flushed. -/
inductive EditStep : Scene (TrackedQueue E) E × Scene (TrackedQueue E) E →
    Scene (TrackedQueue E) E × Scene (TrackedQueue E) E → Prop where
  | edit {scenes : Scene (TrackedQueue E) E × Scene (TrackedQueue E) E} (call : Call E)
      (edits : call.Edits) :
      EditStep scenes (stateAfter call.run scenes.1, stateAfter call.run scenes.2)
  | flush {scenes : Scene (TrackedQueue E) E × Scene (TrackedQueue E) E}
      (default : Option StoreName) :
      EditStep scenes
        ({ scenes.1 with session := stateAfter (Session.flush default) scenes.1.session }, scenes.2)

/-- A step keeps two queues abreast; a flush starts anew. -/
theorem EditStep.abreast {scenes after : Scene (TrackedQueue E) E × Scene (TrackedQueue E) E}
    (step : EditStep scenes after)
    (h : ∃ before kinds, Abreast o o' name name' before kinds scenes.1 scenes.2) :
    ∃ before kinds, Abreast o o' name name' before kinds after.1 after.2 := by
  obtain ⟨before, kinds, habreast⟩ := h
  cases step with
  | edit call edits => exact ⟨before, habreast.call call edits⟩
  | flush default =>
    obtain ⟨after, hflush, hlevel⟩ := habreast.flush default
    dsimp only
    rw [stateAfter_of_ok hflush]
    exact ⟨after, [], hlevel.abreast⟩

/-- Queued changes reach the same store as immediate ones. Let two priority queues not keep their
content in memory, one of which queues its changes, and let their reliable stores agree to begin
with. Whatever is added to both and removed from both by value, and however often the session of the
first one is flushed in between, a flush passes, lets nothing wait, and leaves the stores with the
same elements in the same order, and with the same deleted elements up to their order. -/
theorem queued_edits_reach_same_store (o o' : Owner) (name name' : StoreName)
    (start scenes : Scene (TrackedQueue E) E × Scene (TrackedQueue E) E)
    (hstart : CaughtUp o o' name name' start.1 start.2)
    (hrun : Relation.ReflTransGen EditStep start scenes) (default : Option StoreName) :
    ∃ after, Session.flush default scenes.1.session = .ok scenes.1.session.pending.length after ∧
      after.pending = [] ∧
      (after.store name).contents o.id = (scenes.2.session.store name').contents o'.id ∧
      (after.store name).deleted.Perm (scenes.2.session.store name').deleted := by
  have habreast : ∃ before kinds, Abreast o o' name name' before kinds scenes.1 scenes.2 := by
    induction hrun with
    | refl => exact ⟨_, _, hstart.abreast⟩
    | tail _ step ih => exact step.abreast ih
  obtain ⟨before, kinds, h⟩ := habreast
  obtain ⟨after, hflush, hlevel⟩ := h.flush default
  exact ⟨after, hflush, hlevel.queued.pending, hlevel.held.symm, hlevel.deleted⟩

/-- With copies of an element that are added, stored by a flush and then removed once too often: the
surplus removal waits as well, but does not reach the equal element that is added after it. -/
theorem queued_edits_reach_same_store_despite_surplus :
    let cmp : Comparator Int32 := compareOn fun e => e.toInt / 10
    let o : Owner := { id := .ofNat 7, descriptor := { name := "books", ordinal := ⟨3⟩ } }
    let session : Session Int32 := {
      entities := Table.empty.set o.id { typeName := "Library" }
      stores := Table.empty.set "books"
        (Store.seed { order := some cmp, dependent := true } o.id [11, 22]) }
    let queue (dispatch : Dispatch) : Scene (TrackedQueue Int32) Int32 := {
      value := {
        tracker := { owner := some o, dispatch, allowNulls := false }
        content := { order := cmp, useCache := false, lazily := true } }
      session }
    let edit (scenes : Scene (TrackedQueue Int32) Int32 × Scene (TrackedQueue Int32) Int32)
        (call : Call Int32) := (stateAfter call.run scenes.1, stateAfter call.run scenes.2)
    let start := (queue (.queued (some "books")), queue (.immediate "books"))
    let added := edit start (.add 11)
    let flushed := ({ added.1 with
      session := stateAfter (Session.flush none) added.1.session }, added.2)
    let once := edit flushed (.remove 11)
    let twice := edit once (.remove 11)
    let thrice := edit twice (.remove 11)
    let scenes := edit thrice (.add 11)
    scenes.1.session.pending.length = 4 ∧
    held o "books" scenes.2 = [11, 22] ∧ (scenes.2.session.store "books").deleted = [11] ∧
    CaughtUp o o "books" "books" start.1 start.2 ∧ Relation.ReflTransGen EditStep start scenes ∧
      ∃ after, Session.flush none scenes.1.session = .ok scenes.1.session.pending.length after ∧
        after.pending = [] ∧
        (after.store "books").contents o.id = (scenes.2.session.store "books").contents o.id ∧
        (after.store "books").deleted.Perm (scenes.2.session.store "books").deleted := by
  intro cmp o session queue edit start added flushed once twice thrice scenes
  have hstart : CaughtUp o o "books" "books" start.1 start.2 :=
    ⟨⟨rfl, rfl, rfl, Store.inOrder_seed_new cmp true o.id [11, 22], ⟨rfl, rfl⟩, rfl⟩,
      ⟨rfl, rfl, rfl, ⟨rfl, rfl⟩⟩, rfl, rfl, rfl, .refl _⟩
  have hflushed : Relation.ReflTransGen EditStep start flushed :=
    (Relation.ReflTransGen.refl.tail (.edit (.add 11) trivial)).tail (.flush none)
  have hremoved : Relation.ReflTransGen EditStep flushed thrice :=
    ((Relation.ReflTransGen.refl.tail (.edit (.remove 11) trivial)).tail
      (.edit (.remove 11) trivial)).tail (.edit (.remove 11) trivial)
  have hrun : Relation.ReflTransGen EditStep start scenes :=
    (hflushed.trans hremoved).tail (.edit (.add 11) trivial)
  exact ⟨by cbv, by cbv, by cbv, hstart, hrun,
    queued_edits_reach_same_store o o "books" "books" start scenes hstart hrun none⟩

end Flushing

end TrackedFields.TrackedQueue
