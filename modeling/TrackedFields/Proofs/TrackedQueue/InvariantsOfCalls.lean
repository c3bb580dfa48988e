import TrackedFields.Proofs.TrackedQueue.Invariants

/-!
# Invariants through all calls of queues

Calls that change a queue, taken apart. What they pass on they found before, in memory or in the
store, or have checked, so a property that survives the parts of calls, as long as these bring in
good elements only, survives every call.
-/

namespace TrackedFields

/-- What an action keeps by its parts, if its first part answers nothing but what the second part
is prepared for. -/
theorem Keeps.bind_of {ε σ α β : Type} {P : σ → Prop} {Q : α → Prop} {action : EStateM ε σ α}
    {next : α → EStateM ε σ β} (h : Keeps P action)
    (hanswer : ∀ s a after, P s → action s = .ok a after → Q a)
    (hnext : ∀ a, Q a → Keeps P (next a)) : Keeps P (action >>= next) := by
  intro s hs
  have hafter := h s hs
  unfold stateAfter at hafter
  rw [stateAfter_bind]
  cases heq : action s with
  | ok a after =>
    rw [heq] at hafter
    exact hnext a (hanswer s a after hs heq) after hafter
  | error e after =>
    rw [heq] at hafter
    exact hafter

/-- Elements that are accepted together are accepted one by one. -/
theorem Tracker.check_of_checkAll {E : Type} [Element E] {t : Tracker} {es : List E}
    (h : t.checkAll es = .ok ()) : ∀ e ∈ es, t.check e = .ok () := by
  rw [checkAll_eq] at h
  intro e he
  rw [check_eq_checkAll, checkAll_eq]
  cases hnull : Element.isNull e && !t.allowNulls with
  | false => rw [List.any_cons, List.any_nil, Bool.or_false, hnull]; rfl
  | true =>
    obtain ⟨he', hforbidden⟩ := Bool.and_eq_true_iff.mp hnull
    have hany : es.any Element.isNull = true := List.any_eq_true.mpr ⟨e, he, he'⟩
    rw [hany, hforbidden] at h
    cases h

namespace TrackedQueue

variable {E α : Type} [DecidableEq E] [Element E]

namespace Invariant

variable {good : E → Prop} {P : Scene (TrackedQueue E) E → Prop} (h : Invariant good P)
include h

/-! ### Removing -/

/-- Removing the head. -/
theorem poll : Keeps P (poll (E := E)) := by
  apply h.keeps_of_prepared
  intro scene hscene _
  have hrest : ∀ e ∈ scene.value.content.elements.tail, good e :=
    fun e he => h.elements hscene e (List.mem_of_mem_tail he)
  have hoperations (queues : Bool) : ∀ kind ∈ (if queues = true then
      [OperationKind.listRemoveAt 0] else [] : List (OperationKind E)), kind.Bears good := by
    intro kind hkind
    split at hkind
    · rw [List.mem_singleton.mp hkind]
      exact nofun
    · cases hkind
  rw [stateAfter_current_bind]
  exact ((h.setElements hrest).bind fun _ => (h.forward "poll" (.removeAt 0 _)).bind fun _ =>
    (h.announce (hoperations _)).bind fun _ => h.changed.bind fun _ => .pure _) scene hscene

/-- What removing an element comes to, once it is asked whether there is one: only an element that
was found is passed on. -/
theorem removeFound {es : List E} (hes : ∀ a ∈ es, good a) {e : E} {cascade : Bool}
    {hint : Option Nat} {present : Action E Bool} (hpresent : Keeps P present)
    (hfound : ∀ scene after, P scene → present scene = .ok true after → good e)
    (report : Bool → Forwarded Bool → Report E)
    (hreport : ∀ found forwarded,
      (report found forwarded).operations =
        if found = true then [.collectionRemove e cascade] else []) :
    Keeps P (do
      let found ← present
      TrackedQueue.setElements es
      let forwarded ← TrackedQueue.forward "remove" (Store.remove · e hint cascade)
      TrackedQueue.announce (report found forwarded)
      TrackedQueue.changed
      return forwarded.answer found false : Action E Bool) := by
  refine hpresent.bind_of (Q := fun found => found = true → good e) ?_ fun found hgood =>
    (h.setElements hes).bind fun _ => (h.forward "remove" (.remove e hint cascade)).bind fun _ =>
      (h.announce fun kind hkind a ha => ?_).bind fun _ => h.changed.bind fun _ => .pure _
  · intro scene found after hscene hanswer hyes
    rw [hyes] at hanswer
    exact hfound scene after hscene hanswer
  · rw [hreport] at hkind
    split at hkind
    · next hyes =>
      rw [List.mem_singleton.mp hkind] at ha
      cases ha
      exact hgood hyes
    · cases hkind

/-- Removing one occurrence of an element. -/
theorem removeWith (e : E) (cascade : Bool) : Keeps P (removeWith e cascade) := by
  apply h.keeps_of_prepared
  intro scene hscene _
  have hrest : ∀ a ∈ scene.value.content.elements.erase e, good a :=
    fun a ha => h.elements hscene a (List.mem_of_mem_erase ha)
  rw [stateAfter_current_bind]
  dsimp only
  -- Whether there is such an element is known from memory, or asked of the store.
  split
  · refine h.removeFound hrest (.pure _) (fun before after _ hanswer => ?_) _ (fun _ _ => rfl) scene
      hscene
    exact h.elements hscene e (List.contains_iff_mem.mp (EStateM.Result.ok.inj hanswer).1)
  · exact h.removeFound hrest (h.contains e) (fun _ _ hbefore => h.good_of_contains hbefore) _
      (fun _ _ => rfl) scene hscene

/-- What removing copies of listed elements comes to, once they are found. -/
theorem removeCopies {es copies : List E} (hes : ∀ e ∈ es, good e) (hcopies : ∀ e ∈ copies, good e)
    (hint : Option Nat) :
    Keeps P (do
      TrackedQueue.setElements es
      TrackedQueue.announce (.removed copies true)
      let forwarded ← TrackedQueue.forward "remove-all" (Store.removeAll · copies hint)
      TrackedQueue.changed
      return forwarded.answer (!copies.isEmpty) false : Action E Bool) := by
  have hoperations : ∀ kind ∈ (Report.removed copies true).operations, kind.Bears good :=
    OperationKind.bears_of_mem_map hcopies fun _ => rfl
  exact (h.setElements hes).bind fun _ => (h.announce hoperations).bind fun _ =>
    (h.forward "remove-all" (.removeAll _ _)).bind fun _ => h.changed.bind fun _ => .pure _

/-- What a queue reads of its store as a whole is good. -/
theorem good_of_stored {stored : List E} {scene after : Scene (TrackedQueue E) E}
    (hscene : P scene) (hread : TrackedQueue.readEither true Store.elements
      (fun _ => [] : QueueContent E → List E) scene = .ok stored after) : ∀ e ∈ stored, good e := by
  intro e he
  cases hchannel : scene.value.tracker.channel with
  | none =>
    rw [readEither_of_no_channel hchannel] at hread
    cases hread
    cases he
  | some channel =>
    obtain ⟨name, owner⟩ := channel
    rw [readEither_of_channel hchannel, if_pos rfl] at hread
    rw [contents_of_read_elements hread] at he
    exact h.stored hscene hchannel e he

/-- Removing every occurrence of listed elements. -/
theorem removeListed (doomed : List E) : Keeps P (removeListed doomed) := by
  apply h.keeps_of_prepared
  intro scene hscene hprepared
  have hrest : ∀ e ∈ scene.value.content.elements.filter fun e => !doomed.contains e, good e :=
    fun e he => h.elements hscene e (List.mem_filter.mp he).1
  have hfound : ∀ e ∈ scene.value.content.elements.filter doomed.contains, good e :=
    fun e he => h.elements hscene e (List.mem_filter.mp he).1
  rw [stateAfter_current_bind]
  dsimp only
  cases hpart : scene.value.isAuthoritative with
  | true =>
    refine h.removeCopies hrest (fun e he => ?_) _ scene hscene
    split at he
    · exact hfound e he
    · exact hfound e (by simpa using he)
    · exact hfound e (by simpa using he)
  | false =>
    have huse : scene.value.content.useCache = false := by
      rw [← Bool.not_eq_true]
      intro huse
      rw [hprepared huse] at hpart
      cases hpart
    have hread : P (stateAfter
        (TrackedQueue.readEither true Store.elements (fun _ => [] : QueueContent E → List E))
        scene) := h.readEither hscene .elements _ fun _ _ => ⟨hpart, fun _ => huse⟩
    unfold stateAfter at hread
    rw [if_neg Bool.false_ne_true, stateAfter_bind]
    cases hanswer : TrackedQueue.readEither true Store.elements (fun _ => []) scene with
    | error failure mid => rwa [hanswer] at hread
    | ok stored mid =>
      rw [hanswer] at hread
      have hstored : ∀ e ∈ stored.filter doomed.contains, good e := fun e he =>
        h.good_of_stored hscene hanswer e (List.mem_filter.mp he).1
      refine h.removeCopies hrest (fun e he => ?_) _ mid hread
      split at he
      · exact hstored e he
      · exact (List.mem_append.mp he).elim (hstored e) (hfound e)
      · exact (List.mem_append.mp he).elim (hstored e) (hfound e)

/-- Removing what is listed, if anything is. -/
theorem removeAll (es : List E) : Keeps P (removeAll es) :=
  (Keeps.pure false).ite (h.removeListed es)

/-- Keeping what is listed. -/
theorem retainAll (keep : List E) : Keeps P (retainAll keep) :=
  h.toList.bind fun _ => keeps_current.bind fun _ => (Keeps.pure false).ite (h.removeListed _)

/-- Removing everything. -/
theorem clear : Keeps P (clear (E := E)) := by
  intro scene hscene
  let content : QueueContent E := { scene.value.content with
    elements := []
    loaded := scene.value.content.loaded || scene.value.content.useCache }
  have hempty := h.setContent content hscene ⟨rfl, rfl, fun hloaded => by
    change (scene.value.content.loaded || _) = true
    rw [hloaded, Bool.true_or]⟩ nofun
  exact ((h.announce (Report.bears_cleared good _)).bind fun _ =>
    (h.forward "clear" .clear).discard.bind fun _ => h.changed) _ hempty

/-! ### Adding -/

/-- Adding good elements. -/
theorem addUnchecked (operation : String) {store : ObjectId → Option Nat → StoreAction E Bool}
    (hstore : ∀ hint, Store.Write good (store · hint)) {new : List E} (hnew : ∀ e ∈ new, good e) :
    Keeps P (addUnchecked operation store new) := by
  apply h.keeps_of_prepared
  intro scene hscene _
  rw [stateAfter_current_bind]
  have hoperations : ∀ kind ∈ (Report.added new).operations, kind.Bears good :=
    OperationKind.bears_of_mem_map hnew fun _ => rfl
  refine ((h.forward operation (hstore _)).bind fun forwarded => (h.setElements ?_).bind fun _ =>
    (h.announce hoperations).bind fun _ => h.changed.bind fun _ =>
      .pure (forwarded.answer true false)) scene hscene
  intro e he
  rcases List.mem_append.mp ((Comparator.insertAll_perm _ _ _).mem_iff.mp he) with he | he
  · exact h.elements hscene e he
  · exact hnew e he

omit h [DecidableEq E] [Element E] in
/-- What comes after a check knows that it has passed. -/
theorem keeps_required {checked : Except Failure Unit} {next : Unit → Action E α}
    (hnext : checked = .ok () → Keeps P (next ())) :
    Keeps P (Tracked.require checked >>= next) := by
  cases checked with
  | error failure => exact fun _ hscene => hscene
  | ok answer => exact (Keeps.pure ()).bind fun _ => hnext rfl

/-- Adding an element. -/
theorem add (e : E) : Keeps P (add e) := by
  intro scene hscene
  refine keeps_required (fun hcheck => ?_) scene hscene
  have he : good e := h.checked hscene hcheck
  have hwrite (hint : Option Nat) : Store.Write good (Store.add · e hint) := .add e hint he
  refine h.addUnchecked "add" hwrite fun a ha => ?_
  rwa [List.mem_singleton.mp ha]

/-- Adding several elements. -/
theorem addAll (new : List E) : Keeps P (addAll new) := by
  intro scene hscene
  refine keeps_required (fun hcheck => (Keeps.pure false).ite ?_) scene hscene
  have hnew : ∀ e ∈ new, good e :=
    fun e he => h.checked hscene (Tracker.check_of_checkAll hcheck e he)
  have hwrite (hint : Option Nat) : Store.Write good (Store.addAll · new hint) :=
    .addAll new hint hnew
  exact h.addUnchecked "add-all" hwrite hnew

/-! ### The value as a whole -/

/-- Reconciling a queue with a list. -/
theorem reconcile (attached : List E) :
    Keeps P (Container.reconcile attached : Action E Unit) :=
  Container.keeps_reconcile h.toList (fun e => h.removeWith e false) h.add attached

/-- Preparing a fresh queue. -/
theorem initialise : Keeps P (initialise (E := E)) :=
  Keeps.content?.bind fun _ => h.load.ite (.pure ())

/-- Taking over good elements that the store holds already. -/
theorem initialiseFrom {es : List E} (hes : ∀ e ∈ es, good e) : Keeps P (initialiseFrom es) := by
  intro scene hscene
  refine h.setContent _ hscene ⟨rfl, rfl, fun hloaded => ?_⟩ fun e he => ?_
  · change (scene.value.content.loaded || _) = true
    rw [hloaded, Bool.true_or]
  · exact hes e ((Comparator.sort_perm _ es).mem_iff.mp he)

/-- Replacing the whole value by good elements. -/
theorem initialiseWith {es : List E} (hes : ∀ e ∈ es, good e) : Keeps P (initialiseWith es) := by
  intro scene hscene
  have hoperations : ∀ kind ∈ OperationKind.collectionClear :: es.map OperationKind.collectionAdd,
      kind.Bears good :=
    List.forall_mem_cons.mpr ⟨nofun, OperationKind.bears_of_mem_map hes fun _ => rfl⟩
  -- What goes to the session and the store leaves the content as it is until the end.
  let Before (now : Scene (TrackedQueue E) E) : Prop :=
    P now ∧ now.value.content = scene.value.content
  have henqueue : Keeps Before (Tracked.report fun tracker session =>
      tracker.enqueue (.collectionClear :: es.map .collectionAdd) session : Action E Unit) :=
    fun now hnow => ⟨h.asks hnow.1 (.enqueue _ hoperations now.session), hnow.2⟩
  have hforward (operation : String) {α : Type} {action : ObjectId → StoreAction E α}
      (haction : Store.Write good action) : Keeps Before (TrackedQueue.forward operation action) :=
    fun now hnow => ⟨h.forward operation haction now hnow.1, hnow.2⟩
  have hend (now : Scene (TrackedQueue E) E) (hnow : Before now) :
      P (stateAfter (do
        Tracked.setContent { scene.value.content with
          elements := scene.value.content.order.sort es
          loaded := true }
        Tracked.makeDirty : Action E Unit) now) := by
    refine h.makeDirty _ (h.setContent _ hnow.1 ⟨?_, ?_, fun _ => rfl⟩ fun e he => ?_)
    · rw [hnow.2]
    · rw [hnow.2]
    · exact hes e ((Comparator.mem_sort _ es e).mp he)
  have hwritten := (henqueue.bind fun _ => (hforward "clear" .clear).discard.bind fun _ =>
    (hforward "add-all" (.addAll es (if scene.value.content.useCache then some 0 else none)
      hes)).discard) scene ⟨hscene, rfl⟩
  unfold TrackedQueue.initialiseWith
  rw [stateAfter_bind]
  change P (stateAfter (if replacementReachesStore scene.value scene.session = true then _ else _)
    scene)
  split
  · exact hend _ hwritten
  · exact hend scene ⟨hscene, rfl⟩

/-- Taking over a value from outside the session. -/
theorem attachCopy (target : List E) : Keeps P (attachCopy target) :=
  (h.attach target).bind fun _ => h.reconcile target

/-- A change within an element. -/
theorem updateEmbedded (e : E) (field : FieldOrdinal) (dirty : Bool) :
    Keeps P (updateEmbedded e field dirty) :=
  (h.call _ (.updateEmbedded e field)).discard.bind fun _ => h.makeDirty.ite (.pure ())

end Invariant

/-- What a queue offers that goes by what it lists: all that is public, except that a description,
asking for the elements in memory and asking whether they are loaded look behind this, and that
unsetting the owner and replacing the value without a check end it. -/
inductive Ordinary : {α : Type} → Action E α → Prop where
  | length : Ordinary length
  | isEmpty : Ordinary isEmpty
  | contains (e : E) : Ordinary (contains e)
  | containsAll (es : List E) : Ordinary (containsAll es)
  | toList : Ordinary toList
  | snapshot : Ordinary snapshot
  | toJson (encode : E → Json) : Ordinary (toJson encode)
  | peek : Ordinary peek
  | load : Ordinary ensureLoaded
  | loadFromStore : Ordinary loadFromStore
  | initialise : Ordinary initialise
  | updateEmbedded (e : E) (field : FieldOrdinal) (dirty : Bool) :
      Ordinary (updateEmbedded e field dirty)
  | detachCopy (seen : Detachment) : Ordinary (detachCopy seen)
  | attachCopy (target : List E) : Ordinary (attachCopy target)
  | reconcile (attached : List E) : Ordinary (Container.reconcile attached)
  | makeDirty : Ordinary Tracked.makeDirty
  | add (e : E) : Ordinary (add e)
  | addAll (new : List E) : Ordinary (addAll new)
  | poll : Ordinary poll
  | remove (e : E) : Ordinary (remove e)
  | removeWith (e : E) (cascade : Bool) : Ordinary (removeWith e cascade)
  | removeAll (es : List E) : Ordinary (removeAll es)
  | retainAll (keep : List E) : Ordinary (retainAll keep)
  | clear : Ordinary clear

/-- All that a queue offers, as long as only some lists are taken for its value without a check. -/
inductive Admits (takes : List E → Prop) : {α : Type} → Action E α → Prop where
  | ordinary {α : Type} {action : Action E α} (h : Ordinary action) : Admits takes action
  | look {α : Type} (question : TrackedQueue E → α) : Admits takes (look question)
  | unsetOwner : Admits takes (cut Tracked.unsetOwner)
  | initialiseFrom (es : List E) (h : takes es) : Admits takes (initialiseFrom es)
  | initialiseWith (es : List E) (h : takes es) : Admits takes (initialiseWith es)

/-- What survives the parts of calls survives every ordinary call. -/
theorem Invariant.ordinary {good : E → Prop} {P : Scene (TrackedQueue E) E → Prop}
    (h : Invariant good P) {action : Action E α} (haction : Ordinary action) : Keeps P action := by
  cases haction with
  | length => exact h.length
  | isEmpty => exact h.length.bind fun _ => .pure _
  | contains e => exact h.contains e
  | containsAll es => exact h.toList.bind fun _ => .pure _
  | toList => exact h.toList
  | snapshot => exact h.snapshot
  | toJson encode => exact h.snapshot.bind fun _ => .pure _
  | peek => exact h.peek
  | load => exact h.ensureLoaded
  | loadFromStore => exact h.load
  | initialise => exact h.initialise
  | updateEmbedded e field dirty => exact h.updateEmbedded e field dirty
  | detachCopy seen => exact h.detachCopy seen
  | attachCopy target => exact h.attachCopy target
  | reconcile attached => exact h.reconcile attached
  | makeDirty => exact h.makeDirty
  | add e => exact h.add e
  | addAll new => exact h.addAll new
  | poll => exact h.poll
  | remove e => exact h.removeWith e true
  | removeWith e cascade => exact h.removeWith e cascade
  | removeAll es => exact h.removeAll es
  | retainAll keep => exact h.retainAll keep
  | clear => exact h.clear

/-- What survives the parts of calls, and losing the owner, survives everything that a queue offers,
as long as only good elements are taken for its value without a check. -/
theorem Invariant.admits {good : E → Prop} {P : Scene (TrackedQueue E) E → Prop}
    (h : Invariant good P) (hcut : Keeps P (cut Tracked.unsetOwner)) {takes : List E → Prop}
    (htakes : ∀ es, takes es → ∀ e ∈ es, good e) {action : Action E α}
    (haction : Admits takes action) : Keeps P action := by
  cases haction with
  | ordinary haction => exact h.ordinary haction
  | look question => exact fun _ hscene => hscene
  | unsetOwner => exact hcut
  | initialiseFrom es hes => exact h.initialiseFrom (htakes es hes)
  | initialiseWith es hes => exact h.initialiseWith (htakes es hes)

end TrackedQueue

end TrackedFields
