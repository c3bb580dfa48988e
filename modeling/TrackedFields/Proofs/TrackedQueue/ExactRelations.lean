import Mathlib
import TrackedFields.Proofs.TrackedQueue.SameStore
import TrackedFields.Proofs.TrackedQueue.WellKept

/-!
# Which relation changes are exact

What a priority queue holds, as far as anybody outside can tell, is what its store would hold after
a flush. A call that removes elements is told exactly if the owner hears of each copy that leaves
this content, once, and of nothing else. A queue tells what it finds in its memory or in its store
before the flush, and where that is not what is going to leave, it tells too little or too much:
when it is cleared before it has loaded its content, or never loads it; if it does not keep its
content in memory, when changes are queued and memory and store together count an element more often
than it will be there; and if it does, after its value was taken over or replaced without being
written.
-/

namespace TrackedFields.TrackedQueue

variable {E : Type} [DecidableEq E]

/-- A fresh queue of a field whose relations are managed. It makes its changes right away or queues
them, for a reliable store of its own order, and nothing waits. -/
structure Opened (cmp : Comparator E) (o : Owner) (name : StoreName)
    (scene : Scene (TrackedQueue E) E) : Prop where
  owner : scene.value.tracker.owner = some o
  feeds : scene.value.tracker.Feeds name
  order : scene.value.content.order = cmp
  elements : scene.value.content.elements = []
  loaded : scene.value.content.loaded = false
  managed : scene.session.settings.manageRelationships = true
  storeOrder : (scene.session.rules name).order = some cmp
  inOrder : (scene.session.views name).InOrder (scene.session.rules name)
  reliable : (scene.session.store name).Reliable
  pending : scene.session.pending = []

/-- The owner was told that some elements left the relation, and these are the ones by which the
content that is due became less. -/
def TellsRemoved (o : Owner) (name : StoreName) (scene after : Scene (TrackedQueue E) E) : Prop :=
  ∃ gone : List E,
    after.session.changesOf o = scene.session.changesOf o ++ gone.map .removed ∧
      (scene.session.flushed name o.id).Perm (gone ++ after.session.flushed name o.id)

/-- The owner was told that each of the given elements joined the relation, and of nothing else. -/
def TellsAdded (o : Owner) (new : List E) (scene after : Scene (TrackedQueue E) E) : Prop :=
  after.session.changesOf o = scene.session.changesOf o ++ new.map .added

section Elements

variable [Element E]

/-- The elements that pass the check of a field; none if one of them is refused. -/
def admitted (t : Tracker) (new : List E) : List E :=
  if new.any Element.isNull && !t.allowNulls then [] else new

/-- A call tells the owner exactly what changes. -/
def Call.TellsExactly (o : Owner) (name : StoreName) (scene : Scene (TrackedQueue E) E)
    (call : Call E) : Prop :=
  let after := stateAfter call.run scene
  match call with
  | .add e => TellsAdded o (admitted scene.value.tracker [e]) scene after
  | .addAll new => TellsAdded o (admitted scene.value.tracker new) scene after
  | _ => TellsRemoved o name scene after

end Elements

/-- When a call is told exactly. Where changes are made right away, the removal of a head or of one
element is. Else a head is that is due too, or that a queue which keeps its content in memory does
not have, and a removed element that is due if it is a candidate. Several elements are if there are
not more candidates than are due, and everything is if what is due is in memory, loaded or not. -/
def Call.Informed (o : Owner) (name : StoreName) (scene : Scene (TrackedQueue E) E)
    (call : Call E) : Prop :=
  let content := scene.value.content
  let due := scene.session.flushed name o.id
  match call with
  | .poll => scene.value.tracker.isQueued = false ∨ (onceLoaded o name scene).head? = due.head? ∨
      content.useCache = true ∧ onceLoaded o name scene = []
  | .remove e | .removeWith e _ =>
    scene.value.tracker.isQueued = false ∨ (e ∈ candidates o name scene → e ∈ due)
  | .removeAll doomed => ∀ e ∈ doomed, (candidates o name scene).count e ≤ due.count e
  | .retainAll keep => ∀ e ∉ keep, (candidates o name scene).count e ≤ due.count e
  | .clear => content.elements.Perm due
  | _ => True

section Exactness

variable {cmp : Comparator E} {o : Owner} {name : StoreName} {kinds : List (OperationKind E)}
  {remaining copies : List E} {scene mid after : Scene (TrackedQueue E) E}

/-- A fresh queue is well kept. -/
theorem Opened.wellKept (h : Opened cmp o name scene) : WellKept cmp o name scene := by
  refine ⟨⟨h.owner, h.order, h.managed, h.storeOrder, h.reliable, h.inOrder.fits o.id, ?_, ?_⟩,
    fun _ _ => h.elements, fun huse => ?_⟩
  · rw [h.pending]
    exact nofun
  · refine h.feeds.imp (⟨·, h.pending⟩) (⟨·, h.inOrder, h.reliable, ?_⟩)
    rw [h.pending]
    exact nofun
  · rw [h.pending, onceLoaded, huse, h.loaded]
    rfl

/-! ### Counting -/

omit [DecidableEq E] in
/-- A head together with the rest is the whole list if and only if it is the head. -/
theorem perm_head_tail_iff (head : Option E) (es : List E) :
    es.Perm (head.toList ++ es.tail) ↔ head = es.head? := by
  cases es with
  | nil => cases head <;> simp
  | cons e es =>
    cases head with
    | none =>
      refine iff_of_false (fun hperm => ?_) (by simp)
      simpa using hperm.length_eq
    | some a =>
      change (e :: es).Perm ([a] ++ es) ↔ _
      rw [← List.singleton_append, List.perm_append_right_iff]
      simp [eq_comm]

/-- Copies together with what is left without them are the whole list if and only if none of them is
surplus. -/
theorem perm_foldl_erase_iff (copies es : List E) :
    es.Perm (copies ++ copies.foldl List.erase es) ↔ ∀ e ∈ copies, copies.count e ≤ es.count e := by
  constructor
  · intro hperm e _
    rw [hperm.count_eq, List.count_append]
    exact Nat.le_add_right _ _
  · intro hcount
    rw [← List.diff_eq_foldl]
    exact (List.subperm_append_diff_self_of_count_le hcount).symm

/-- A call is told exactly if the copies that it reports are those that its operations take out of
the content that is due. -/
theorem Passes.tellsRemoved_iff (copies : List E)
    (hpasses : Passes o name (copies.map .removed) kinds remaining scene after)
    (h : Supplied cmp o name scene) (hafter : Supplied cmp o name after)
    (hempty : OperationKind.carryOutFar (scene.session.rules name) [] kinds = []) :
    TellsRemoved o name scene after ↔
      (scene.session.flushed name o.id).Perm (copies ++ OperationKind.carryOutFar
        (scene.session.rules name) (scene.session.flushed name o.id) kinds) := by
  have htold := hpasses.sends.told h.managed
  unfold TellsRemoved
  rw [hpasses.flushed h hafter hempty, htold]
  constructor
  · rintro ⟨gone, hgone, hperm⟩
    have hsame := congrArg RelationChange.leaving (List.append_cancel_left hgone)
    rw [RelationChange.leaving_map_removed, RelationChange.leaving_map_removed] at hsame
    rwa [hsame]
  · exact fun hperm => ⟨copies, rfl, hperm⟩

/-- Taking out the head of a container that fits leaves the rest. -/
theorem carryOutFar_head {rules : Store.Rules E} {es : List E} (hfits : rules.Fits es) :
    OperationKind.carryOutFar rules es [.listRemoveAt 0] = es.tail := by
  cases es with
  | nil => rfl
  | cons e es =>
    exact OperationKind.carryOutFar_of_some
      (OperationKind.carryOutAll_kept hfits rfl (List.sublist_cons_self e es) [])

/-- Taking out elements of a container that fits takes them out one by one. -/
theorem carryOutFar_removed {rules : Store.Rules E} {es : List E} (hfits : rules.Fits es)
    (gone : List E) (cascade : Bool) :
    OperationKind.carryOutFar rules es (gone.map (.collectionRemove · cascade)) =
      gone.foldl List.erase es :=
  OperationKind.carryOutFar_of_some (OperationKind.carryOutAll_removed hfits gone cascade)

/-- Of an empty container, nothing is taken out. -/
theorem carryOutFar_removed_nil (rules : Store.Rules E) (gone : List E) (cascade : Bool) :
    OperationKind.carryOutFar rules [] (gone.map (.collectionRemove · cascade)) = [] := by
  have hfits : rules.Fits [] := fun _ _ => .nil
  rw [carryOutFar_removed hfits]
  exact List.eq_nil_of_sublist_nil (OperationKind.foldl_erase_sublist gone [])

/-! ### Removing -/

section Removing

variable [Std.TransCmp cmp]

/-- The removal of the head is told exactly if the queue makes its changes right away, takes the
head that is due, or knows that it has none and leaves the store alone. -/
theorem Supplied.tellsRemoved_poll_iff (h : Supplied cmp o name scene) :
    TellsRemoved o name scene (stateAfter TrackedQueue.poll scene) ↔
      scene.value.tracker.isQueued = false ∨
        (onceLoaded o name scene).head? = (scene.session.flushed name o.id).head? ∨
        scene.value.content.useCache = true ∧ onceLoaded o name scene = [] := by
  have hempty : OperationKind.carryOutFar (scene.session.rules name) []
      (headRemoval o name scene) = [] := by
    unfold headRemoval
    split <;> rfl
  rw [h.passes_poll.tellsRemoved_iff _ h (supplies_poll scene h) hempty]
  cases hqueued : scene.value.tracker.isQueued with
  | false =>
    refine iff_of_true ?_ (.inl rfl)
    have hdue := h.flushed_of_not_isQueued hqueued
    unfold headRemoval headReported
    rw [hqueued, ← hdue]
    cases hes : scene.session.flushed name o.id with
    | nil => exact .refl _
    | cons e es =>
      have hfits := h.fits_flushed
      rw [hes] at hfits
      simp [carryOutFar_head hfits]
  | true =>
    unfold headRemoval headReported
    rw [hqueued]
    by_cases hnone : scene.value.content.useCache = true ∧ onceLoaded o name scene = []
    · obtain ⟨huse, hes⟩ := hnone
      refine iff_of_true ?_ (.inr (.inr ⟨huse, hes⟩))
      rw [huse, hes]
      exact .refl _
    · have hremoves : ((onceLoaded o name scene).head?.isSome ||
          (true && !scene.value.content.useCache)) = true := by
        cases huse : scene.value.content.useCache with
        | false => simp
        | true =>
          have hsome : onceLoaded o name scene ≠ [] := fun hes => hnone ⟨huse, hes⟩
          simpa [List.isSome_head?] using hsome
      rw [if_pos rfl, if_pos hremoves, carryOutFar_head h.fits_flushed, perm_head_tail_iff]
      simp [hnone]

/-- The removal of an element by value is told exactly if the queue makes its changes right away, or
the element is due or no candidate. -/
theorem Supplied.tellsRemoved_removeWith_iff (h : Supplied cmp o name scene) (e : E)
    (cascade : Bool) :
    TellsRemoved o name scene (stateAfter (TrackedQueue.removeWith e cascade) scene) ↔
      scene.value.tracker.isQueued = false ∨
        (e ∈ candidates o name scene → e ∈ scene.session.flushed name o.id) := by
  have hpasses := h.passes_removeWith e cascade
  have hafter := supplies_removeWith e cascade scene h
  have hempty := carryOutFar_removed_nil (scene.session.rules name) [e] cascade
  have hgone := carryOutFar_removed h.fits_flushed [e] cascade
  cases hqueued : scene.value.tracker.isQueued with
  | false =>
    -- What is looked for in the store is what is due.
    refine iff_of_true ?_ (.inl rfl)
    have hfinds : finds o name scene e = (scene.session.flushed name o.id).contains e := by
      rw [finds, hqueued, h.flushed_of_not_isQueued hqueued]
      rfl
    rw [hqueued, hfinds, Bool.false_and, if_neg Bool.false_ne_true] at hpasses
    by_cases hmem : e ∈ scene.session.flushed name o.id
    · rw [if_pos (List.contains_iff_mem.mpr hmem)] at hpasses
      refine (Passes.tellsRemoved_iff [e] hpasses h hafter hempty).mpr ?_
      exact hgone ▸ List.perm_cons_erase hmem
    · rw [if_neg (mt List.contains_iff_mem.mp hmem)] at hpasses
      refine (Passes.tellsRemoved_iff [] hpasses h hafter hempty).mpr ?_
      exact .of_eq (hgone.trans (List.erase_of_not_mem hmem)).symm
  | true =>
    -- A candidate that the flushed store would not hold is told as removed all the same.
    have hfinds : finds o name scene e = (candidates o name scene).contains e := by
      rw [finds, hqueued]
      rfl
    rw [hqueued, hfinds, Bool.true_and] at hpasses
    by_cases hmem : e ∈ candidates o name scene
    · have hfound := List.contains_iff_mem.mpr hmem
      rw [hfound, if_pos rfl, Bool.not_true, if_neg Bool.false_ne_true] at hpasses
      rw [Passes.tellsRemoved_iff [e] hpasses h hafter hempty]
      refine (iff_of_eq (congrArg _ (congrArg ([e] ++ ·) hgone))).trans ?_
      rw [perm_foldl_erase_iff]
      simp [hmem, List.one_le_count_iff]
    · have hfound : (candidates o name scene).contains e = false := by simpa using hmem
      rw [hfound, if_neg Bool.false_ne_true, Bool.not_false, if_pos rfl] at hpasses
      refine iff_of_true ?_ (.inr fun hin => absurd hin hmem)
      exact (Passes.tellsRemoved_iff [] hpasses h hafter rfl).mpr (.refl _)

/-- The removal of all candidates that satisfy a condition is told exactly if there are not more of
them than are due. -/
private theorem Supplied.tellsRemoved_weeded_iff (h : Supplied cmp o name scene) (doomed : E → Bool)
    (hpasses : Passes o name (((candidates o name scene).filter doomed).map .removed)
      (((candidates o name scene).filter doomed).map (.collectionRemove · true)) remaining scene
      after) (hafter : Supplied cmp o name after) :
    TellsRemoved o name scene after ↔ ∀ e, doomed e = true →
      (candidates o name scene).count e ≤ (scene.session.flushed name o.id).count e := by
  rw [hpasses.tellsRemoved_iff _ h hafter (carryOutFar_removed_nil _ _ true),
    carryOutFar_removed h.fits_flushed, perm_foldl_erase_iff]
  constructor
  · intro hcount e he
    by_cases hmem : e ∈ candidates o name scene
    · have hle := hcount e (List.mem_filter.mpr ⟨hmem, he⟩)
      rwa [List.count_filter he] at hle
    · rw [List.count_eq_zero_of_not_mem hmem]
      exact Nat.zero_le _
  · intro hcount e hmem
    have he := (List.mem_filter.mp hmem).2
    rw [List.count_filter he]
    exact hcount e he

/-- The removal of listed elements is told exactly if there are not more candidates than are due. -/
theorem Supplied.tellsRemoved_removeAll_iff (h : Supplied cmp o name scene) (doomed : List E) :
    TellsRemoved o name scene (stateAfter (TrackedQueue.removeAll doomed) scene) ↔
      ∀ e ∈ doomed, (candidates o name scene).count e ≤
        (scene.session.flushed name o.id).count e := by
  unfold TrackedQueue.removeAll
  split
  · next hempty =>
    rw [List.isEmpty_iff.mp hempty]
    exact iff_of_true ⟨[], (List.append_nil _).symm, .refl _⟩
      fun _ hmem => absurd hmem List.not_mem_nil
  · rw [h.tellsRemoved_weeded_iff doomed.contains (h.passes_removeListed doomed)
      (supplies_removeListed doomed scene h)]
    simp only [List.contains_iff_mem]

/-- Keeping listed elements is told exactly if there are not more candidates for removal than are
due. -/
theorem Supplied.tellsRemoved_retainAll_iff (h : Supplied cmp o name scene) (keep : List E) :
    TellsRemoved o name scene (stateAfter (TrackedQueue.retainAll keep) scene) ↔
      ∀ e ∉ keep, (candidates o name scene).count e ≤
        (scene.session.flushed name o.id).count e := by
  rw [h.tellsRemoved_weeded_iff (fun e => !keep.contains e) (h.passes_retainAll keep)
    (supplies_retainAll keep scene h)]
  simp

/-- Removing everything is told exactly if the elements in memory are those that are due. -/
theorem Supplied.tellsRemoved_clear_iff (h : Supplied cmp o name scene) :
    TellsRemoved o name scene (stateAfter TrackedQueue.clear scene) ↔
      scene.value.content.elements.Perm (scene.session.flushed name o.id) := by
  have hcleared (es : List E) (hfits : (scene.session.rules name).Fits es) :
      OperationKind.carryOutFar (scene.session.rules name) es [.collectionClear] = [] :=
    OperationKind.carryOutFar_of_some
      (OperationKind.carryOutAll_kept hfits rfl (List.nil_sublist es) [])
  rw [h.passes_clear.tellsRemoved_iff _ h (supplies_clear scene h) (hcleared [] fun _ _ => .nil),
    hcleared _ h.fits_flushed, List.append_nil]
  exact List.perm_comm

end Removing

/-! ### Adding -/

section Adding

variable [Std.TransCmp cmp]

/-- Adding elements without a check is told, whatever becomes of the store. -/
private theorem Supplied.tellsAdded (h : Supplied cmp o name scene) (operation : String)
    (store : ObjectId → Option Nat → StoreAction E Bool) (new : List E) :
    TellsAdded o new scene (stateAfter (TrackedQueue.addUnchecked operation store new) scene) := by
  obtain ⟨mid, hmid⟩ := h.exists_loaded
  have htold := hmid.passes.sends.told h.managed
  rw [List.append_nil] at htold
  rw [hmid.same (loadsFirst_addUnchecked operation store new), TellsAdded, ← htold]
  have hprepared := hmid.prepared
  have howner := hmid.supplied.owner
  have hmanaged := hmid.supplied.managed
  clear hmid htold
  obtain ⟨⟨t, content⟩, s⟩ := mid
  dsimp only at howner hmanaged ⊢
  rw [stateAfter_addUnchecked hprepared]
  have hheard := t.heard_forward s operation (store · (hint ⟨t, content⟩)) o.id
  have hhearing := t.hearing_forward s operation (store · (hint ⟨t, content⟩)) o.id
  generalize (t.forward operation (store · (hint ⟨t, content⟩)) s).2 = called at hheard hhearing ⊢
  have hcalled : called.changesOf o = s.changesOf o ++ [] := Session.changesOf_of_heard hmanaged
    (hheard.trans (Hearing.append_news_nil _ _ _).symm)
  have hnews := ((Session.Sends.announce howner name (.added new) called).trans
    (.changed howner name _)).told ((congrArg Hearing.managed hhearing).trans hmanaged)
  rw [List.append_nil] at hcalled hnews
  rw [← hcalled]
  exact hnews

variable [Element E]

omit [DecidableEq E] [Std.TransCmp cmp] in
private theorem tellsAdded_checked (new : List E)
    {next : Action E Bool} (hnext : TellsAdded o new scene (stateAfter next scene)) :
    TellsAdded o (admitted scene.value.tracker new) scene (stateAfter (do
      Tracked.require ((← Tracked.tracker?).checkAll new)
      next) scene) := by
  rw [stateAfter_checked, admitted]
  split
  · exact (List.append_nil _).symm
  · exact hnext

/-- An addition is always told exactly. -/
theorem Supplied.tellsAdded_add (h : Supplied cmp o name scene) (e : E) :
    TellsAdded o (admitted scene.value.tracker [e]) scene
      (stateAfter (TrackedQueue.add e) scene) := by
  unfold TrackedQueue.add
  simp only [Tracker.check_eq_checkAll]
  exact tellsAdded_checked [e] (h.tellsAdded "add" (Store.add · e ·) [e])

/-- An addition of several elements is always told exactly. -/
theorem Supplied.tellsAdded_addAll (h : Supplied cmp o name scene) (new : List E) :
    TellsAdded o (admitted scene.value.tracker new) scene
      (stateAfter (TrackedQueue.addAll new) scene) := by
  apply tellsAdded_checked new
  split
  · next hempty =>
    rw [List.isEmpty_iff.mp hempty]
    exact (List.append_nil _).symm
  · exact h.tellsAdded "add-all" (Store.addAll · new ·) new

end Adding

/-! ### All calls -/

/-- A call that adds or removes elements is told exactly if and only if the queue is informed. -/
theorem Supplied.tellsExactly_iff [Element E] [Std.TransCmp cmp] (h : Supplied cmp o name scene)
    (call : Call E) (hcall : call.Edits ∨ call = .poll) :
    call.TellsExactly o name scene ↔ call.Informed o name scene := by
  cases call with
  | load => simp [Call.Edits] at hcall
  | add e =>
    simp only [Call.TellsExactly, Call.run, stateAfter_discard]
    exact iff_of_true (h.tellsAdded_add e) trivial
  | addAll new =>
    simp only [Call.TellsExactly, Call.run, stateAfter_discard]
    exact iff_of_true (h.tellsAdded_addAll new) trivial
  | poll =>
    simp only [Call.TellsExactly, Call.run, stateAfter_discard]
    exact h.tellsRemoved_poll_iff
  | remove e =>
    simp only [Call.TellsExactly, Call.run, stateAfter_discard]
    exact h.tellsRemoved_removeWith_iff e true
  | removeWith e cascade =>
    simp only [Call.TellsExactly, Call.run, stateAfter_discard]
    exact h.tellsRemoved_removeWith_iff e cascade
  | removeAll doomed =>
    simp only [Call.TellsExactly, Call.run, stateAfter_discard]
    exact h.tellsRemoved_removeAll_iff doomed
  | retainAll keep =>
    simp only [Call.TellsExactly, Call.run, stateAfter_discard]
    exact h.tellsRemoved_retainAll_iff keep
  | clear => exact h.tellsRemoved_clear_iff
  | attachCopy target => simp [Call.Edits] at hcall
  | initialiseWith new => simp [Call.Edits] at hcall

/-- A well-kept queue that keeps its content in memory is informed, unless it is cleared before it
is loaded while something is due. -/
theorem WellKept.informed (h : WellKept cmp o name scene)
    (huse : scene.value.content.useCache = true) (call : Call E)
    (hclear : call = .clear →
      scene.value.content.loaded = true ∨ scene.session.flushed name o.id = []) :
    call.Informed o name scene := by
  have honce := h.onceLoaded_eq huse
  have hcandidates : candidates o name scene = scene.session.flushed name o.id :=
    (if_pos huse).trans honce
  cases call with
  | poll => exact .inr (.inl (congrArg List.head? honce))
  | remove e => exact .inr fun hmem => hcandidates ▸ hmem
  | removeWith e cascade => exact .inr fun hmem => hcandidates ▸ hmem
  | removeAll doomed => exact fun e _ => le_of_eq (congrArg (List.count e) hcandidates)
  | retainAll keep => exact fun e _ => le_of_eq (congrArg (List.count e) hcandidates)
  | clear =>
    change scene.value.content.elements.Perm (scene.session.flushed name o.id)
    cases hloaded : scene.value.content.loaded with
    | true =>
      rw [onceLoaded, hloaded, Bool.not_true, Bool.and_false] at honce
      exact .of_eq honce
    | false =>
      rw [h.fresh huse hloaded, (hclear rfl).resolve_left (Bool.eq_false_iff.mp hloaded)]
  | load | add _ | addAll _ | attachCopy _ | initialiseWith _ => trivial

end Exactness

/-- When relations are told exactly. Let a priority queue have a reliable store of its own order,
whether it keeps its content in memory or not, and whether it makes its changes right away or queues
them. After any run of what it offers, of flushes and of changes around it, a call that adds or
removes elements is told exactly if and only if the queue is informed. If it keeps its content in
memory and its value is replaced only where the replacement is written, every such call is, unless
the queue is cleared before it is loaded while something is due. -/
theorem told_exactly_iff_informed [Element E] (cmp : Comparator E) [Std.TransCmp cmp] (o : Owner)
    (name : StoreName) (start : Scene (TrackedQueue E) E) (hstart : Opened cmp o name start) :
    (∀ scene, Relation.ReflTransGen (UseStep name) start scene →
      ∀ call : Call E, call.Edits ∨ call = .poll →
        (call.TellsExactly o name scene ↔ call.Informed o name scene)) ∧
    ∀ scene, Relation.ReflTransGen (CareStep o name) start scene →
      scene.value.content.useCache = true → ∀ call : Call E, call.Edits ∨ call = .poll →
        (call = .clear →
          scene.value.content.loaded = true ∨ scene.session.flushed name o.id = []) →
        call.TellsExactly o name scene := by
  refine ⟨fun scene hrun call hcall => ?_, fun scene hrun huse call hcall hclear => ?_⟩
  · exact (supplied_run hstart.wellKept.toSupplied hrun).tellsExactly_iff call hcall
  · have hkept := wellKept_run hstart.wellKept hrun
    exact (hkept.toSupplied.tellsExactly_iff call hcall).mpr (hkept.informed huse call hclear)

/-- A queue that queues its changes tells exactly of all copies of two elements, one of which was
stored and one added, whether it keeps its content in memory or not. -/
theorem told_exactly_of_right_guess :
    let cmp : Comparator Int32 := compareOn Int32.toInt
    let o : Owner := { id := .ofNat 7, descriptor := { name := "scores", ordinal := ⟨2⟩ } }
    let start (useCache : Bool) : Scene (TrackedQueue Int32) Int32 := {
      value := {
        tracker := { owner := some o, dispatch := .queued (some "scores"), allowNulls := false }
        content := { order := cmp, useCache, lazily := true } }
      session := {
        entities := Table.empty.set o.id { typeName := "Game" }
        stores := Table.empty.set "scores" (Store.seed { order := some cmp } o.id [1, 2, 2]) } }
    let scene (useCache : Bool) := stateAfter (add 3) (start useCache)
    (∀ useCache, Opened cmp o "scores" (start useCache)) ∧
      Relation.ReflTransGen (UseStep "scores") (start false) (scene false) ∧
      Relation.ReflTransGen (CareStep o "scores") (start true) (scene true) ∧
      ∀ useCache, (scene useCache).session.flushed "scores" o.id = [1, 2, 2, 3] ∧
        Call.TellsExactly o "scores" (scene useCache) (.removeAll [2, 3]) := by
  intro cmp o start scene
  have hstart (useCache : Bool) : Opened cmp o "scores" (start useCache) :=
    ⟨rfl, .inr rfl, rfl, rfl, rfl, rfl, rfl, Store.inOrder_seed_new cmp false o.id [1, 2, 2],
      ⟨rfl, rfl⟩, rfl⟩
  have hrun : Relation.ReflTransGen (UseStep "scores") (start false) (scene false) :=
    .single (.offered (.add 3) (by cbv))
  have hcare : Relation.ReflTransGen (CareStep o "scores") (start true) (scene true) :=
    .single (.call (.add 3) trivial (by cbv))
  have hdue (useCache : Bool) : (scene useCache).session.flushed "scores" o.id = [1, 2, 2, 3] := by
    cases useCache <;> cbv
  refine ⟨hstart, hrun, hcare, fun useCache => ⟨hdue useCache, ?_⟩⟩
  cases useCache with
  | true =>
    refine (told_exactly_iff_informed cmp o "scores" (start true) (hstart true)).2 (scene true)
      hcare rfl (.removeAll [2, 3]) (.inl trivial) fun hclear => ?_
    cases hclear
  | false =>
    apply ((told_exactly_iff_informed cmp o "scores" (start false) (hstart false)).1 (scene false)
      hrun (.removeAll [2, 3]) (.inl trivial)).mpr
    have hcandidates : candidates o "scores" (scene false) = [1, 2, 2, 3] := by cbv
    intro e _
    rw [hcandidates, hdue]

/-- A queue that keeps its content in memory and is cleared before it has loaded it tells nothing of
what leaves the store. One that queues its changes and does not keep its content in memory tells
nothing of a stored head, and tells twice of one copy that is removed twice. -/
theorem told_wrongly_of_wrong_guess :
    let cmp : Comparator Int32 := compareOn Int32.toInt
    let o : Owner := { id := .ofNat 7, descriptor := { name := "scores", ordinal := ⟨2⟩ } }
    let queue (dispatch : Dispatch) (useCache : Bool) : Scene (TrackedQueue Int32) Int32 := {
      value := {
        tracker := { owner := some o, dispatch, allowNulls := false }
        content := { order := cmp, useCache, lazily := true } }
      session := {
        entities := Table.empty.set o.id { typeName := "Game" }
        stores := Table.empty.set "scores" (Store.seed { order := some cmp } o.id [1, 2]) } }
    let cached := queue (.immediate "scores") true
    let uncached := queue (.queued (some "scores")) false
    let once := stateAfter (remove 1) uncached
    (Opened cmp o "scores" cached ∧ ¬ Call.TellsExactly o "scores" cached .clear) ∧
      (Opened cmp o "scores" uncached ∧ ¬ Call.TellsExactly o "scores" uncached .poll) ∧
      Relation.ReflTransGen (UseStep "scores") uncached once ∧
      ¬ Call.TellsExactly o "scores" once (.remove 1) := by
  intro cmp o queue cached uncached once
  have hopened (dispatch : Dispatch) (useCache : Bool)
      (hfeeds : (queue dispatch useCache).value.tracker.Feeds "scores") :
      Opened cmp o "scores" (queue dispatch useCache) :=
    ⟨rfl, hfeeds, rfl, rfl, rfl, rfl, rfl, Store.inOrder_seed_new cmp false o.id [1, 2],
      ⟨rfl, rfl⟩, rfl⟩
  have hcached := hopened (.immediate "scores") true (.inl rfl)
  have huncached := hopened (.queued (some "scores")) false (.inr rfl)
  have hrun : Relation.ReflTransGen (UseStep "scores") uncached once :=
    .single (.offered (.remove 1) (by cbv))
  refine ⟨⟨hcached, ?_⟩, ⟨huncached, ?_⟩, hrun, ?_⟩
  · rw [hcached.wellKept.toSupplied.tellsExactly_iff .clear (.inl trivial)]
    intro hperm
    have hdue : cached.session.flushed "scores" o.id = [1, 2] := by cbv
    exact absurd (hdue ▸ hperm.length_eq) (by decide)
  · rw [huncached.wellKept.toSupplied.tellsExactly_iff .poll (.inr rfl)]
    have hdue : uncached.session.flushed "scores" o.id = [1, 2] := by cbv
    rintro (hqueued | hhead | ⟨huse, -⟩)
    · cases hqueued
    · rw [hdue] at hhead
      cases hhead
    · cases huse
  · have hsupplied := supplied_run huncached.wellKept.toSupplied hrun
    rw [hsupplied.tellsExactly_iff (.remove 1) (.inl trivial)]
    have hdue : once.session.flushed "scores" o.id = [2] := by cbv
    have hcandidates : candidates o "scores" once = [1, 2] := by cbv
    rintro (hqueued | hguess)
    · cases hqueued
    · rw [hdue, hcandidates] at hguess
      exact absurd (hguess (by decide)) (by decide)

end TrackedFields.TrackedQueue
