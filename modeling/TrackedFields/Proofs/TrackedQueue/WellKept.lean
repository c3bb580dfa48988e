import TrackedFields.Proofs.TrackedQueue.StaysSupplied

/-!
# Queues that know their content

A priority queue that keeps its content in memory holds what its store would hold after a flush,
once it has loaded it, and stays so as long as its value is replaced only when the replacement is
written to the store as well.
-/

namespace TrackedFields.TrackedQueue

variable {E α : Type} [DecidableEq E]

/-- A supplied queue that, if it keeps its content in memory, has nothing there before it is loaded,
and then what the waiting operations make of what the store holds. -/
structure WellKept (cmp : Comparator E) (o : Owner) (name : StoreName)
    (scene : Scene (TrackedQueue E) E) : Prop extends Supplied cmp o name scene where
  fresh : scene.value.content.useCache = true → scene.value.content.loaded = false →
    scene.value.content.elements = []
  level : scene.value.content.useCache = true →
    OperationKind.carryOutAll (scene.session.rules name) (held o name scene)
      (scene.session.pending.map Operation.kind) = some (onceLoaded o name scene)

variable {cmp : Comparator E} {o : Owner} {name : StoreName}
  {relations : List (RelationChange E)} {kinds : List (OperationKind E)} {remaining : List E}
  {scene after : Scene (TrackedQueue E) E}

/-- What is in memory, once it is loaded, is what the store would hold after a flush. -/
theorem WellKept.onceLoaded_eq (h : WellKept cmp o name scene)
    (huse : scene.value.content.useCache = true) :
    onceLoaded o name scene = scene.session.flushed name o.id := by
  rw [h.flushed_eq]
  exact (OperationKind.carryOutFar_of_some (h.level huse)).symm

/-- What is in memory, once it is loaded, fits into the store. -/
theorem WellKept.fits_onceLoaded [Std.TransCmp cmp] (h : WellKept cmp o name scene)
    (huse : scene.value.content.useCache = true) :
    (scene.session.rules name).Fits (onceLoaded o name scene) := by
  rw [h.onceLoaded_eq huse]
  exact h.fits_flushed

/-- A queue stays well kept if what it passes on makes of the elements that it loads what remains in
its memory. -/
theorem Passes.wellKept [Std.TransCmp cmp]
    (hpasses : Passes o name relations kinds remaining scene after) (h : WellKept cmp o name scene)
    (hheads : ∀ kind ∈ kinds, kind.FromHead)
    (hmade : scene.value.content.useCache = true →
      OperationKind.carryOutAll (scene.session.rules name) (onceLoaded o name scene) kinds =
        some remaining) : WellKept cmp o name after := by
  have huse := hpasses.useCache
  have hrules : after.session.rules name = scene.session.rules name :=
    hpasses.sends.continues.rules
  refine ⟨hpasses.supplied h.toSupplied hheads, fun huse' hnot => ?_, fun huse' => ?_⟩
  · rw [hpasses.loaded (huse ▸ huse')] at hnot
    cases hnot
  · have honce : onceLoaded o name after = remaining := by
      rw [onceLoaded, hpasses.loaded (huse ▸ huse'), Bool.not_true, Bool.and_false]
      exact hpasses.elements
    have hall : OperationKind.carryOutAll (scene.session.rules name) (held o name scene)
        (scene.session.pending.map Operation.kind ++ kinds) = some remaining := by
      rw [OperationKind.carryOutAll_append, h.level (huse ▸ huse')]
      exact hmade (huse ▸ huse')
    rw [hrules, honce]
    rcases h.way with ⟨hname, hpending⟩ | ⟨hname, -⟩
    · obtain ⟨hkept, hcarried⟩ := hpasses.sends.made hname
      rw [hpending, List.map_nil, List.nil_append] at hall
      rw [hkept, hpending]
      exact hcarried.symm.trans hall
    · obtain ⟨hqueued, hview⟩ := hpasses.sends.queued hname
      have hheld : held o name after = held o name scene :=
        congrFun (congrArg Store.View.contents hview) o.id
      rw [hheld, hqueued, List.map_append, Tracker.map_kind_queued h.owner hname]
      exact hall

/-! ### What happens around a queue -/

/-- Whatever shows in neither queue nor store does not matter. -/
theorem WellKept.of_calm (h : WellKept cmp o name scene) {s : Session E}
    (hcalm : Session.Calm name scene.session s) :
    WellKept cmp o name { scene with session := s } := by
  have hheld : held o name { scene with session := s } = held o name scene :=
    hcalm.contents_eq o.id
  refine ⟨h.toSupplied.of_calm hcalm, h.fresh, fun huse => ?_⟩
  rw [onceLoaded, hcalm.rules, hcalm.pending, hheld]
  exact h.level huse

/-- A flush keeps a queue well kept, wherever it stops. -/
theorem WellKept.flush [Std.TransCmp cmp] (h : WellKept cmp o name scene)
    (default : Option StoreName) :
    WellKept cmp o name
      { scene with session := stateAfter (Session.flush default) scene.session } := by
  refine ⟨h.toSupplied.flush default, h.fresh, fun huse => ?_⟩
  have hlevel := h.level huse
  rcases h.way with ⟨-, hpending⟩ | ⟨-, hdedicated⟩
  · rw [Session.stateAfter_flush_of_nil hpending]
    exact hlevel
  · have hflushed := hdedicated.flushed default
    generalize stateAfter (Session.flush default) scene.session = s at hflushed ⊢
    have hnil : s.pending = [] := hflushed.passes _ hlevel
    -- Nothing waits any more, and what was loaded or will be is what the store holds.
    have hheld : held o name { scene with session := s } = onceLoaded o name scene :=
      hflushed.contents.trans (OperationKind.carryOutFar_of_some hlevel)
    rw [hnil]
    change some (held o name { scene with session := s }) = _
    refine congrArg some ?_
    unfold onceLoaded at hheld ⊢
    split
    · rfl
    · next hloaded => rwa [if_neg hloaded] at hheld

/-! ### Calls -/

section Calls

variable [Std.TransCmp cmp]

/-- Once loaded, a queue holds what its store holds. -/
theorem keepsWell_ensureLoaded : Keeps (WellKept cmp o name) (ensureLoaded (E := E)) := by
  intro scene h
  obtain ⟨after, hload, -, hpasses⟩ := h.exists_prepared
  rw [stateAfter_of_ok hload]
  exact hpasses.wellKept h nofun fun _ => rfl

/-- Listing the elements may load them. -/
theorem keepsWell_toList : Keeps (WellKept cmp o name) (toList (E := E)) := by
  refine keepsWell_ensureLoaded.bind fun _ => Keeps.content?.bind fun content => fun scene h => ?_
  obtain ⟨s, hafter, hcalm⟩ := h.exists_calm_readEither (!content.useCache) QueueContent.elements
    silent_elements
  rw [hafter]
  exact h.of_calm hcalm

/-- The head that is removed is the head of memory and store alike. -/
theorem keepsWell_poll : Keeps (WellKept cmp o name) (poll (E := E)) := by
  refine fun scene h => h.passes_poll.wellKept h (fromHead_headRemoval o name scene) fun huse => ?_
  have hreported : headReported o name scene = (onceLoaded o name scene).head? := by
    unfold headReported
    split
    · rfl
    · next hqueued =>
      rw [h.onceLoaded_eq huse, h.flushed_of_not_isQueued (Bool.eq_false_iff.mpr hqueued)]
  have hfits := h.fits_onceLoaded huse
  rw [headRemoval, hreported, huse, Bool.not_true, Bool.and_false, Bool.or_false]
  cases hes : onceLoaded o name scene with
  | nil => rfl
  | cons e es =>
    rw [hes] at hfits
    exact OperationKind.carryOutAll_kept hfits rfl (List.sublist_cons_self e es) []

/-- An element leaves memory and store alike. -/
theorem keepsWell_removeWith (e : E) (cascade : Bool) :
    Keeps (WellKept cmp o name) (removeWith e cascade) := by
  refine fun scene h => (h.passes_removeWith e cascade).wellKept h (fromHead_removal _ e cascade)
    fun huse => ?_
  split
  · next hnone =>
    -- Nothing is queued: the element is not in memory, and so nowhere.
    obtain ⟨hqueued, hfound⟩ := Bool.and_eq_true_iff.mp hnone
    have habsent : e ∉ onceLoaded o name scene := by
      simpa [finds, candidates, hqueued, huse] using hfound
    rw [List.erase_of_not_mem habsent]
    rfl
  · exact OperationKind.carryOutAll_removed (h.fits_onceLoaded huse) [e] cascade

/-- Listed elements leave memory and store alike. -/
theorem keepsWell_removeAll (doomed : List E) :
    Keeps (WellKept cmp o name) (removeAll doomed) := by
  refine (Keeps.pure false).ite fun scene h => (h.passes_removeListed doomed).wellKept h
    (OperationKind.fromHead_map (.collectionRemove · true) (fun _ => trivial) _) fun huse => ?_
  rw [candidates, if_pos huse, OperationKind.carryOutAll_removed (h.fits_onceLoaded huse),
    OperationKind.foldl_erase_filter]

/-- The elements that are not kept leave memory and store alike. -/
theorem keepsWell_retainAll (keep : List E) : Keeps (WellKept cmp o name) (retainAll keep) := by
  refine fun scene h => (h.passes_retainAll keep).wellKept h
    (OperationKind.fromHead_map (.collectionRemove · true) (fun _ => trivial) _) fun huse => ?_
  rw [candidates, if_pos huse, OperationKind.carryOutAll_removed (h.fits_onceLoaded huse),
    OperationKind.foldl_erase_filter]
  congr 1
  exact List.filter_congr fun e he => by rw [contains_filter_of_mem _ he]

/-- An emptied queue is well kept. -/
theorem keepsWell_clear : Keeps (WellKept cmp o name) (clear (E := E)) := by
  refine fun scene h => h.passes_clear.wellKept h (fun kind hkind => ?_) fun huse =>
    OperationKind.carryOutAll_kept (h.fits_onceLoaded huse) rfl (List.nil_sublist _) []
  rw [List.mem_singleton.mp hkind]
  exact .inl trivial

/-- Replacing the value of an owner that has reached the datastore keeps a queue well kept. -/
theorem WellKept.initialiseWith (h : WellKept cmp o name scene)
    (hreached : scene.session.Reached o.id) {new : List E}
    (hcount : new.length ≤ Word.sizeLimit) :
    WellKept cmp o name (stateAfter (TrackedQueue.initialiseWith new) scene) := by
  have hpasses := h.passes_initialiseWith hcount
    (replacementReachesStore_of_reached h.channel hreached)
  refine hpasses.wellKept h (fromHead_replacing new) fun huse => ?_
  rw [replacing, OperationKind.carryOutAll_kept (h.fits_onceLoaded huse) rfl (List.nil_sublist _),
    OperationKind.carryOutAll_inserted h.storeOrder .nil, cmp.insertAll_nil]

/-- Adding elements without a check keeps a queue well kept, if the store of the loaded queue
carries the additions out. -/
theorem WellKept.addUnchecked (h : WellKept cmp o name scene) (operation : String)
    (store : ObjectId → Option Nat → StoreAction E Bool) (new : List E) {answer : Bool}
    (hstore : ∀ mid, Loaded cmp o name scene mid → (mid.session.store name).Carries o.id
      (store o.id (hint mid.value)) answer (new.map .collectionAdd)) :
    WellKept cmp o name (stateAfter (TrackedQueue.addUnchecked operation store new) scene) :=
  (h.passes_addUnchecked operation store new hstore).wellKept h
    (OperationKind.fromHead_map .collectionAdd (fun _ => trivial) new) fun huse =>
      OperationKind.carryOutAll_inserted h.storeOrder (h.fits_onceLoaded huse cmp h.storeOrder) new

variable [Element E]

/-- An element that is added takes the same place in memory and store. -/
theorem keepsWell_add (e : E) : Keeps (WellKept cmp o name) (add e) :=
  Keeps.tracker?.bind fun _ => (Keeps.require _).bind fun _ => fun _ h =>
    h.addUnchecked "add" (Store.add · e ·) [e] fun mid hmid =>
      Store.carries_add hmid.supplied.reliable o.id e (hint mid.value)

/-- Adding several elements keeps a queue well kept, as long as it stays countable. -/
theorem WellKept.addAll (h : WellKept cmp o name scene) {new : List E}
    (hcount : (stateAfter (TrackedQueue.addAll new) scene).value.content.elements.length ≤
      Word.sizeLimit) : WellKept cmp o name (stateAfter (TrackedQueue.addAll new) scene) := by
  rcases stateAfter_addAll new scene with hsame | hadded
  · rw [hsame]
    exact h
  · rw [hadded] at hcount ⊢
    exact h.addUnchecked "add-all" (Store.addAll · new ·) new fun _ hmid =>
      hmid.carries_addAll hcount

/-- Every pass of an attachment goes to memory and store alike. -/
theorem keepsWell_attachCopy (target : List E) :
    Keeps (WellKept cmp o name) (attachCopy target) := by
  have hattach : Keeps (WellKept cmp o name) (Tracked.attach target : Action E Unit) :=
    fun scene h => h.of_calm (.attach scene.value.tracker target name scene.session)
  exact hattach.bind fun _ => Container.keeps_reconcile keepsWell_toList
    (fun e => keepsWell_removeWith e false) keepsWell_add target

end Calls

/-! ### Runs -/

section Runs

variable [Element E]

/-- A step in which the value of a queue is replaced only if the replacement is written: a call, as
long as the elements in memory can be counted by a word, a flush, and all that shows in neither
queue nor store. -/
inductive CareStep (o : Owner) (name : StoreName) :
    Scene (TrackedQueue E) E → Scene (TrackedQueue E) E → Prop where
  | call {scene : Scene (TrackedQueue E) E} (call : Call E)
      (allowed : call.Allowed o scene.session)
      (countable : (stateAfter call.run scene).value.content.elements.length ≤ Word.sizeLimit) :
      CareStep o name scene (stateAfter call.run scene)
  | flushed {scene : Scene (TrackedQueue E) E} (default : Option StoreName) :
      CareStep o name scene
        { scene with session := stateAfter (Session.flush default) scene.session }
  | around {scene : Scene (TrackedQueue E) E} {s : Session E}
      (calm : Session.Calm name scene.session s) : CareStep o name scene { scene with session := s }

variable [Std.TransCmp cmp]

/-- An allowed call keeps a queue well kept. -/
theorem Call.wellKept (call : Call E) (h : WellKept cmp o name scene)
    (hallowed : call.Allowed o scene.session)
    (hcount : (stateAfter call.run scene).value.content.elements.length ≤ Word.sizeLimit) :
    WellKept cmp o name (stateAfter call.run scene) := by
  cases call with
  | load => exact keepsWell_ensureLoaded scene h
  | add e => exact (keepsWell_add e).discard scene h
  | addAll new =>
    simp only [Call.run, stateAfter_discard] at hcount ⊢
    exact h.addAll hcount
  | poll => exact keepsWell_poll.discard scene h
  | remove e => exact (keepsWell_removeWith e true).discard scene h
  | removeWith e cascade => exact (keepsWell_removeWith e cascade).discard scene h
  | removeAll doomed => exact (keepsWell_removeAll doomed).discard scene h
  | retainAll keep => exact (keepsWell_retainAll keep).discard scene h
  | clear => exact keepsWell_clear scene h
  | attachCopy target => exact keepsWell_attachCopy target scene h
  | initialiseWith new =>
    rw [Call.run, stateAfter_of_ok (initialiseWith_apply new scene)] at hcount
    exact h.initialiseWith hallowed ((Comparator.sort_perm _ new).length_eq ▸ hcount)

/-- A step keeps a queue well kept. -/
theorem CareStep.wellKept (step : CareStep o name scene after) (h : WellKept cmp o name scene) :
    WellKept cmp o name after := by
  cases step with
  | call call allowed countable => exact call.wellKept h allowed countable
  | flushed default => exact h.flush default
  | around calm => exact h.of_calm calm

/-- A queue stays well kept in any run. -/
theorem wellKept_run {start : Scene (TrackedQueue E) E} (hstart : WellKept cmp o name start)
    (hrun : Relation.ReflTransGen (CareStep o name) start scene) : WellKept cmp o name scene := by
  induction hrun with
  | refl => exact hstart
  | tail _ step ih => exact step.wellKept ih

end Runs

end TrackedFields.TrackedQueue
