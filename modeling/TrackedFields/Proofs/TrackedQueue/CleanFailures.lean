import TrackedFields.Proofs.Tracked.Untouched
import TrackedFields.Proofs.TrackedQueue.Shows

/-!
# Failures of a queue

A request to a queue can fail in its check of null elements and in its reads of the store. A queue
that uses its cache reads when it prepares itself, and from then on it holds all its elements and
reads no more; one without cache keeps nothing of what it reads. Either way all reads are over
before the first change is made.
-/

namespace TrackedFields.TrackedQueue

variable {E α β : Type}

/-- An action that goes well on a queue which holds all its elements in memory, and leaves it so. -/
def Assured (action : Action E α) : Prop :=
  ∀ scene, scene.value.isAuthoritative = true →
    ∃ answer after, action scene = .ok answer after ∧ after.value.isAuthoritative = true

/-- An action that leaves everything alone, or goes well and leaves all elements in memory. -/
def Prepares (action : Action E α) : Prop :=
  ∀ scene, Untouched scene (stateAfter action scene) ∨
    ∃ answer after, action scene = .ok answer after ∧ after.value.isAuthoritative = true

/-- Preparations fail without a trace. -/
theorem Prepares.failsCleanly {action : Action E α} (h : Prepares action) :
    FailsCleanly action := by
  intro scene failure after haction
  rcases h scene with huntouched | ⟨answer, mid, hok, -⟩
  · rwa [stateAfter_of_error haction] at huntouched
  · rw [hok] at haction
    cases haction

/-- What follows a preparation fails without a trace if it does so by itself, and goes well on a
queue that holds all its elements in memory. -/
theorem Prepares.bind_failsCleanly {action : Action E α} {next : α → Action E β}
    (h : Prepares action) (hwhole : ∀ a, Assured (next a)) (hclean : ∀ a, FailsCleanly (next a)) :
    FailsCleanly (action >>= next) := by
  intro scene failure after hafter
  rw [bind_apply] at hafter
  rcases h scene with huntouched | ⟨a, mid, hok, hauthoritative⟩
  · cases haction : action scene with
    | error failure' mid =>
      rw [haction] at hafter
      rw [stateAfter_of_error haction] at huntouched
      cases hafter
      exact huntouched
    | ok a mid =>
      rw [haction] at hafter
      rw [stateAfter_of_ok haction] at huntouched
      exact huntouched.trans (hclean a mid failure after hafter)
  · rw [hok] at hafter
    obtain ⟨b, last, hlast, -⟩ := hwhole a mid hauthoritative
    change next a mid = _ at hafter
    rw [hlast] at hafter
    cases hafter

/-- A look after a preparation. -/
theorem Prepares.bind_looks {action : Action E α} {next : α → Action E β} (h : Prepares action)
    (hwhole : ∀ a, Assured (next a)) (hlooks : ∀ a, Looks (next a)) :
    Prepares (action >>= next) := by
  intro scene
  rcases h scene with huntouched | ⟨a, mid, hok, hauthoritative⟩
  · refine .inl ?_
    rw [stateAfter_bind]
    cases haction : action scene with
    | error failure mid => rwa [stateAfter_of_error haction] at huntouched
    | ok a mid =>
      rw [stateAfter_of_ok haction] at huntouched
      exact huntouched.trans (hlooks a mid)
  · obtain ⟨b, last, hlast, hstill⟩ := hwhole a mid hauthoritative
    refine .inr ⟨b, last, ?_, hstill⟩
    rw [bind_apply, hok]
    exact hlast

namespace Assured

/-- Actions that go well, one after the other. -/
theorem bind {action : Action E α} {next : α → Action E β} (h : Assured action)
    (hnext : ∀ a, Assured (next a)) : Assured (action >>= next) := by
  intro scene hscene
  obtain ⟨a, mid, haction, hmid⟩ := h scene hscene
  obtain ⟨b, after, hafter, hstill⟩ := hnext a mid hmid
  refine ⟨b, after, ?_, hstill⟩
  rw [bind_apply, haction]
  exact hafter

/-- Answering goes well. -/
theorem pure (a : α) : Assured (Pure.pure a : Action E α) := fun scene h => ⟨a, scene, rfl, h⟩

/-- A choice between actions that go well. -/
theorem ite {c : Prop} [Decidable c] {first second : Action E α} (h : Assured first)
    (h' : Assured second) : Assured (if c then first else second) := by
  split
  · exact h
  · exact h'

/-- What is done once the queue is at hand, and known to hold all its elements in memory. -/
theorem bind_current {next : TrackedQueue E → Action E α}
    (h : ∀ q, q.isAuthoritative = true → Assured (next q)) : Assured (current >>= next) :=
  fun scene hscene => h scene.value hscene scene hscene

end Assured

/-! ### Parts of requests -/

/-- Changing the session alone goes well. -/
theorem assured_report (tell : Tracker → Session E → Session E) :
    Assured (Tracked.report tell : Action E Unit) := fun _ h => ⟨_, _, rfl, h⟩

/-- Asking something of the session goes well. -/
theorem assured_ask (question : Tracker → Session E → α × Session E) :
    Assured (Tracked.ask question : Action E α) := fun _ h => ⟨_, _, rfl, h⟩

/-- Replacing the elements in memory goes well. -/
theorem assured_setElements (es : List E) : Assured (setElements es) := fun _ h => ⟨_, _, rfl, h⟩

/-- Replacing the elements in memory never fails. -/
theorem total_setElements (es : List E) : Total (setElements es) := fun _ => ⟨_, _, rfl⟩

/-- Asking for the content goes well. -/
theorem assured_content : Assured (Tracked.content? : Action E (QueueContent E)) :=
  fun _ h => ⟨_, _, rfl, h⟩

/-- Reading a store with a call that only looks is a look. -/
theorem looks_read {name : StoreName} {action : StoreAction E α} (h : Store.Looks action) :
    Looks (read name action) := by
  intro scene
  have hview := h (scene.session.store name)
  unfold stateAfter read Session.access at *
  cases haction : action (scene.session.store name) with
  | ok answer store =>
    rw [haction] at hview
    exact ⟨rfl, .afterCalls scene.session name hview⟩
  | error e store =>
    rw [haction] at hview
    exact ⟨rfl, .afterCalls scene.session name hview⟩

/-- Asking for the queue is a look. -/
theorem looks_current : Looks (current : Action E (TrackedQueue E)) := fun scene => .refl scene

/-- Reading, wherever it is done, is a look. -/
theorem looks_readEither (fromStore : Bool) {action : ObjectId → StoreAction E α}
    (h : ∀ owner, Store.Looks (action owner)) (fromMemory : QueueContent E → α) :
    Looks (readEither fromStore action fromMemory) := by
  refine looks_current.bind fun q => ?_
  cases q.tracker.channel with
  | none => exact .pure _
  | some channel => exact .ite (looks_read (h channel.2)) (.pure _)

/-- A read that asks the store only if the queue does not use its cache. -/
theorem assured_readUncached (action : ObjectId → StoreAction E α)
    (fromMemory : QueueContent E → α) :
    Assured (do readEither (!(← Tracked.content?).useCache) action fromMemory) := by
  intro scene h
  have hasks (hstore : scene.value.hasStore = true) : (!scene.value.content.useCache) = false := by
    unfold isAuthoritative at h
    rw [hstore, Bool.not_true, Bool.false_or, Bool.and_eq_true] at h
    rw [h.1, Bool.not_true]
  exact ⟨_, scene, readEither_of_memory hasks action fromMemory, h⟩

/-- A queue that is not loaded fails to load where its store cannot be read. -/
theorem loadFromStore_of_read_error {scene mid : Scene (TrackedQueue E) E} {name : StoreName}
    {owner : ObjectId} {failure : Failure}
    (hchannel : scene.value.tracker.channel = some (name, owner))
    (hloaded : scene.value.content.loaded = false)
    (hread : read name (Store.elements owner) scene = .error failure mid) :
    loadFromStore scene = .error failure mid := by
  unfold loadFromStore
  rw [bind_apply, current_apply]
  dsimp only
  rw [hchannel]
  dsimp only
  rw [hloaded, if_neg Bool.false_ne_true, bind_apply, hread]

/-- Loading either leaves everything alone, or fills the memory. -/
theorem loadFromStore_cases (scene : Scene (TrackedQueue E) E) :
    Untouched scene (stateAfter loadFromStore scene) ∨
      ∃ after, loadFromStore scene = .ok () after ∧ after.value.content.loaded = true ∧
        after.value.content.useCache = scene.value.content.useCache := by
  rcases loadFromStore_skips_or_awaits scene with hskip | ⟨name, owner, hchannel, hloaded⟩
  · rw [stateAfter_of_ok hskip]
    exact .inl (.refl scene)
  · have hlooks : Untouched scene (stateAfter (read name (Store.elements owner)) scene) :=
      looks_read (Store.looks_elements owner) scene
    cases hread : read name (Store.elements owner) scene with
    | ok es mid =>
      exact .inr ⟨_, loadFromStore_of_read hchannel hloaded hread, rfl, rfl⟩
    | error failure mid =>
      rw [stateAfter_of_error hread] at hlooks
      rw [stateAfter_of_error (loadFromStore_of_read_error hchannel hloaded hread)]
      exact .inl hlooks

/-- Loading fails without a trace. -/
theorem failsCleanly_loadFromStore : FailsCleanly (loadFromStore (E := E)) := by
  intro scene failure after h
  rcases loadFromStore_cases scene with huntouched | ⟨mid, hok, -⟩
  · rwa [stateAfter_of_error h] at huntouched
  · rw [hok] at h
    cases h

/-- Preparing a queue leaves everything alone, or leaves all elements in memory. -/
theorem prepares_ensureLoaded : Prepares (ensureLoaded (E := E)) := by
  intro scene
  by_cases huse : scene.value.content.useCache = true
  · have hload : ensureLoaded scene = loadFromStore scene := by
      rw [ensureLoaded_apply, if_pos huse]
    rcases loadFromStore_cases scene with huntouched | ⟨after, hok, hloaded, hcache⟩
    · refine .inl ?_
      unfold stateAfter at huntouched ⊢
      rwa [hload]
    · refine .inr ⟨(), after, hload.trans hok, ?_⟩
      unfold isAuthoritative
      rw [hcache, huse, hloaded, Bool.and_self, Bool.or_true]
  · have hskip : ensureLoaded scene = .ok () scene := by rw [ensureLoaded_apply, if_neg huse]
    rw [stateAfter_of_ok hskip]
    exact .inl (.refl scene)

/-! ### Requests that read -/

/-- Listing the elements. -/
theorem prepares_toList : Prepares (toList (E := E)) :=
  prepares_ensureLoaded.bind_looks (fun _ => assured_readUncached _ _) fun _ =>
    Tracked.looks_content.bind fun _ => looks_readEither _ Store.looks_elements _

/-- The head. -/
theorem prepares_peek : Prepares (peek (E := E)) :=
  prepares_ensureLoaded.bind_looks (fun _ => assured_readUncached _ _) fun _ =>
    Tracked.looks_content.bind fun _ => looks_readEither _ (fun _ => Store.looks_reading _ _) _

/-- The elements in the order of the queue. -/
theorem prepares_snapshot : Prepares (snapshot (E := E)) :=
  prepares_toList.bind_looks (fun _ => assured_content.bind fun _ => .pure _) fun _ =>
    Tracked.looks_content.bind fun _ => .pure _

/-- The number of elements. -/
theorem looks_length : Looks (length (E := E)) :=
  looks_current.bind fun _ => looks_readEither _ (fun _ => Store.looks_reading _ _) _

/-- Whether an element is there. -/
theorem looks_contains [DecidableEq E] (e : E) : Looks (contains e) :=
  looks_current.bind fun _ => looks_readEither _ (fun _ => Store.looks_reading _ _) _

/-! ### Requests that change -/

/-- Forwarding never fails. -/
theorem total_forward (operation : String) (action : ObjectId → StoreAction E α) :
    Total (forward operation action) := Tracked.total_ask _

/-- Forwarding goes well. -/
theorem assured_forward (operation : String) (action : ObjectId → StoreAction E α) :
    Assured (forward operation action) := assured_ask _

/-- Preparing a queue goes well where nothing is to be loaded. -/
theorem assured_ensureLoaded : Assured (ensureLoaded (E := E)) :=
  fun scene h => ⟨(), scene, Prepared.ensureLoaded_eq fun _ => h, h⟩

/-- A request that prepares the queue first fails without a trace if the rest of it does so by
itself and the whole of it goes well on a queue that holds all its elements in memory. -/
theorem failsCleanly_of_prepared {next : Unit → Action E α}
    (hwhole : Assured (ensureLoaded >>= next)) (hclean : ∀ a, FailsCleanly (next a)) :
    FailsCleanly (ensureLoaded >>= next) := by
  apply prepares_ensureLoaded.bind_failsCleanly ?_ hclean
  intro _ scene h
  have hprepared : Prepared scene.value := fun _ => h
  obtain ⟨answer, after, hok, hstill⟩ := hwhole scene h
  rw [bind_apply, hprepared.ensureLoaded_eq] at hok
  exact ⟨answer, after, hok, hstill⟩

private theorem failsCleanly_choice {c : Prop} [Decidable c] {first second : Action E α}
    {next : α → Action E β} (h : Looks first) (h' : Looks second) (hnext : ∀ a, Total (next a)) :
    FailsCleanly (if c then first >>= next else second >>= next) := by
  split
  · exact h.bind_failsCleanly fun a => (hnext a).failsCleanly
  · exact h'.bind_failsCleanly fun a => (hnext a).failsCleanly

/-- Ending a change never fails. -/
theorem total_changed : Total (changed (E := E)) := fun _ => ⟨_, _, rfl⟩

variable [DecidableEq E]

/-- Reporting never fails. -/
theorem total_announce (report : Report E) : Total (announce report) := fun _ => ⟨_, _, rfl⟩

/-- Polling a queue that holds all its elements in memory goes well. -/
theorem assured_poll : Assured (poll (E := E)) :=
  assured_ensureLoaded.bind fun _ => .bind_current fun _ _ => (assured_setElements _).bind fun _ =>
    (assured_forward _ _).bind fun _ => (assured_report _).bind fun _ =>
      (assured_report _).bind fun _ => .pure _

/-- Removing the head. -/
theorem failsCleanly_poll : FailsCleanly (poll (E := E)) :=
  failsCleanly_of_prepared assured_poll fun _ => looks_current.bind_failsCleanly fun _ =>
    Total.failsCleanly <| (total_setElements _).bind fun _ => (total_forward _ _).bind fun _ =>
      (total_announce _).bind fun _ => total_changed.bind fun _ => .pure _

/-- Removing an element from a queue that holds all its elements in memory goes well. -/
theorem assured_removeWith (e : E) (cascade : Bool) : Assured (removeWith e cascade) := by
  refine assured_ensureLoaded.bind fun _ => .bind_current fun q hq => ?_
  have hmemory : (q.content.elements.contains e || q.isAuthoritative ||
      !q.tracker.isQueued) = true := by rw [hq, Bool.or_true, Bool.true_or]
  dsimp only
  rw [if_pos hmemory]
  exact (Assured.pure _).bind fun _ => (assured_setElements _).bind fun _ =>
    (assured_forward _ _).bind fun _ => (assured_report _).bind fun _ =>
      (assured_report _).bind fun _ => .pure _

/-- Removing one occurrence of an element: the read that may be needed comes before the change. -/
theorem failsCleanly_removeWith (e : E) (cascade : Bool) :
    FailsCleanly (removeWith e cascade) :=
  failsCleanly_of_prepared (assured_removeWith e cascade) fun _ =>
    looks_current.bind_failsCleanly fun _ =>
      failsCleanly_choice (.pure _) (looks_contains e) fun _ =>
        (total_setElements _).bind fun _ => (total_forward _ _).bind fun _ =>
          (total_announce _).bind fun _ => total_changed.bind fun _ => .pure _

/-- Removing listed elements from a queue that holds all its elements in memory goes well. -/
theorem assured_removeListed (doomed : List E) : Assured (removeListed doomed) := by
  refine assured_ensureLoaded.bind fun _ => .bind_current fun q hq => ?_
  dsimp only
  rw [if_pos hq]
  exact (Assured.pure _).bind fun _ => (assured_setElements _).bind fun _ =>
    (assured_report _).bind fun _ => (assured_forward _ _).bind fun _ =>
      (assured_report _).bind fun _ => .pure _

/-- Removing listed elements: the read that may be needed comes before the change. -/
theorem failsCleanly_removeListed (doomed : List E) : FailsCleanly (removeListed doomed) :=
  failsCleanly_of_prepared (assured_removeListed doomed) fun _ =>
    looks_current.bind_failsCleanly fun _ =>
      failsCleanly_choice (.pure _) (looks_readEither true Store.looks_elements _) fun _ =>
        (total_setElements _).bind fun _ => (total_announce _).bind fun _ =>
          (total_forward _ _).bind fun _ => total_changed.bind fun _ => .pure _

/-- Removing every occurrence of listed elements. -/
theorem failsCleanly_removeAll (es : List E) : FailsCleanly (removeAll es) := by
  exact .ite (Looks.pure _).failsCleanly (failsCleanly_removeListed es)

/-- Keeping the occurrences of listed elements only: the store is read twice, both times before the
change. -/
theorem failsCleanly_retainAll (keep : List E) : FailsCleanly (retainAll keep) := by
  refine prepares_toList.bind_failsCleanly (fun _ => .bind_current fun q _ => ?_) fun _ =>
    looks_current.bind_failsCleanly fun q => ?_
  · exact .ite (.pure _) (assured_removeListed _)
  · exact .ite (Looks.pure _).failsCleanly (failsCleanly_removeListed _)

/-- Removing everything never fails. -/
theorem total_clear : Total (clear (E := E)) :=
  Total.bind (fun scene => ⟨_, scene, rfl⟩) fun _ => (Total.modify _).bind fun _ =>
    (total_announce _).bind fun _ => (total_forward _ _).discard.bind fun _ => total_changed

/-- Replacing the whole value never fails. -/
theorem total_initialiseWith (es : List E) : Total (initialiseWith es) := by
  refine Total.bind (fun scene => ⟨scene, scene, rfl⟩) fun scene => ?_
  have hend : Total (do
      Tracked.setContent { scene.value.content with
        elements := scene.value.content.order.sort es, loaded := true }
      Tracked.makeDirty : Action E Unit) := (Total.modify _).bind fun _ => .modify _
  dsimp only
  split
  · exact (Total.modify _).bind fun _ => (total_forward _ _).discard.bind fun _ =>
      (total_forward _ _).discard.bind fun _ => hend
  · exact hend

omit [DecidableEq E] in
/-- Telling the store about an embedded element never fails. -/
theorem total_updateEmbedded (e : E) (field : FieldOrdinal) (dirty : Bool) :
    Total (updateEmbedded e field dirty) :=
  (Tracked.total_ask _).discard.bind fun _ => Tracked.total_dirtyIf dirty

/-- Adding without asking for null elements. -/
theorem failsCleanly_addUnchecked (operation : String)
    (store : ObjectId → Option Nat → StoreAction E Bool) (new : List E) :
    FailsCleanly (addUnchecked operation store new) := by
  refine failsCleanly_of_prepared (assured_ensureLoaded.bind fun _ => .bind_current fun _ _ => ?_)
    fun _ => looks_current.bind_failsCleanly fun _ => Total.failsCleanly ?_
  · exact (assured_forward _ _).bind fun _ => (assured_setElements _).bind fun _ =>
      (assured_report _).bind fun _ => (assured_report _).bind fun _ => .pure _
  · exact (total_forward _ _).bind fun _ => (total_setElements _).bind fun _ =>
      (total_announce _).bind fun _ => total_changed.bind fun _ => .pure _

variable [Element E]

/-- Adding an element: the check comes first. -/
theorem failsCleanly_add (e : E) : FailsCleanly (add e) :=
  Tracked.looks_tracker.bind_failsCleanly fun _ =>
    (Tracked.looks_require _).bind_failsCleanly fun _ => failsCleanly_addUnchecked "add" _ [e]

/-- Adding several elements: all of them are checked first. -/
theorem failsCleanly_addAll (new : List E) : FailsCleanly (addAll new) := by
  refine Tracked.looks_tracker.bind_failsCleanly fun _ =>
    (Tracked.looks_require _).bind_failsCleanly fun _ => ?_
  exact .ite (Looks.pure _).failsCleanly (failsCleanly_addUnchecked "add-all" _ new)

end TrackedFields.TrackedQueue
