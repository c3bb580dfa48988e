import TrackedFields.Proofs.TrackedQueue.DifferInLoading

/-!
# Calls that do not tell whether a queue was loaded

A call that depends on more than a queue holds in memory loads it first, or asks its store for what
does not depend on the order of the elements. So two queues that differ in loading only answer each
call alike, and differ in loading only afterwards.
-/

namespace TrackedFields.TrackedQueue

variable {E α β : Type} {scene twin after : Scene (TrackedQueue E) E}

/-- A call that two queues which differ in loading only answer alike, and that leaves them so. -/
abbrev Unseen (action : Action E α) : Prop := Lockstep Siblings Eq Eq action action

/-- A call that leaves both queues loaded as well. -/
def Settling (action : Action E α) : Prop :=
  ∀ scene twin, Siblings scene twin → Agree BothLoaded Eq Eq (action scene) (action twin)

/-- What leaves both loaded leaves them alike. -/
theorem Settling.unseen {action : Action E α} (h : Settling action) : Unseen action :=
  fun scene twin hsiblings => (h scene twin hsiblings).imp (fun _ _ h => h.siblings) fun _ _ h => h

/-- Loaded queues are left loaded. -/
theorem Settling.loaded {action : Action E α} (h : Settling action) :
    Lockstep BothLoaded Eq Eq action action :=
  fun scene twin hloaded => h scene twin hloaded.siblings

/-- After both were loaded, they go on in lockstep. -/
theorem Settling.bind {action : Action E α} {next : α → Action E β} (h : Settling action)
    (hnext : ∀ a, Lockstep BothLoaded Eq Eq (next a) (next a)) : Settling (action >>= next) := by
  intro scene twin hsiblings
  have hend := h scene twin hsiblings
  rw [bind_apply, bind_apply]
  generalize action scene = result, action twin = result' at hend ⊢
  cases hend with
  | ok answers loaded =>
    obtain rfl := answers
    exact hnext _ _ _ loaded
  | error failures loaded => exact .error failures loaded

/-- One call after the other. -/
theorem Unseen.bind {action : Action E α} {next : α → Action E β} (h : Unseen action)
    (hnext : ∀ a, Unseen (next a)) : Unseen (action >>= next) := by
  apply Lockstep.bind h
  rintro a _ rfl
  exact hnext a

/-- Loading. -/
theorem settling_ensureLoaded : Settling (ensureLoaded (E := E)) := by
  intro scene twin h
  obtain ⟨mid, mid', hload, hload', hloaded⟩ := h.exists_loaded
  rw [hload, hload']
  exact .ok rfl hloaded

/-- Listing the elements. -/
theorem settling_toList : Settling (toList (E := E)) :=
  settling_ensureLoaded.bind fun _ => bothLoaded_readUncached _ _

/-- Asking for the head. -/
theorem settling_peek : Settling (peek (E := E)) :=
  settling_ensureLoaded.bind fun _ => bothLoaded_readUncached _ _

/-- Listing the elements in order. -/
theorem settling_snapshot : Settling (snapshot (E := E)) :=
  settling_toList.bind fun es _ _ h =>
    .ok (congrArg (fun q : TrackedQueue E => q.content.order.sort es) h.value.symm) h

/-- Loading without asking whether the content is to be kept in memory. -/
theorem unseen_loadFromStore : Unseen (loadFromStore (E := E)) := by
  intro scene twin h
  have hend := settling_ensureLoaded.unseen scene twin h
  rwa [ensureLoaded_apply, if_pos h.useCache, ensureLoaded_apply, if_pos h.useCache'] at hend

/-- Preparing a fresh queue. -/
theorem unseen_initialise : Unseen (initialise (E := E)) := by
  intro scene twin h
  change Agree _ _ _
    ((if (scene.value.content.useCache && !scene.value.content.lazily) = true then loadFromStore
      else pure ()) scene)
    ((if (twin.value.content.useCache && !twin.value.content.lazily) = true then loadFromStore
      else pure ()) twin)
  rw [h.useCache, h.useCache', h.lazily]
  exact Lockstep.ite unseen_loadFromStore (.pure rfl) scene twin h

/-- What a queue that is not loaded answers from its store is what it lists, if the order of the
elements does not matter. -/
theorem exists_part {f : List E → α} (hf : ∀ es es' : List E, es.Perm es' → f es = f es')
    (call : StoreCall E) (huse : scene.value.content.useCache = true)
    (hreadable : Readable scene) :
    ∃ after, (readEither (!scene.value.isAuthoritative)
        (fun owner => Store.reading call fun st => f (st.contents owner)) (fun c => f c.elements) :
          Action E α) scene = .ok (f (listed scene)) after ∧
      after.value = scene.value ∧ scene.session.Resembles after.session := by
  cases hwhole : scene.value.isAuthoritative with
  | true =>
    rw [listed_of_whole huse hwhole]
    exact ⟨scene, readEither_of_memory (fun _ => rfl) _ _, rfl, .refl _⟩
  | false =>
    obtain ⟨name, owner, hchannel, hloaded⟩ := awaiting_of_part huse hwhole
    have hreads := hreadable name owner hchannel
    have hread : Store.reading call (fun st => f (st.contents owner)) (scene.session.store name) =
        .ok (f ((scene.session.store name).contents owner))
          ((scene.session.store name).afterRead call) := by
      rw [Store.reading_eq, hreads]
      rfl
    have hlisted : f (listed scene) = f ((scene.session.store name).contents owner) := by
      rw [listed_of_awaiting huse hchannel hloaded]
      exact hf _ _ (Comparator.sort_perm _ _)
    refine ⟨{ scene with
      session := scene.session.afterCalls name ((scene.session.store name).afterRead call) },
      ?_, rfl, ?_⟩
    · rw [readEither_of_channel hchannel, Bool.not_false, if_pos rfl, read_of_ok hread, hlisted]
    · refine .of_afterCalls ⟨(scene.session.store name).iterations,
        (scene.session.store name).calls ++ [call], ?_⟩
      unfold Store.afterRead
      rw [hreads]
      rfl

/-- Asking for what does not depend on the order of the elements. -/
theorem unseen_part {f : List E → α} (hf : ∀ es es' : List E, es.Perm es' → f es = f es')
    (call : StoreCall E) :
    Unseen (do
      readEither (!(← current).isAuthoritative)
        (fun owner => Store.reading call fun st => f (st.contents owner))
        fun c => f c.elements) := by
  intro scene twin h
  obtain ⟨after, hread, hvalue, hsession⟩ := exists_part hf call h.useCache h.readable
  obtain ⟨after', hread', hvalue', hsession'⟩ := exists_part hf call h.useCache' h.readable'
  have hafter := h.observed hvalue hvalue' hsession hsession'
  rw [h.listed] at hread'
  rw [bind_apply, bind_apply, current_apply, current_apply]
  dsimp only
  rw [hread, hread']
  exact .ok rfl hafter

/-- Asking for the number of elements. -/
theorem unseen_length : Unseen (length (E := E)) :=
  unseen_part (fun _ _ h => h.length_eq) .size

variable [DecidableEq E]

/-- Asking for an element. -/
theorem unseen_contains (e : E) : Unseen (contains e) := by
  refine unseen_part (fun es es' h => ?_) (.contains e)
  rw [Bool.eq_iff_iff, List.contains_iff_mem, List.contains_iff_mem, h.mem_iff]

variable [Element E]

/-- Adding elements. -/
theorem settling_addUnchecked (operation : String)
    {store : ObjectId → Option Nat → StoreAction E Bool}
    (hstore : ∀ hint, Store.Write (fun _ => True) (store · hint)) (new : List E) :
    Settling (addUnchecked operation store new) := by
  apply settling_ensureLoaded.bind
  intro _
  apply Lockstep.bind bothLoaded_current
  rintro q _ ⟨rfl, -⟩
  apply Lockstep.bind (bothLoaded_forward operation (hstore q.hint))
  rintro forwarded _ rfl
  exact (bothLoaded_setElements _).bind fun _ _ _ => bothLoaded_end _ _

/-- Removing the head. -/
theorem settling_poll : Settling (poll (E := E)) := by
  apply settling_ensureLoaded.bind
  intro _
  apply Lockstep.bind bothLoaded_current
  rintro q _ ⟨rfl, -⟩
  apply Lockstep.bind (bothLoaded_setElements _)
  intro _ _ _
  have hwrite : Store.Write (fun _ : E => True) (Store.removeAt · 0 q.hint) := .removeAt 0 q.hint
  apply Lockstep.bind (bothLoaded_forward "poll" hwrite)
  rintro forwarded _ rfl
  exact bothLoaded_end _ _

/-- Removing one occurrence of an element. -/
theorem settling_removeWith (e : E) (cascade : Bool) : Settling (removeWith e cascade) := by
  apply settling_ensureLoaded.bind
  intro _
  apply Lockstep.bind bothLoaded_current
  rintro q _ ⟨rfl, hwhole⟩
  simp only [hwhole, Bool.or_true, Bool.true_or, if_true, pure_bind]
  apply Lockstep.bind (bothLoaded_setElements _)
  intro _ _ _
  have hwrite : Store.Write (fun _ : E => True) (Store.remove · e q.hint cascade) :=
    .remove e q.hint cascade
  apply Lockstep.bind (bothLoaded_forward "remove" hwrite)
  rintro forwarded _ rfl
  exact bothLoaded_end _ _

/-- Removing every occurrence of listed elements. -/
theorem settling_removeListed (doomed : List E) : Settling (removeListed doomed) := by
  apply settling_ensureLoaded.bind
  intro _
  apply Lockstep.bind bothLoaded_current
  rintro q _ ⟨rfl, hwhole⟩
  simp only [hwhole, if_true, pure_bind]
  apply Lockstep.bind (bothLoaded_setElements _)
  intro _ _ _
  apply Lockstep.bind (bothLoaded_announce rfl)
  intro _ _ _
  have hwrite (copies : List E) :
      Store.Write (fun _ : E => True) (Store.removeAll · copies q.hint) := .removeAll copies q.hint
  apply Lockstep.bind (bothLoaded_forward "remove-all" (hwrite _))
  rintro forwarded _ rfl
  exact bothLoaded_changed.bind fun _ _ _ => .pure rfl

/-- Removing every occurrence of listed elements, unless none is listed. -/
theorem unseen_removeAll (es : List E) : Unseen (removeAll es) :=
  Lockstep.ite (.pure rfl) (settling_removeListed es).unseen

/-- Keeping the occurrences of listed elements only. -/
theorem settling_retainAll (keep : List E) : Settling (retainAll keep) := by
  apply settling_toList.bind
  intro es
  apply Lockstep.bind bothLoaded_current
  rintro q _ ⟨rfl, -⟩
  exact Lockstep.ite (.pure rfl) (settling_removeListed _).loaded

/-- Removing everything: what is in memory before that does not matter. -/
theorem settling_clear : Settling (clear (E := E)) := by
  let emptied (q : TrackedQueue E) : TrackedQueue E :=
    { q with content := { q.content with elements := [], loaded := true } }
  let rest (es : List E) : Action E Unit := do
    announce (.cleared es)
    discard (forward "clear" Store.clear)
    changed
  have hclear {now : Scene (TrackedQueue E) E} (huse : now.value.content.useCache = true) :
      clear now = rest now.value.content.elements { now with value := emptied now.value } := by
    change rest now.value.content.elements { now with
      value := { now.value with content := { now.value.content with
        elements := []
        loaded := now.value.content.loaded || now.value.content.useCache } } } = _
    rw [huse, Bool.or_true]
  have hrest (es es' : List E) : Lockstep BothLoaded Eq Eq (rest es) (rest es') := by
    have hannounce : Lockstep BothLoaded Eq Eq (announce (.cleared es)) (announce (.cleared es')) :=
      bothLoaded_announce rfl
    have hwrite : Store.Write (fun _ : E => True) Store.clear := .clear
    exact hannounce.bind fun _ _ _ =>
      (bothLoaded_forward "clear" hwrite).discard.bind fun _ _ _ => bothLoaded_changed
  intro scene twin h
  rw [hclear h.useCache, hclear h.useCache']
  refine hrest _ _ _ _ ⟨h.useCache, h.readable, ?_, ?_, h.sessions⟩
  · change (!scene.value.hasStore || (scene.value.content.useCache && true)) = true
    rw [h.useCache, Bool.and_self, Bool.or_true]
  · have hsame := congrArg emptied h.filled
    exact hsame

omit [DecidableEq E] [Element E] in
/-- Checking. -/
theorem unseen_require (checked : Except Failure Unit) :
    Unseen (Tracked.require checked : Action E Unit) := by
  cases checked with
  | error failure => exact .throw rfl
  | ok answer => exact .pure rfl

omit [DecidableEq E] [Element E] in
/-- Looking at the tracker. -/
theorem unseen_tracker? : Unseen (Tracked.tracker? : Action E Tracker) :=
  fun _ _ h => .ok h.tracker.symm h

/-- Adding an element. -/
theorem unseen_add (e : E) : Unseen (add e) := by
  apply unseen_tracker?.bind
  intro t
  apply (unseen_require (t.check e)).bind
  intro _
  have hwrite (hint : Option Nat) : Store.Write (fun _ => True) (Store.add · e hint) :=
    .add e hint trivial
  exact (settling_addUnchecked "add" hwrite [e]).unseen

/-- Adding several elements. -/
theorem unseen_addAll (new : List E) : Unseen (addAll new) := by
  apply unseen_tracker?.bind
  intro t
  apply (unseen_require (t.checkAll new)).bind
  intro _
  have hwrite (hint : Option Nat) : Store.Write (fun _ => True) (Store.addAll · new hint) :=
    .addAll new hint fun _ _ => trivial
  exact Lockstep.ite (.pure rfl) (settling_addUnchecked "add-all" hwrite new).unseen

/-- Reconciling with a list. -/
theorem unseen_reconcile (attached : List E) :
    Unseen (Container.reconcile attached : Action E Unit) :=
  (Container.lockstep_reconcile settling_toList.unseen
    (fun e => (settling_removeWith e false).unseen) unseen_add attached).mono fun _ _ _ => rfl

/-- A request in both sessions that lets nothing wait and leaves all containers as they are. -/
theorem Siblings.asks (h : Siblings scene twin) {good : E → Prop} {session other : Session E}
    (hasks : scene.value.tracker.Asks good scene.session session)
    (hsessions : session.Resembles other) (hpending : session.pending = scene.session.pending)
    (hcontents : ∀ name owner,
      (session.store name).contents owner = (scene.session.store name).contents owner) :
    Siblings { scene with session } { twin with session := other } where
  useCache := h.useCache
  readable name owner hchannel := hasks.reads (h.readable name owner hchannel)
  filled := by
    have hscene : TrackedQueue.filled { scene with session } = TrackedQueue.filled scene :=
      filled_congr rfl fun name owner _ => hcontents name owner
    have htwin : TrackedQueue.filled { twin with session := other } = TrackedQueue.filled twin := by
      refine filled_congr rfl fun name owner _ => ?_
      rw [(hsessions.stores name).contents, hcontents, (h.sessions.stores name).contents]
    rw [hscene, htwin, h.filled]
  sessions := hsessions
  waiting name owner hchannel := by
    rw [Session.NoneWaits, hpending]
    exact h.waiting name owner hchannel

/-- A request that lets nothing wait and reaches no store. -/
theorem unseen_report {request : Tracker → Session E → Session E}
    (hasks : ∀ t s, Tracker.Asks (fun _ => True) t s (request t s))
    (hsessions : ∀ (t : Tracker) {s s' : Session E}, s.Resembles s' →
      (request t s).Resembles (request t s'))
    (hpending : ∀ t s, (request t s).pending = s.pending)
    (hstores : ∀ t s, (request t s).stores = s.stores) :
    Unseen (Tracked.report request : Action E Unit) := by
  intro scene twin h
  have hafter := h.asks (hasks scene.value.tracker scene.session)
    (hsessions scene.value.tracker h.sessions) (hpending _ _) fun name owner => by
      rw [Session.store_of_stores_eq (hstores scene.value.tracker scene.session)]
  change Agree _ _ _ (.ok () { scene with session := request scene.value.tracker scene.session })
    (.ok () { twin with session := request twin.value.tracker twin.session })
  rw [h.tracker]
  exact .ok rfl hafter

/-- Marking the field. -/
theorem unseen_makeDirty : Unseen (Tracked.makeDirty : Action E Unit) :=
  unseen_report (fun _ s => .markDirty s) (fun t _ _ hsessions => t.resembles_markDirty hsessions)
    (fun t s => t.pending_markDirty s) fun t s => t.stores_markDirty s

/-- Taking in elements from outside the session. -/
theorem unseen_attach (es : List E) : Unseen (Tracked.attach es : Action E Unit) :=
  unseen_report (fun _ s => .attach es s) (fun t _ _ hsessions => t.resembles_attach hsessions es)
    (fun t s => t.pending_attach s es) fun t s => t.stores_attach s es

/-- A change within an element. -/
theorem unseen_updateEmbedded (e : E) (field : FieldOrdinal) (dirty : Bool) :
    Unseen (updateEmbedded e field dirty) := by
  have hcall : Unseen (Tracked.ask (fun tracker session =>
      tracker.call "update-embedded-element" (Store.updateEmbedded · e field) session) :
        Action E (Forwarded Bool)) := by
    intro scene twin h
    have hwrite : Store.Write (fun _ : E => True) (Store.updateEmbedded · e field) :=
      .updateEmbedded e field
    obtain ⟨hanswer, hsessions⟩ := scene.value.tracker.resembles_call h.sessions
      "update-embedded-element" hwrite.unrecorded
    obtain ⟨hpending, hviews⟩ := scene.value.tracker.call_of_looks
      (fun owner => Store.looks_reading (.updateEmbedded e field) fun _ => false)
      "update-embedded-element" scene.session
    have hafter := h.asks (.call _ hwrite _) hsessions hpending fun name owner =>
      congrFun (congrArg Store.View.contents (congrFun hviews name)) owner
    change Agree _ _ _
      (.ok (scene.value.tracker.call _ (Store.updateEmbedded · e field) scene.session).1 _)
      (.ok (twin.value.tracker.call _ (Store.updateEmbedded · e field) twin.session).1
        { twin with
          session := (twin.value.tracker.call _ (Store.updateEmbedded · e field) twin.session).2 })
    rw [h.tracker]
    exact .ok hanswer.symm hafter
  have hdiscard : Unseen (discard (Tracked.ask (fun tracker session =>
      tracker.call "update-embedded-element" (Store.updateEmbedded · e field) session) :
        Action E (Forwarded Bool))) := hcall.discard.mono fun _ _ _ => rfl
  exact hdiscard.bind fun _ => Lockstep.ite unseen_makeDirty (.pure rfl)

/-- Copying the elements for use outside the session. -/
theorem settling_detachCopy (seen : Detachment) : Settling (detachCopy (E := E) seen) := by
  apply settling_snapshot.bind
  intro es
  have hdetach : Lockstep BothLoaded Eq Eq (Tracked.detach es seen : Action E Detachment)
      (Tracked.detach es seen) := by
    intro scene twin h
    obtain ⟨hanswer, hsessions⟩ := scene.value.tracker.resembles_detach h.sessions es seen
    have hasks : scene.value.tracker.Asks (fun _ => True) scene.session _ :=
      .detach es seen scene.session
    have hafter := h.asks hasks hsessions
    change Agree _ _ _
      (.ok (scene.value.tracker.detach es seen scene.session).1
        { scene with session := (scene.value.tracker.detach es seen scene.session).2 })
      (.ok (twin.value.tracker.detach es seen twin.session).1
        { twin with session := (twin.value.tracker.detach es seen twin.session).2 })
    rw [h.value] at hafter ⊢
    exact .ok hanswer.symm hafter
  apply hdetach.bind
  rintro copied _ rfl
  exact .pure rfl

/-- Taking over a value from outside the session. -/
theorem unseen_attachCopy (target : List E) : Unseen (attachCopy target) :=
  (unseen_attach target).bind fun _ => unseen_reconcile target

/-- Ordinary calls do not tell whether a queue was loaded before. -/
theorem Ordinary.unseen {action : Action E α} (h : Ordinary action) : Unseen action := by
  cases h with
  | length => exact unseen_length
  | isEmpty => exact unseen_length.bind fun _ => .pure rfl
  | contains e => exact unseen_contains e
  | containsAll es => exact settling_toList.unseen.bind fun _ => .pure rfl
  | toList => exact settling_toList.unseen
  | snapshot => exact settling_snapshot.unseen
  | toJson encode => exact settling_snapshot.unseen.bind fun _ => .pure rfl
  | peek => exact settling_peek.unseen
  | load => exact settling_ensureLoaded.unseen
  | loadFromStore => exact unseen_loadFromStore
  | initialise => exact unseen_initialise
  | updateEmbedded e field dirty => exact unseen_updateEmbedded e field dirty
  | detachCopy seen => exact (settling_detachCopy seen).unseen
  | attachCopy target => exact unseen_attachCopy target
  | reconcile attached => exact unseen_reconcile attached
  | makeDirty => exact unseen_makeDirty
  | add e => exact unseen_add e
  | addAll new => exact unseen_addAll new
  | poll => exact settling_poll.unseen
  | remove e => exact (settling_removeWith e true).unseen
  | removeWith e cascade => exact (settling_removeWith e cascade).unseen
  | removeAll es => exact unseen_removeAll es
  | retainAll keep => exact (settling_retainAll keep).unseen
  | clear => exact settling_clear.unseen

/-- What a queue is asked without being asked which elements are in memory, or whether those are all
of its elements. -/
inductive Discreet : {α : Type} → Action E α → Prop where
  | ordinary {α : Type} {action : Action E α} (h : Ordinary action) : Discreet action
  | look {α : Type} (question : TrackedQueue E → α) :
      Discreet (look fun q => question { q with
        content := { q.content with elements := [], loaded := false } })

/-- What is asked discreetly does not tell whether a queue was loaded before. -/
theorem Discreet.unseen {action : Action E α} (h : Discreet action) : Unseen action := by
  cases h with
  | ordinary h => exact h.unseen
  | look question =>
    intro scene twin hsiblings
    have hsame := congrArg (fun q : TrackedQueue E => question { q with
      content := { q.content with elements := [], loaded := false } }) hsiblings.filled.symm
    exact .ok hsame hsiblings

end TrackedFields.TrackedQueue
