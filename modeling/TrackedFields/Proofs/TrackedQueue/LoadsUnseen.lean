import TrackedFields.Proofs.TrackedQueue.UnseenCalls

/-!
# Loading cannot be seen

A queue that keeps its content in memory answers before it is loaded what it answers afterwards: it
asks its store for what it does not hold, and it loads before anything depends on more. So a run of
calls may be interspersed with loads, and neither the answers nor what is left at the end tell them.
What is compared is what a queue holds once it is loaded; this is the same in both runs at any time.
-/

namespace TrackedFields.TrackedQueue

variable {E : Type} [DecidableEq E] {scene twin : Scene (TrackedQueue E) E}

/-- A flush does not change what loading makes of a queue that is loaded, or whose container no
waiting operation concerns. -/
theorem filled_flush (huse : scene.value.content.useCache = true) (default : Option StoreName)
    (h : ∀ name owner, scene.value.tracker.channel = some (name, owner) →
      scene.value.content.loaded = true ∨ scene.session.NoneWaits name owner) :
    filled { scene with session := stateAfter (Session.flush default) scene.session } =
      filled scene := by
  cases hwhole : scene.value.isAuthoritative with
  | true =>
    rw [filled_of_whole huse hwhole]
    exact filled_of_whole huse hwhole
  | false =>
    obtain ⟨name, owner, hchannel, hloaded⟩ := awaiting_of_part huse hwhole
    rcases h name owner hchannel with hwas | hnone
    · rw [hloaded] at hwas
      cases hwas
    · refine filled_congr rfl fun other owner' hchannel' => ?_
      rw [hchannel] at hchannel'
      cases hchannel'
      exact (Session.keeps_flush_of_noneWaits default name owner _ scene.session ⟨hnone, rfl⟩).2

/-- A flush of both sessions keeps two queues alike. -/
theorem Siblings.flush (h : Siblings scene twin) (default : Option StoreName) :
    Siblings { scene with session := stateAfter (Session.flush default) scene.session }
      { twin with session := stateAfter (Session.flush default) twin.session } where
  useCache := h.useCache
  readable name owner hchannel :=
    Session.reads_flush default scene.session (h.readable name owner hchannel)
  filled := by
    rw [filled_flush h.useCache default, filled_flush h.useCache' default, h.filled]
    · intro name owner hchannel
      rw [h.tracker] at hchannel
      rw [Session.NoneWaits, h.sessions.pending]
      exact (h.waiting name owner hchannel).imp_left And.right
    · exact fun name owner hchannel => (h.waiting name owner hchannel).imp_left And.left
  sessions := (Session.lockstep_flush default).stateAfter h.sessions
  waiting name owner hchannel := (h.waiting name owner hchannel).imp_right fun hnone =>
    (Session.keeps_flush_of_noneWaits default name owner _ scene.session ⟨hnone, rfl⟩).1

omit [DecidableEq E] in
/-- A change in what is known of the entities keeps two queues alike. -/
theorem Siblings.lifecycle (h : Siblings scene twin) (entities : Table ObjectId Entity) :
    Siblings { scene with session := { scene.session with entities } }
      { twin with session := { twin.session with entities } } where
  useCache := h.useCache
  readable := h.readable
  filled := h.filled
  sessions :=
    ⟨h.sessions.settings, h.sessions.transactionActive, h.sessions.pending, rfl, h.sessions.stores⟩
  waiting := h.waiting

variable [Element E]

/-- The same happens to two queues, or the second one alone is loaded. -/
inductive LoadStep : Scene (TrackedQueue E) E × Scene (TrackedQueue E) E →
    Scene (TrackedQueue E) E × Scene (TrackedQueue E) E → Prop where
  | call {scenes : Scene (TrackedQueue E) E × Scene (TrackedQueue E) E} {α : Type}
      {action : Action E α} (h : Discreet action) :
      LoadStep scenes (stateAfter action scenes.1, stateAfter action scenes.2)
  | flush {scenes : Scene (TrackedQueue E) E × Scene (TrackedQueue E) E}
      (default : Option StoreName) :
      LoadStep scenes
        ({ scenes.1 with session := stateAfter (Session.flush default) scenes.1.session },
          { scenes.2 with session := stateAfter (Session.flush default) scenes.2.session })
  | lifecycle {scenes : Scene (TrackedQueue E) E × Scene (TrackedQueue E) E}
      (entities : Table ObjectId Entity) :
      LoadStep scenes ({ scenes.1 with session := { scenes.1.session with entities } },
        { scenes.2 with session := { scenes.2.session with entities } })
  | load {scenes : Scene (TrackedQueue E) E × Scene (TrackedQueue E) E} :
      LoadStep scenes (scenes.1, stateAfter ensureLoaded scenes.2)

omit [DecidableEq E] [Element E] in
/-- A fresh queue and itself are alike, if nothing waits for its container. -/
theorem Siblings.fresh {o : Owner} (order : Comparator E) {session : Session E}
    (hcache : session.settings.usesCache o.descriptor = true)
    (hreads : ∀ name, Tracker.storeFor o session = some name →
      (session.store name).reads = .never)
    (hnone : ∀ name, Tracker.storeFor o session = some name → session.NoneWaits name o.id) :
    Siblings { value := owned o order session, session }
      { value := owned o order session, session } where
  useCache := hcache
  readable := (LoadsOnce.fresh order hcache hreads).readable
  filled := rfl
  sessions := .refl session
  waiting name owner hchannel := by
    obtain ⟨hstore, rfl⟩ := channel_owned hchannel
    exact .inr (hnone name hstore)

/-- Through every run that is interspersed with loads, two queues stay alike. -/
theorem Siblings.run {scenes after : Scene (TrackedQueue E) E × Scene (TrackedQueue E) E}
    (h : Siblings scenes.1 scenes.2) (hrun : Relation.ReflTransGen LoadStep scenes after) :
    Siblings after.1 after.2 := by
  induction hrun with
  | refl => exact h
  | tail _ step ih =>
    cases step with
    | call hcall => exact hcall.unseen.stateAfter ih
    | flush default => exact ih.flush default
    | lifecycle entities => exact ih.lifecycle entities
    | load =>
      obtain ⟨mid, hload, hsiblings⟩ := ih.exists_load
      rw [stateAfter_of_ok hload]
      exact hsiblings

end TrackedFields.TrackedQueue
