import TrackedFields.Proofs.TrackedQueue.LoadsOnce

/-!
# Queues that are served by their stores

A store is proper if it is reliable and keeps its containers by its rules. Whatever containers ask
of it and whatever a flush carries out there, it stays proper. A priority queue is served if it has
no store, or a proper one for which nothing waits but its own changes where it lets them wait.
Whatever is done with a served queue, it stays served.
-/

namespace TrackedFields

namespace Store

variable {E : Type}

/-- A reliable store that keeps its containers by its rules. -/
structure Proper (st : Store E) : Prop where
  inOrder : st.view.InOrder st.rules
  reliable : st.Reliable

variable {st after : Store E}

/-- A store that shows nothing of its calls stays proper. -/
theorem Proper.of_view_eq (h : st.Proper) (hview : after.view = st.view)
    (hcontinues : st.Continues after) : after.Proper := by
  refine ⟨?_, hcontinues.reliable h.reliable⟩
  rw [hview, hcontinues.rules]
  exact h.inOrder

/-- A silent call leaves a proper store. -/
theorem Proper.silent {α : Type} {action : StoreAction E α} (h : st.Proper)
    (hsilent : TrackedQueue.Silent action) : (stateAfter action st).Proper :=
  h.of_view_eq (hsilent st).1 (hsilent st).2

/-- A write that puts an arranged container in place leaves a proper store. -/
theorem Proper.put (h : st.Proper) (call : StoreCall E) (owner : ObjectId) (es : List E) :
    ((st.noted call).put owner (st.arrange es)).Proper := by
  refine ⟨fun cmp hcmp => ?_, h.reliable.reads, ((st.continues_noted call).reliable
    h.reliable).writes⟩
  obtain ⟨hlaws, hsorted⟩ := h.inOrder cmp hcmp
  refine ⟨hlaws, fun other => ?_⟩
  change cmp.Sorted (((st.noted call).put owner (st.arrange es)).contents other)
  rw [contents_put]
  split
  · have horder : st.order = some cmp := hcmp
    rw [arrange, horder]
    exact cmp.sorted_sort es
  · exact hsorted other

variable [DecidableEq E]

/-- Changes that containers make right away leave a proper store. -/
theorem survivesWrites_proper (owner : ObjectId) (good : E → Prop) :
    SurvivesWrites owner good (Proper (E := E)) where
  writing call change _ _ st h := by
    unfold stateAfter
    rw [writing_eq, h.reliable.writes, Outage.now_never, if_neg Bool.false_ne_true]
    cases change (st.contents owner) with
    | error e =>
      refine h.of_view_eq ?_ (st.continues_refused call owner)
      apply View.ext
      · exact funext fun other => st.contents_refused call owner other
      · rfl
    | ok result => exact h.put call owner result.2
  deletion cascade removed st h := by
    change Proper (if st.dependent && cascade then _ else st)
    split
    · exact ⟨h.inOrder, h.reliable.reads, h.reliable.writes⟩
    · exact h
  update e field st h := h.silent (TrackedQueue.silent_reading _ _)

/-- Carrying an operation out leaves a proper store. -/
theorem keeps_proper_perform (kind : OperationKind E) (owner : ObjectId) :
    Keeps Proper (kind.perform owner) :=
  (survivesWrites_proper owner fun _ => True).perform
    (fun _ h => h.silent (TrackedQueue.silent_reading _ _)) fun _ _ => trivial

end Store

namespace Session

variable {E : Type} [DecidableEq E]

omit [DecidableEq E] in
/-- A store stays proper if the one that is called does. -/
theorem proper_afterCalls {s : Session E} {name other : StoreName} {store : Store E}
    (h : (s.store other).Proper) (hstore : (s.store name).Proper → store.Proper) :
    ((s.afterCalls name store).store other).Proper := by
  rw [store_afterCalls]
  split
  · next hname => exact hstore (hname ▸ h)
  · exact h

/-- A flush leaves a proper store, wherever it stops. -/
theorem proper_flush (default : Option StoreName) (name : StoreName) :
    Keeps (fun s : Session E => (s.store name).Proper) (flush default) := by
  refine keeps_flush default (fun {s operation rest} h _ => ?_) fun h _ => h
  rw [stateAfter_replay]
  split
  · exact h
  · exact proper_afterCalls h (Store.keeps_proper_perform operation.kind operation.owner _)

/-- What waits after a flush waited before. -/
theorem pending_flush_subset (default : Option StoreName) (s : Session E) :
    (stateAfter (flush default) s).pending ⊆ s.pending := by
  refine keeps_flush (P := fun after => after.pending ⊆ s.pending) default
    (fun {after operation rest} h _ => ?_) (fun {after operation rest} h hpending => ?_) s
    (List.Subset.refl _)
  · rw [stateAfter_replay]
    split <;> exact h
  · exact List.Subset.trans (hpending ▸ List.subset_cons_self operation rest) h

end Session

namespace TrackedQueue

variable {E α : Type}

/-- A queue that has no store, or a proper one; if the queue lets its changes wait for that, nothing
else waits in its session. -/
structure Served (scene : Scene (TrackedQueue E) E) : Prop where
  proper : ∀ {name owner}, scene.value.tracker.channel = some (name, owner) →
    (scene.session.store name).Proper
  waiting : ∀ {name owner}, scene.value.tracker.channel = some (name, owner) →
    scene.value.tracker.isQueued = true → ∀ operation ∈ scene.session.pending,
      operation.owner = owner ∧ operation.store = some name

namespace Served

variable {scene after : Scene (TrackedQueue E) E}

/-- A fresh queue is served, if its store is proper and nothing waits. -/
theorem fresh {o : Owner} (order : Comparator E) {session : Session E}
    (hproper : ∀ name, Tracker.storeFor o session = some name → (session.store name).Proper)
    (hpending : session.pending = []) : Served ⟨owned o order session, session⟩ := by
  refine ⟨fun hchannel => hproper _ (channel_owned hchannel).1, fun _ _ => ?_⟩
  rw [hpending]
  exact nofun

/-- A fresh queue is served by a store that was seeded once, if nothing waits. -/
theorem seeded {o : Owner} {cmp : Comparator E} [Std.TransCmp cmp] {session : Session E}
    {name : StoreName} {es : List E} (hname : Tracker.storeFor o session = some name)
    (hstore : session.store name = Store.seed { order := some cmp } o.id es)
    (hpending : session.pending = []) : Served ⟨owned o cmp session, session⟩ := by
  refine fresh cmp (fun other hother => ?_) hpending
  obtain rfl := Option.some.inj (hname.symm.trans hother)
  rw [hstore]
  exact ⟨Store.inOrder_seed_new cmp false o.id es, rfl, rfl⟩

/-- The store of a served queue rejects no read. -/
theorem readable (h : Served scene) : Readable scene :=
  fun _ _ hchannel => (h.proper hchannel).reliable.reads

/-- What a queue keeps in memory does not matter. -/
theorem setContent (h : Served scene) (content : QueueContent E) :
    Served { scene with value := { scene.value with content } } := ⟨h.proper, h.waiting⟩

/-- The session of a queue that lets its changes wait is dedicated to it. -/
theorem dedicated (h : Served scene) {name : StoreName} {owner : ObjectId}
    (hchannel : scene.value.tracker.channel = some (name, owner))
    (hqueued : scene.value.tracker.isQueued = true) : scene.session.Dedicated name owner :=
  ⟨(h.proper hchannel).inOrder, (h.proper hchannel).reliable, h.waiting hchannel hqueued⟩

/-- A queue stays served as long as its store stays proper and no operation joins those that
wait. -/
theorem of_pending_subset (h : Served scene) {s : Session E}
    (hproper : ∀ name, (scene.session.store name).Proper → (s.store name).Proper)
    (hpending : s.pending ⊆ scene.session.pending) : Served { scene with session := s } :=
  ⟨fun hchannel => hproper _ (h.proper hchannel),
    fun hchannel hqueued operation hmem => h.waiting hchannel hqueued operation (hpending hmem)⟩

/-- A silent call of a store leaves a queue served. -/
theorem read (h : Served scene) (name : StoreName) {action : StoreAction E α}
    (hsilent : Silent action) : Served (stateAfter (TrackedQueue.read name action) scene) := by
  rw [stateAfter_read]
  exact h.of_pending_subset (fun _ hproper => Session.proper_afterCalls hproper (·.silent hsilent))
    (List.Subset.refl _)

variable [DecidableEq E]

/-- A flush leaves a queue served, wherever it stops. -/
theorem flush (h : Served scene) (default : Option StoreName) :
    Served { scene with session := stateAfter (Session.flush default) scene.session } :=
  h.of_pending_subset (fun name => Session.proper_flush default name scene.session)
    (Session.pending_flush_subset default scene.session)

variable [Element E]

/-- Whatever a queue asks of its session leaves it served. -/
theorem asks {good : E → Prop} (h : Served scene) {s : Session E}
    (hasks : scene.value.tracker.Asks good scene.session s) :
    Served { scene with session := s } := by
  rcases hasks.queued_or_written with
    ⟨kinds, -, hpending, hstores⟩ | ⟨name, owner, β, action, -, hwrite, hpending, hstores⟩
  · refine ⟨fun hchannel => ?_, fun {name owner} hchannel hqueued operation hmem => ?_⟩
    · rw [Session.store_of_stores_eq hstores]
      exact h.proper hchannel
    · rw [hpending] at hmem
      rcases List.mem_append.mp hmem with hmem | hmem
      · exact h.waiting hchannel hqueued operation hmem
      · -- What joins the queue is for the store of the queue.
        obtain ⟨o, ho, hid, hdispatch⟩ := Tracker.exists_owner_of_channel hchannel
        have hname : scene.value.tracker.dispatch = .queued (some name) := by
          refine hdispatch.resolve_right fun hname => ?_
          have hnot : scene.value.tracker.isQueued = true := hqueued
          rw [Tracker.isQueued, hname] at hnot
          cases hnot
        rw [Tracker.queued_eq_map ho hname] at hmem
        obtain ⟨kind, -, rfl⟩ := List.mem_map.mp hmem
        exact ⟨hid, rfl⟩
  · refine h.of_pending_subset (fun other hproper => ?_) (hpending ▸ List.Subset.refl _)
    rw [Session.store_of_stores_eq hstores]
    exact Session.proper_afterCalls hproper
      ((Store.survivesWrites_proper owner good).write hwrite _)

end Served

variable [DecidableEq E] [Element E]

/-- Whatever a call is made of leaves a queue served. -/
theorem invariant_served : Invariant (fun _ => True) (Served (E := E)) where
  elements _ _ _ := trivial
  stored _ _ _ _ := trivial
  checked _ _ := trivial
  load := keeps_loadFromStore fun {_ name owner} h _ _ =>
    have hmid := h.read name (silent_elements owner)
    ⟨hmid, hmid.setContent _⟩
  look {_ name owner _ _ _} h hlook _ _ _ := by
    cases hlook with
    | size => exact h.read name (silent_reading _ _)
    | contains e => exact h.read name (silent_reading _ _)
    | get position => exact h.read name (silent_reading _ _)
    | elements => exact h.read name (silent_elements owner)
  setContent content h _ _ := h.setContent content
  asks h hasks := h.asks hasks

/-- A queue stays served in any run. -/
theorem Served.run {takes : List E → Prop} {scene after : Scene (TrackedQueue E) E}
    (h : Served scene) (hrun : Relation.ReflTransGen (Tracked.Step (Admits takes)) scene after) :
    Served after := by
  induction hrun with
  | refl => exact h
  | @tail mid _ _ step ih =>
    cases step with
    | call hcall =>
      exact invariant_served.admits (fun _ _ => ⟨nofun, nofun⟩) (fun _ _ _ _ => trivial) hcall
        mid ih
    | flush default => exact ih.flush default
    | lifecycle entities => exact ⟨ih.proper, ih.waiting⟩

end TrackedQueue

end TrackedFields
