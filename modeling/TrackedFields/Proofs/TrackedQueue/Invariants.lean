import TrackedFields.Proofs.Tracked.Asks
import TrackedFields.Proofs.TrackedQueue.Notices
import TrackedFields.Proofs.TrackedQueue.Shadowing
import TrackedFields.Proofs.UnsetOwner

/-!
# Invariants of queues

What a call of a queue is made of: it loads, it looks at its store unless it holds all its elements
in memory, it replaces its content, and it asks things of its session. The parts are told by the
elements in them, so that a property may be one of good elements only: what a queue passes on it
holds itself, found in its store, or has checked. A property that survives each of these parts
survives the calls that only look.
-/

namespace TrackedFields

namespace TrackedQueue

variable {E α β : Type} [DecidableEq E]

/-- A look at the store of a queue: at part of the container, or at the whole of it. -/
inductive StoreLook : Bool → {α : Type} → (ObjectId → StoreAction E α) → Prop where
  | size : StoreLook false Store.size
  | contains (e : E) : StoreLook false (Store.contains · e)
  | get (position : Nat) : StoreLook false (Store.get · position)
  | elements : StoreLook true Store.elements

/-- A look reads the store and does nothing else. -/
theorem StoreLook.onlyReads {whole : Bool} {action : ObjectId → StoreAction E α}
    (h : StoreLook whole action) (owner : ObjectId) : Store.OnlyReads (action owner) := by
  cases h with
  | size => exact Store.onlyReads_reading rfl _
  | contains e => exact Store.onlyReads_reading rfl _
  | get position => exact Store.onlyReads_reading rfl _
  | elements => exact Store.onlyReads_elements owner

omit [DecidableEq E] in
/-- What follows a look at the queue works with the queue as it is. -/
theorem stateAfter_current_bind (next : TrackedQueue E → Action E α)
    (scene : Scene (TrackedQueue E) E) :
    stateAfter (TrackedQueue.current >>= next) scene = stateAfter (next scene.value) scene := rfl

omit [DecidableEq E] in
/-- Filling the memory reads the whole store and, if that answers, takes over what it holds. -/
theorem keeps_loadFromStore {P : Scene (TrackedQueue E) E → Prop}
    (h : ∀ {scene name owner}, P scene → scene.value.tracker.channel = some (name, owner) →
      scene.value.content.loaded = false →
      let mid := stateAfter (read name (Store.elements owner)) scene
      P mid ∧ P { mid with
        value := { mid.value with
          content := { scene.value.content with
            elements := scene.value.content.order.sort ((scene.session.store name).contents owner)
            loaded := true } } }) : Keeps P (loadFromStore (E := E)) := by
  intro scene hscene
  rcases loadFromStore_skips_or_awaits scene with hskip | ⟨name, owner, hchannel, hloaded⟩
  · rwa [stateAfter_of_ok hskip]
  · obtain ⟨hmid, hfilled⟩ := h hscene hchannel hloaded
    cases hread : read name (Store.elements owner) scene with
    | error failure mid =>
      rw [stateAfter_of_error hread] at hmid
      rwa [stateAfter_of_error (loadFromStore_of_read_error hchannel hloaded hread)]
    | ok es mid =>
      rw [stateAfter_of_ok hread, ← contents_of_read_elements hread] at hfilled
      rwa [stateAfter_of_ok (loadFromStore_of_read hchannel hloaded hread)]

variable [Element E]

/-- A property that survives whatever the calls of a queue are made of, as long as they bring in
good elements only, and by which the elements at hand are good. -/
structure Invariant (good : E → Prop) (P : Scene (TrackedQueue E) E → Prop) : Prop where
  elements : ∀ {scene}, P scene → ∀ e ∈ scene.value.content.elements, good e
  stored : ∀ {scene name owner}, P scene → scene.value.tracker.channel = some (name, owner) →
    ∀ e ∈ (scene.session.store name).contents owner, good e
  checked : ∀ {scene e}, P scene → scene.value.tracker.check e = .ok () → good e
  load : Keeps P loadFromStore
  /-- A queue that holds all its elements in memory never looks, and one that keeps its content in
  memory never looks at the whole container. -/
  look : ∀ {scene name owner whole} {α : Type} {action : ObjectId → StoreAction E α}, P scene →
    StoreLook whole action → scene.value.tracker.channel = some (name, owner) →
    scene.value.isAuthoritative = false → (whole = true → scene.value.content.useCache = false) →
    P (stateAfter (read name (action owner)) scene)
  setContent : ∀ {scene} (content : QueueContent E), P scene →
    scene.value.content.Continues content → (∀ e ∈ content.elements, good e) →
    P { scene with value := { scene.value with content } }
  asks : ∀ {scene after}, P scene → scene.value.tracker.Asks good scene.session after →
    P { scene with session := after }

namespace Invariant

variable {good : E → Prop} {P : Scene (TrackedQueue E) E → Prop} (h : Invariant good P)
include h

/-! ### Parts of calls -/

/-- Loading what is kept in memory. -/
theorem ensureLoaded : Keeps P (ensureLoaded (E := E)) :=
  Keeps.content?.bind fun _ => h.load.ite (.pure ())

/-- A queue that is prepared has loaded what it keeps in memory. -/
theorem keeps_of_prepared {body : Unit → Action E α}
    (hbody : ∀ scene, P scene → Prepared scene.value → P (stateAfter (body ()) scene)) :
    Keeps P (TrackedQueue.ensureLoaded >>= body) := by
  intro scene hscene
  have hafter := h.ensureLoaded scene hscene
  rw [stateAfter_bind]
  cases hload : TrackedQueue.ensureLoaded scene with
  | error failure mid => rwa [stateAfter_of_error hload] at hafter
  | ok answer mid =>
    rw [stateAfter_of_ok hload] at hafter
    refine hbody mid hafter fun huse => ?_
    -- Loading a queue that uses its cache succeeds only if it is loaded then.
    have hidle := idle_ensureLoaded scene
    rw [stateAfter_of_ok hload] at hidle
    have hcached : scene.value.content.useCache = true := by
      rcases hidle.content with hsame | ⟨-, hcached, -⟩
      · rwa [← hsame]
      · exact hcached
    unfold isAuthoritative hasStore
    rw [hidle.tracker]
    cases hchannel : scene.value.tracker.channel with
    | none => rfl
    | some channel =>
      rw [ensureLoaded_apply, if_pos hcached] at hload
      rw [huse, loaded_of_loadFromStore (by rw [hasStore, hchannel]; rfl) hload]
      rfl

/-- Looking at the store, or at memory. -/
theorem readEither {scene : Scene (TrackedQueue E) E} (hscene : P scene) {whole fromStore : Bool}
    {action : ObjectId → StoreAction E α} (hlook : StoreLook whole action)
    (fromMemory : QueueContent E → α)
    (hfrom : fromStore = true → scene.value.hasStore = true →
      scene.value.isAuthoritative = false ∧
        (whole = true → scene.value.content.useCache = false)) :
    P (stateAfter (readEither fromStore action fromMemory) scene) := by
  cases hchannel : scene.value.tracker.channel with
  | none => rwa [stateAfter_of_ok (readEither_of_no_channel hchannel fromStore action fromMemory)]
  | some channel =>
    obtain ⟨name, owner⟩ := channel
    have hread := readEither_of_channel hchannel fromStore action fromMemory
    cases fromStore with
    | false => rwa [stateAfter_of_ok hread]
    | true =>
      have hstore : scene.value.hasStore = true := by
        rw [hasStore, hchannel]
        rfl
      obtain ⟨hpart, hwhole⟩ := hfrom rfl hstore
      have hafter := h.look hscene hlook hchannel hpart hwhole
      unfold stateAfter at hafter ⊢
      rwa [hread]

/-- A look that asks the store unless the queue holds all its elements in memory. -/
theorem readPart {action : ObjectId → StoreAction E α} (hlook : StoreLook false action)
    (fromMemory : QueueContent E → α) :
    Keeps P (do TrackedQueue.readEither (!(← current).isAuthoritative) action fromMemory) := by
  intro scene hscene
  apply h.readEither hscene hlook
  intro hfrom _
  exact ⟨by simpa using hfrom, nofun⟩

/-- A look that asks the store unless the queue keeps its content in memory. -/
theorem readUncached {whole : Bool} {action : ObjectId → StoreAction E α}
    (hlook : StoreLook whole action) (fromMemory : QueueContent E → α) :
    Keeps P (do TrackedQueue.readEither (!(← Tracked.content?).useCache) action fromMemory) := by
  intro scene hscene
  apply h.readEither hscene hlook
  intro hfrom hstore
  have huse : scene.value.content.useCache = false := by simpa using hfrom
  refine ⟨?_, fun _ => huse⟩
  rw [isAuthoritative, hstore, huse]
  rfl

/-- Replacing the elements in memory. -/
theorem setElements {es : List E} (hes : ∀ e ∈ es, good e) : Keeps P (setElements es) :=
  fun scene hscene => h.setContent { scene.value.content with elements := es } hscene
    ⟨rfl, rfl, id⟩ hes

/-- Making a change in the store. -/
theorem forward (operation : String) {action : ObjectId → StoreAction E α}
    (haction : Store.Write good action) : Keeps P (forward operation action) := by
  intro scene hscene
  change P { scene with session := (scene.value.tracker.forward operation action scene.session).2 }
  rcases Tracker.Asks.forward scene.value.tracker operation haction scene.session with
    hsame | hasks
  · rwa [hsame]
  · exact h.asks hscene hasks

/-- Calling the store. -/
theorem call (operation : String) {action : ObjectId → StoreAction E α}
    (haction : Store.Write good action) :
    Keeps P (Tracked.ask (fun t s => t.call operation action s) : Action E (Forwarded α)) :=
  fun scene hscene => h.asks hscene (.call operation haction scene.session)

/-- Reporting a change. -/
theorem announce {report : Report E} (hreport : ∀ kind ∈ report.operations, kind.Bears good) :
    Keeps P (announce report) :=
  fun scene hscene => h.asks hscene (.announce report hreport scene.session)

/-- Ending a change. -/
theorem changed : Keeps P (changed (E := E)) :=
  fun scene hscene => h.asks hscene (.changed scene.session)

/-- Marking the owning field. -/
theorem makeDirty : Keeps P (Tracked.makeDirty : Action E Unit) :=
  fun scene hscene => h.asks hscene (.markDirty scene.session)

/-- Taking in elements from outside the session. -/
theorem attach (es : List E) : Keeps P (Tracked.attach es : Action E Unit) :=
  fun scene hscene => h.asks hscene (.attach es scene.session)

/-! ### Looking -/

/-- The number of elements. -/
theorem length : Keeps P (length (E := E)) := h.readPart .size _

/-- Whether the queue has an element. -/
theorem contains (e : E) : Keeps P (contains e) := h.readPart (.contains e) _

/-- The elements in order. -/
theorem toList : Keeps P (toList (E := E)) :=
  h.ensureLoaded.bind fun _ => h.readUncached .elements _

/-- The head. -/
theorem peek : Keeps P (peek (E := E)) :=
  h.ensureLoaded.bind fun _ => h.readUncached (.get 0) _

/-- A snapshot of the content. -/
theorem snapshot : Keeps P (snapshot (E := E)) :=
  h.toList.bind fun _ => Keeps.content?.bind fun _ => .pure _

/-- Detaching a copy lists the elements, and changes nothing else. -/
theorem detachCopy (seen : Detachment) : Keeps P (detachCopy seen) := by
  refine h.snapshot.bind fun es => Keeps.bind (fun scene hscene => ?_) fun _ => .pure _
  exact h.asks hscene (.detach es seen scene.session)

/-- What a queue finds in memory or in its store is good. -/
theorem good_of_contains {e : E} {scene after : Scene (TrackedQueue E) E} (hscene : P scene)
    (hfound : TrackedQueue.contains e scene = .ok true after) : good e := by
  change TrackedQueue.readEither (!scene.value.isAuthoritative) (Store.contains · e)
    (·.elements.contains e) scene = _ at hfound
  cases hchannel : scene.value.tracker.channel with
  | none =>
    rw [readEither_of_no_channel hchannel] at hfound
    have hin := (EStateM.Result.ok.inj hfound).1
    exact h.elements hscene e (List.contains_iff_mem.mp hin)
  | some channel =>
    obtain ⟨name, owner⟩ := channel
    rw [readEither_of_channel hchannel] at hfound
    split at hfound
    · apply h.stored hscene hchannel e
      unfold read Session.access Store.contains at hfound
      rw [Store.reading_eq] at hfound
      cases hnow : (scene.session.store name).reads.now with
      | true =>
        rw [hnow] at hfound
        cases hfound
      | false =>
        rw [hnow] at hfound
        exact List.contains_iff_mem.mp (EStateM.Result.ok.inj hfound).1
    · have hin := (EStateM.Result.ok.inj hfound).1
      exact h.elements hscene e (List.contains_iff_mem.mp hin)

end Invariant

end TrackedQueue

end TrackedFields
