import TrackedFields.Proofs.TrackedSet.Mirrors

/-!
# Queued sets converge

A store is a list: it takes an element as often as it is told to, and knows of no set. A tracked
set therefore tells of an element exactly where its membership changes, so that its store lags
behind a listing of its members by what waits. A flush then makes the store list the members, each
once, whatever order the set goes through its members in.
-/

namespace TrackedFields.TrackedSet

variable {E : Type} [DecidableEq E]

/-- What can happen to a set and the session around it: a change of the set, a flush of the session,
or another order in which the set lists the same members. -/
inductive Call (E : Type) where
  | change (m : Mutator E)
  | flush
  | relist (members : ElementSet E)

/-- The scene in which a set lists its members as given, if they are its members. -/
def relisted (members : ElementSet E) (scene : Scene (TrackedSet E) E) : Scene (TrackedSet E) E :=
  if scene.value.content.same members then
    { scene with value := { scene.value with content := members } }
  else scene

section Followed

variable {o : Owner} {name : StoreName} {stores : Table StoreName (Store E)}
  {scene : Scene (TrackedSet E) E}

/-- A store follows a set in whatever order the set lists its members. -/
theorem Followed.relisted (h : Followed o name stores scene) (members : ElementSet E) :
    Followed o name stores (relisted members scene) := by
  rw [TrackedSet.relisted]
  split
  · next hsame =>
    obtain ⟨held, hheld, hbehind⟩ := h.behind
    have hmembers : scene.value.content.toList.Perm members.toList :=
      (List.perm_ext_iff_of_nodup scene.value.content.nodup members.nodup).mpr
        ((ElementSet.same_iff _ _).mp hsame)
    exact ⟨h.owner, h.dispatch, h.stores_eq, held, hheld.trans hmembers, hbehind⟩
  · exact h

/-- A flush empties the queue and makes the store list the members of the set, each once. -/
theorem Followed.flush (h : Followed o name stores scene) :
    ∃ after, Session.flush (some name) scene.session = .ok scene.session.pending.length after ∧
      after.pending = [] ∧
      ((after.store name).contents o.id).Perm scene.value.content.toList ∧
      Followed o name after.stores { scene with session := after } := by
  obtain ⟨held, hheld, hbehind⟩ := h.behind
  obtain ⟨after, hflush, hnil, hcontents, -, hafter⟩ := hbehind.flush rfl
  refine ⟨after, hflush, hnil, ?_, h.owner, h.dispatch, rfl, held, hheld, hafter⟩
  rw [hcontents]
  exact hheld

end Followed

variable [Element E]

/-- The scene that a call leaves; a flush has the named store as default. -/
def Call.run (name : StoreName) (scene : Scene (TrackedSet E) E) :
    Call E → Scene (TrackedSet E) E
  | change m => stateAfter m.run scene
  | flush => { scene with session := stateAfter (Session.flush (some name)) scene.session }
  | relist members => relisted members scene

/-- A store goes on following a set through all calls. -/
theorem followed_run {o : Owner} {name : StoreName} (calls : List (Call E))
    {scene : Scene (TrackedSet E) E} (h : Followed o name scene.session.stores scene) :
    Followed o name (calls.foldl (Call.run name) scene).session.stores
      (calls.foldl (Call.run name) scene) := by
  induction calls generalizing scene with
  | nil => exact h
  | cons call calls ih =>
    apply ih
    cases call with
    | change m =>
      have hafter := m.followed scene h
      rw [Call.run, hafter.stores_eq]
      exact hafter
    | flush =>
      obtain ⟨after, hflush, -, -, hafter⟩ := h.flush
      rw [Call.run, stateAfter_of_ok hflush]
      exact hafter
    | relist members =>
      have hafter := h.relisted members
      rw [Call.run, hafter.stores_eq]
      exact hafter

/-- A set that queues its changes converges with its store. After any run of changes and flushes,
whatever order the set lists its members in, a further change leaves all stores alone, and a
further flush carries out whatever waits, empties the queue and makes the store list the members of
the set, each once. -/
theorem queued_set_converges (o : Owner) (name : StoreName) (start : Scene (TrackedSet E) E)
    (hstart : Settled o name start) (calls : List (Call E)) :
    let scene := calls.foldl (Call.run name) start
    (∀ m : Mutator E, (stateAfter m.run scene).session.stores = scene.session.stores) ∧
      ∃ after, Session.flush (some name) scene.session = .ok scene.session.pending.length after ∧
        after.pending = [] ∧ ((after.store name).contents o.id).Nodup ∧
        ∀ e, e ∈ (after.store name).contents o.id ↔ e ∈ scene.value.content := by
  intro scene
  have hfollowed : Followed o name scene.session.stores scene := followed_run calls hstart.followed
  obtain ⟨after, hflush, hnil, hcontents, -⟩ := hfollowed.flush
  exact ⟨fun m => (m.followed scene hfollowed).stores_eq, after, hflush, hnil,
    hcontents.nodup_iff.mpr scene.value.content.nodup, fun e => hcontents.mem_iff⟩

/-- A set that is told the same element over and over, lists its members otherwise, and takes over
another set after a flush: two operations wait then. -/
theorem queued_set_converges_after_attach :
    let o : Owner := { id := .ofNat 7, descriptor := { name := "books", ordinal := ⟨3⟩ } }
    let start : Scene (TrackedSet Int32) Int32 := {
      value := { tracker := .unbacked o .queued, content := .ofList [1, 2] }
      session := { stores := Table.empty.set "books" (Store.seed {} o.id [2, 1]) } }
    let calls : List (Call Int32) := [
      .change (.addAll [3, 1, 3]), .change (.remove 2), .change (.remove 2), .flush,
      .relist (.ofList [3, 1]), .change (.attachCopy (.ofList [4, 1]))]
    let scene := calls.foldl (Call.run "books") start
    Settled o "books" start ∧ scene.value.content.toList = [1, 4] ∧
      scene.session.pending.length = 2 ∧
      (∀ m : Mutator Int32, (stateAfter m.run scene).session.stores = scene.session.stores) ∧
      ∃ after, Session.flush (some "books") scene.session = .ok scene.session.pending.length after ∧
        after.pending = [] ∧ ((after.store "books").contents o.id).Nodup ∧
        ∀ e, e ∈ (after.store "books").contents o.id ↔ e ∈ scene.value.content := by
  intro o start calls scene
  have hstart : Settled o "books" start :=
    ⟨rfl, rfl, Store.View.inOrder_of_none _ rfl, ⟨rfl, rfl⟩, rfl, by decide⟩
  have hscene : scene = calls.foldl (Call.run "books") start := rfl
  have hcontent : scene.value.content.toList = [1, 4] := by decide
  have hlength : scene.session.pending.length = 2 := by decide
  refine ⟨hstart, hcontent, hlength, ?_⟩
  rw [hscene]
  exact queued_set_converges o "books" start hstart calls

end TrackedFields.TrackedSet
