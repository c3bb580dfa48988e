import TrackedFields.Proofs.TrackedQueue.HintedCalls

/-!
# Which size hints of a queue are true

A loaded priority queue that keeps its content in memory tells its store, with each single addition
and removal, how many elements it has in memory. The store holds as many as long as memory and store
agree. The hint goes on with the additions that are made one by one in bulk, and with those and the
removals by which a value is attached. It does not go on with removals in bulk: they all carry the
size before the first one, so that the second one that finds its element is told too much.
-/

namespace TrackedFields.TrackedQueue

variable {E : Type} [DecidableEq E] {o : Owner} {name : StoreName} {calls : List (StoreCall E)}
  {es next : List E} {scene after : Scene (TrackedQueue E) E}

/-! ### All calls -/

section AllCalls

variable [Element E]

/-- The copies that a call removes in bulk from the elements in memory. -/
def Call.copies (shown : List E) : Call E → List E
  | .removeAll doomed => shown.filter doomed.contains
  | .retainAll keep => shown.filter fun e => !keep.contains e
  | _ => []

/-- The calls of the store that come of a call of a queue. -/
def Call.sent (scene : Scene (TrackedQueue E) E) (call : Call E) : List (StoreCall E) :=
  let t := scene.value.tracker
  let shown := scene.value.content.elements
  match call with
  | .load => []
  | .add e => Store.additions shown.length (admitted t [e])
  | .addAll new =>
    Store.additions shown.length ((admitted t new).take (Word.sizeLimit - shown.length))
  | .poll => [.removeAt 0 (some shown.length)]
  | .remove e => [.remove e (some shown.length) true]
  | .removeWith e cascade => [.remove e (some shown.length) cascade]
  | .removeAll _ | .retainAll _ => Store.removals shown.length (call.copies shown)
  | .clear => [.clear]
  | .attachCopy target =>
    let gone := leaving target shown
    Store.withdrawals shown.length gone ++
      Store.additions (shown.length - gone.length) (joining t target shown)
  | .initialiseWith new =>
    if replacementReachesStore scene.value scene.session then
      .clear :: Store.additions 0 (new.take Word.sizeLimit)
    else []

/-- The size hints of the single calls that come of a call of a queue all tell the size that the
owner's container has in the store right before the single call. -/
def Call.HintsTrue (o : Owner) (name : StoreName) (scene : Scene (TrackedQueue E) E)
    (call : Call E) : Prop :=
  (scene.session.store name).HintsTrue o.id
    (scene.session.callsSince name (stateAfter call.run scene).session)

/-- When the size hints of a call are true. Most calls need no more than that the store holds as
many elements as the memory. Loading, clearing and replacing the value tell no size that could be
wrong. Of a bulk removal, only the last copy may be found in the store; to attach a value, each copy
that is taken out before some other call has to be found there. -/
def Call.CountsRight (o : Owner) (name : StoreName) (scene : Scene (TrackedQueue E) E)
    (call : Call E) : Prop :=
  let t := scene.value.tracker
  let shown := scene.value.content.elements
  let stored := held o name scene
  match call with
  | .load | .clear | .initialiseWith _ => True
  | .add e => admitted t [e] = [] ∨ shown.length = stored.length
  | .addAll new =>
    (admitted t new).take (Word.sizeLimit - shown.length) = [] ∨ shown.length = stored.length
  | .poll | .remove _ | .removeWith _ _ => shown.length = stored.length
  | .removeAll _ | .retainAll _ =>
    call.copies shown = [] ∨
      shown.length = stored.length ∧ ∀ e ∈ (call.copies shown).dropLast, e ∉ stored
  | .attachCopy target =>
    let gone := leaving target shown
    let new := joining t target shown
    gone = [] ∧ new = [] ∨
      shown.length = stored.length ∧ (Store.followed gone new).Subperm stored

omit [Element E] in
/-- What an action that goes well sends does not depend on its answer. -/
theorem Sent.of_ok {α : Type} {action : Action E α}
    (hrun : ∃ answer after, action scene = .ok answer after ∧
      Sent o name calls next scene after) :
    Sent o name calls next scene (stateAfter (discard action) scene) := by
  obtain ⟨answer, after, hrun, hsent⟩ := hrun
  rwa [stateAfter_discard, stateAfter_of_ok hrun]

namespace Hinting

variable (h : Hinting o name scene)

include h

omit [Element E] in
/-- Loading sends nothing to a loaded queue's store. -/
theorem sent_load : Sent o name [] scene.value.content.elements scene
    (stateAfter TrackedQueue.ensureLoaded scene) := by
  rw [stateAfter_of_ok (ensureLoaded_of_whole h.isAuthoritative)]
  exact .refl o name scene

/-- Adding an element sends it, unless it is refused. -/
theorem sent_add (e : E) : ∃ next,
    Sent o name (Store.additions scene.value.content.elements.length
      (admitted scene.value.tracker [e])) next scene (stateAfter (TrackedQueue.add e) scene) := by
  rw [admitted_singleton]
  cases haccepted : accepted scene.value.tracker e with
  | true =>
    obtain ⟨answer, after, hadd, hsent⟩ := h.add_of_accepted haccepted
    rw [stateAfter_of_ok hadd]
    exact ⟨_, hsent⟩
  | false =>
    obtain ⟨failure, hadd⟩ := add_of_refused haccepted
    rw [stateAfter_of_error hadd]
    exact ⟨_, .refl o name scene⟩

/-- Adding several elements sends them, as far as they can be counted, unless one is refused. -/
theorem sent_addAll (new : List E) : ∃ next,
    Sent o name (Store.additions scene.value.content.elements.length
      ((admitted scene.value.tracker new).take
        (Word.sizeLimit - scene.value.content.elements.length))) next scene
      (stateAfter (TrackedQueue.addAll new) scene) := by
  have hchecked : stateAfter (TrackedQueue.addAll new) scene = _ := stateAfter_checked new
    (if new.isEmpty then pure false
      else TrackedQueue.addUnchecked "add-all" (Store.addAll · new ·) new) scene
  rw [admitted, hchecked]
  split
  · rw [List.take_nil]
    exact ⟨_, .refl o name scene⟩
  · split
    · next hempty =>
      rw [List.isEmpty_iff.mp hempty, List.take_nil]
      exact ⟨_, .refl o name scene⟩
    · rw [← stateAfter_discard]
      exact ⟨_, .of_ok (h.addUnchecked "add-all" (Store.addAll · new ·) new
        (Store.stateAfter_addAll h.reliable _ _))⟩

omit [Element E] in
/-- Removing listed elements sends the removal of each copy, and so nothing if none is listed. -/
theorem sent_removeAll (doomed : List E) : ∃ next,
    Sent o name (Store.removals scene.value.content.elements.length
      (scene.value.content.elements.filter doomed.contains)) next scene
      (stateAfter (TrackedQueue.removeAll doomed) scene) := by
  unfold TrackedQueue.removeAll
  split
  · next hempty =>
    have hnone : Store.removals scene.value.content.elements.length
        (scene.value.content.elements.filter doomed.contains) = [] := by
      rw [List.isEmpty_iff.mp hempty]
      simp [Store.removals]
    rw [hnone]
    exact ⟨_, .refl o name scene⟩
  · rw [← stateAfter_discard]
    exact ⟨_, .of_ok (h.removeListed doomed)⟩

/-- The calls that come of a call, on a queue that tells its size. -/
theorem sent_run (call : Call E) :
    ∃ next, Sent o name (call.sent scene) next scene (stateAfter call.run scene) := by
  cases call with
  | load => exact ⟨_, h.sent_load⟩
  | add e =>
    rw [Call.run, stateAfter_discard]
    exact h.sent_add e
  | addAll new =>
    rw [Call.run, stateAfter_discard]
    exact h.sent_addAll new
  | poll => exact ⟨_, .of_ok h.poll⟩
  | remove e => exact ⟨_, .of_ok (h.removeWith e true)⟩
  | removeWith e cascade => exact ⟨_, .of_ok (h.removeWith e cascade)⟩
  | removeAll doomed =>
    rw [Call.run, stateAfter_discard]
    exact h.sent_removeAll doomed
  | retainAll keep =>
    obtain ⟨answer, after, hretain, hsent⟩ := h.retainAll keep
    rw [Call.run, stateAfter_discard, stateAfter_of_ok hretain]
    exact ⟨_, hsent⟩
  | clear =>
    obtain ⟨after, hclear, hsent⟩ := h.clear
    rw [Call.run, stateAfter_of_ok hclear]
    exact ⟨_, hsent⟩
  | attachCopy target => exact h.attachCopy target
  | initialiseWith new => exact ⟨_, h.initialiseWith new⟩

end Hinting

omit [Element E] in
/-- Whatever is called, the calls of the store are all made on the container of the owner. -/
theorem Sent.callsSince_eq (h : Sent o name calls es scene after) :
    scene.session.callsSince name after.session = calls := by
  rw [Session.callsSince, h.store, Store.calls_remade, List.drop_left]

/-- When the size hints of a call are true, on a queue that tells its size. -/
theorem Hinting.hintsTrue_iff (h : Hinting o name scene) (call : Call E) :
    call.HintsTrue o name scene ↔ call.CountsRight o name scene := by
  obtain ⟨next, hsent⟩ := h.sent_run call
  unfold Call.HintsTrue
  rw [hsent.callsSince_eq]
  cases call with
  | load => exact iff_of_true (Store.hintsTrue_nil _ _) trivial
  | add e => exact Store.hintsTrue_additions h.reliable _ _
  | addAll new => exact Store.hintsTrue_additions h.reliable _ _
  | poll => exact Store.hintsTrue_singleton rfl
  | remove e => exact Store.hintsTrue_singleton rfl
  | removeWith e cascade => exact Store.hintsTrue_singleton rfl
  | removeAll doomed => exact Store.hintsTrue_removals h.reliable _ _
  | retainAll keep => exact Store.hintsTrue_removals h.reliable _ _
  | clear =>
    refine iff_of_true ((Store.hintsTrue_cons_of_none rfl []).mpr ?_) trivial
    exact Store.hintsTrue_nil _ _
  | attachCopy target =>
    exact Store.hintsTrue_exchange h.reliable _ _ _ (List.length_filter_le _ _)
  | initialiseWith new =>
    refine iff_of_true ?_ trivial
    unfold Call.sent
    dsimp only
    split
    · rw [Store.hintsTrue_cons_of_none rfl]
      have hreliable := (Store.continues_remade o.id (scene.session.store name) [.clear]).reliable
        h.reliable
      rw [Store.hintsTrue_additions hreliable, Store.contents_clear h.reliable]
      exact .inr rfl
    · exact Store.hintsTrue_nil _ _

/-! ### Runs -/

/-- Whether a call, if it replaces the value, writes the replacement to the store, as a value that
can be counted by a word. -/
def Call.Written (scene : Scene (TrackedQueue E) E) : Call E → Prop
  | .initialiseWith new =>
    replacementReachesStore scene.value scene.session = true ∧ new.length ≤ Word.sizeLimit
  | _ => True

/-- What can happen to a queue without parting memory and store: a call, as long as it stays
countable and a replaced value is written; taking over a value that the store holds already; and all
that happens around the queue, such as a look at it once it is loaded, a change of the entities or a
flush, as long as it leaves the owner's container alone. -/
inductive LevelStep (cmp : Comparator E) (o : Owner) (name : StoreName) :
    Scene (TrackedQueue E) E → Scene (TrackedQueue E) E → Prop where
  | call {scene : Scene (TrackedQueue E) E} (call : Call E) (written : call.Written scene)
      (countable : call.Countable (held o name scene)) :
      LevelStep cmp o name scene (stateAfter call.run scene)
  | taken {scene : Scene (TrackedQueue E) E} (es : List E) (h : cmp.sort es = held o name scene) :
      LevelStep cmp o name scene (stateAfter (initialiseFrom es) scene)
  | around {scene : Scene (TrackedQueue E) E} {s : Session E}
      (continues : (scene.session.store name).Continues (s.store name))
      (contents : (s.store name).contents o.id = held o name scene) :
      LevelStep cmp o name scene { scene with session := s }

variable {cmp : Comparator E} [Std.TransCmp cmp]

omit [Element E] in
/-- A replacement that is written leaves a direct queue direct. -/
private theorem Direct.initialiseWith (h : Direct cmp o name scene) {new : List E}
    (hcount : new.length ≤ Word.sizeLimit)
    (hreaches : replacementReachesStore scene.value scene.session = true) :
    Direct cmp o name (stateAfter (TrackedQueue.initialiseWith new) scene) := by
  have hsends := sends_replaced h.owner (.inl h.dispatch) h.reliable hcount
  have hfits : (scene.session.rules name).Fits ((scene.session.store name).contents o.id) := by
    intro order horder
    have hsame : cmp = order := Option.some.inj (h.storeOrder.symm.trans horder)
    exact hsame ▸ h.sorted
  have hcontents : ((replaced scene.value new scene.session).store name).contents o.id =
      cmp.sort new := by
    obtain ⟨-, hmade⟩ := hsends.made h.dispatch
    rw [replacing, OperationKind.carryOutAll_kept hfits rfl (List.nil_sublist _),
      OperationKind.carryOutAll_inserted h.storeOrder .nil, cmp.insertAll_nil] at hmade
    exact (Option.some.inj hmade).symm
  rw [stateAfter_of_ok (initialiseWith_apply new scene), if_pos hreaches]
  have hstore := Session.store_of_stores_eq
    (scene.value.tracker.stores_markDirty (replaced scene.value new scene.session)) name
  refine ⟨h.owner, h.dispatch, h.order, ?_, ?_, ?_, fun _ _ => ?_⟩
  · rw [hstore]
    exact (congrArg Store.Rules.order hsends.continues.rules).trans h.storeOrder
  · rw [hstore]
    exact hsends.continues.reliable h.reliable
  · rw [hstore, hcontents]
    exact cmp.sorted_sort new
  · rw [hstore, hcontents, h.order]

/-- A step leaves a direct queue direct. -/
theorem LevelStep.direct (step : LevelStep cmp o name scene after) (h : Direct cmp o name scene) :
    Direct cmp o name after := by
  cases step with
  | call call written countable =>
    cases call with
    | poll =>
      rw [Call.run, stateAfter_discard]
      exact h.of_settles fun p _ => ⟨_, comesTo_poll p _⟩
    | attachCopy target =>
      refine h.of_settles fun p hp => ?_
      subst hp
      exact settles_attachCopy _ target
    | initialiseWith new => exact h.initialiseWith written.2 written.1
    | load => exact h.call (.inr rfl) countable
    | add e => exact h.call (.inl trivial) countable
    | addAll new => exact h.call (.inl trivial) countable
    | remove e => exact h.call (.inl trivial) countable
    | removeWith e cascade => exact h.call (.inl trivial) countable
    | removeAll doomed => exact h.call (.inl trivial) countable
    | retainAll keep => exact h.call (.inl trivial) countable
    | clear => exact h.call (.inl trivial) countable
  | taken es hes =>
    refine ⟨h.owner, h.dispatch, h.order, h.storeOrder, h.reliable, h.sorted, fun _ _ => ?_⟩
    change scene.value.content.order.sort es = held o name scene
    rw [h.order, hes]
  | around continues contents =>
    refine ⟨h.owner, h.dispatch, h.order, ?_, continues.reliable h.reliable, ?_, ?_⟩
    · exact (congrArg Store.Rules.order continues.rules).trans h.storeOrder
    · rw [contents]
      exact h.sorted
    · rw [contents]
      exact h.cached

/-- A queue stays direct in any run. -/
theorem direct_run {start : Scene (TrackedQueue E) E} (hstart : Direct cmp o name start)
    (hrun : Relation.ReflTransGen (LevelStep cmp o name) start scene) :
    Direct cmp o name scene := by
  induction hrun with
  | refl => exact hstart
  | tail _ step ih => exact step.direct ih

omit [DecidableEq E] [Element E] [Std.TransCmp cmp] in
/-- A loaded direct queue that keeps its content in memory tells its size. -/
theorem Direct.hinting (h : Direct cmp o name scene) (huse : scene.value.content.useCache = true)
    (hloaded : scene.value.content.loaded = true) : Hinting o name scene :=
  ⟨h.owner, h.dispatch, huse, hloaded, h.reliable⟩

omit [DecidableEq E] [Element E] in
/-- The copies that are found in a list, up to the last one, are none if there is one copy at
most. -/
private theorem lengthLE_one_iff {copies shown : List E} (hcopies : copies ⊆ shown) :
    copies = [] ∨ shown.length = shown.length ∧ (∀ e ∈ copies.dropLast, e ∉ shown) ↔
      copies.length ≤ 1 := by
  rcases copies with - | ⟨e, - | ⟨a, copies⟩⟩
  · simp
  · simp
  · have he : e ∈ shown := hcopies List.mem_cons_self
    simp [he]

omit [Std.TransCmp cmp] in
/-- If memory and store hold the same, only bulk removals of several copies tell wrong sizes. -/
theorem Direct.countsRight_iff (h : Direct cmp o name scene)
    (huse : scene.value.content.useCache = true) (hloaded : scene.value.content.loaded = true)
    (call : Call E) :
    call.CountsRight o name scene ↔ (call.copies scene.value.content.elements).length ≤ 1 := by
  have hsame : held o name scene = scene.value.content.elements := (h.cached huse hloaded).symm
  unfold Call.CountsRight
  dsimp only
  rw [hsame]
  cases call with
  | load | clear | initialiseWith => exact iff_of_true trivial (Nat.zero_le 1)
  | add | addAll => exact iff_of_true (.inr rfl) (Nat.zero_le 1)
  | poll | remove | removeWith => exact iff_of_true rfl (Nat.zero_le 1)
  | removeAll doomed => exact lengthLE_one_iff List.filter_sublist.subset
  | retainAll keep => exact lengthLE_one_iff List.filter_sublist.subset
  | attachCopy target =>
    refine iff_of_true (.inr ⟨rfl, ?_⟩) (Nat.zero_le 1)
    have hgone : (leaving target scene.value.content.elements).Sublist
        scene.value.content.elements := List.filter_sublist
    unfold Store.followed
    split
    · exact ((List.dropLast_sublist _).trans hgone).subperm
    · exact hgone.subperm

/-- When size hints tell the truth. Of a loaded queue that keeps its content in memory and makes its
changes right away in a reliable store, every call leaves the store that its single calls, made one
by one on the owner's container, lead to; and it is said which calls these are, and when each of
them is told the size that the container has right before it. As long as memory and store were never
parted, this is so for all calls but one kind: those that remove two or more copies in bulk. -/
theorem size_hints_true_iff (cmp : Comparator E) [Std.TransCmp cmp] (o : Owner)
    (name : StoreName) :
    (∀ scene, Hinting o name scene → ∀ call : Call E,
      let after := stateAfter call.run scene
      let sent := scene.session.callsSince name after.session
      sent = call.sent scene ∧
        after.session.store name = (scene.session.store name).remade o.id sent ∧
        (call.HintsTrue o name scene ↔ call.CountsRight o name scene)) ∧
    ∀ start scene, Direct cmp o name start →
      Relation.ReflTransGen (LevelStep cmp o name) start scene →
      scene.value.content.useCache = true → scene.value.content.loaded = true →
      ∀ call : Call E, call.HintsTrue o name scene ↔
        (call.copies scene.value.content.elements).length ≤ 1 := by
  refine ⟨fun scene h call => ?_, fun start scene hstart hrun huse hloaded call => ?_⟩
  · obtain ⟨next, hsent⟩ := h.sent_run call
    refine ⟨hsent.callsSince_eq, ?_, h.hintsTrue_iff call⟩
    rw [hsent.callsSince_eq]
    exact hsent.store
  · have hdirect := direct_run hstart hrun
    exact ((hdirect.hinting huse hloaded).hintsTrue_iff call).trans
      (hdirect.countsRight_iff huse hloaded call)

end AllCalls

/-- A queue of 1 and 2 that has loaded its content: the hint goes on from addition to addition, and
a bulk removal of one copy tells the right size. -/
theorem size_hints_true_of_additions :
    let cmp : Comparator Int32 := compareOn Int32.toInt
    let o : Owner := { id := .ofNat 7, descriptor := { name := "scores", ordinal := ⟨2⟩ } }
    let session : Session Int32 := {
      entities := Table.empty.set o.id { typeName := "Game" }
      stores := Table.empty.set "scores" (Store.seed { order := some cmp } o.id [1, 2])
      registry := Table.empty.set (o.id, o.field) "scores" }
    let start : Scene (TrackedQueue Int32) Int32 := ⟨owned o cmp session, session⟩
    let scene := stateAfter (Call.run .load) start
    let added := scene.session.callsSince "scores"
      (stateAfter (Call.run (.addAll [3, 0])) scene).session
    Direct cmp o "scores" start ∧
      Relation.ReflTransGen (LevelStep cmp o "scores") start scene ∧
      Hinting o "scores" scene ∧
      added = [.add 3 (some 2), .add 0 (some 3)] ∧
      Call.HintsTrue o "scores" scene (.addAll [3, 0]) ∧
      Call.HintsTrue o "scores" scene (.removeAll [2]) := by
  intro cmp o session start scene added
  have hstart : Direct cmp o "scores" start :=
    ⟨rfl, rfl, rfl, rfl, ⟨rfl, rfl⟩,
      (Store.inOrder_seed_new cmp false o.id [1, 2] cmp rfl).2 o.id, nofun⟩
  have hrun : Relation.ReflTransGen (LevelStep cmp o "scores") start scene :=
    .single (.call .load trivial trivial)
  have huse : scene.value.content.useCache = true := by cbv
  have hloaded : scene.value.content.loaded = true := by cbv
  have hhinting := (direct_run hstart hrun).hinting huse hloaded
  obtain ⟨hall, hruns⟩ := size_hints_true_iff cmp o "scores"
  obtain ⟨hsent, -, -⟩ := hall scene hhinting (.addAll [3, 0])
  have hexact : Call.sent scene (.addAll [3, 0]) = [.add 3 (some 2), .add 0 (some 3)] := by cbv
  have hone : (Call.copies scene.value.content.elements (.removeAll [2])).length ≤ 1 := by cbv
  exact ⟨hstart, hrun, hhinting, hsent.trans hexact,
    (hruns start scene hstart hrun huse hloaded _).mpr (Nat.zero_le 1),
    (hruns start scene hstart hrun huse hloaded _).mpr hone⟩

/-- A bulk removal of two elements tells the store a size of two both times, although it holds one
element when the second removal is made. And once a value was replaced without being written, an
addition tells the size of the new value. -/
theorem size_hints_wrong_in_bulk :
    let cmp : Comparator Int32 := compareOn Int32.toInt
    let o : Owner := { id := .ofNat 7, descriptor := { name := "scores", ordinal := ⟨2⟩ } }
    let session : Session Int32 := {
      entities := Table.empty.set o.id { typeName := "Game" }
      stores := Table.empty.set "scores" (Store.seed { order := some cmp } o.id [1, 2])
      registry := Table.empty.set (o.id, o.field) "scores" }
    let start : Scene (TrackedQueue Int32) Int32 := ⟨owned o cmp session, session⟩
    let scene := stateAfter (Call.run .load) start
    let parted := stateAfter (Call.run (.initialiseWith [3])) scene
    let sent (scene : Scene (TrackedQueue Int32) Int32) (call : Call Int32) :=
      scene.session.callsSince "scores" (stateAfter call.run scene).session
    (Direct cmp o "scores" start ∧ Relation.ReflTransGen (LevelStep cmp o "scores") start scene ∧
      Hinting o "scores" scene ∧
      sent scene (.removeAll [1, 2]) = [.remove 1 (some 2) true, .remove 2 (some 2) true] ∧
      (((scene.session.store "scores").remade o.id [.remove 1 (some 2) true]).contents o.id).length
        = 1 ∧
      ¬ Call.HintsTrue o "scores" scene (.removeAll [1, 2])) ∧
    Hinting o "scores" parted ∧ sent parted (.add 4) = [.add 4 (some 1)] ∧
      (held o "scores" parted).length = 2 ∧ ¬ Call.HintsTrue o "scores" parted (.add 4) := by
  intro cmp o session start scene parted sent
  have hstart : Direct cmp o "scores" start :=
    ⟨rfl, rfl, rfl, rfl, ⟨rfl, rfl⟩,
      (Store.inOrder_seed_new cmp false o.id [1, 2] cmp rfl).2 o.id, nofun⟩
  have hrun : Relation.ReflTransGen (LevelStep cmp o "scores") start scene :=
    .single (.call .load trivial trivial)
  have huse : scene.value.content.useCache = true := by cbv
  have hloaded : scene.value.content.loaded = true := by cbv
  have hdirect := direct_run hstart hrun
  have hhinting := hdirect.hinting huse hloaded
  have hparted : Hinting o "scores" parted :=
    (hhinting.initialiseWith [3]).hinting hhinting
  have hlevel : (held o "scores" parted).length = 2 := by cbv
  obtain ⟨_, hremoved⟩ := hhinting.sent_run (.removeAll [1, 2])
  obtain ⟨_, hadded⟩ := hparted.sent_run (.add 4)
  refine ⟨⟨hstart, hrun, hhinting, hremoved.callsSince_eq.trans (by cbv), by cbv, ?_⟩, hparted,
    hadded.callsSince_eq.trans (by cbv), hlevel, ?_⟩
  · rw [hhinting.hintsTrue_iff, hdirect.countsRight_iff huse hloaded]
    have htwo : (Call.copies scene.value.content.elements (.removeAll [1, 2])).length = 2 := by cbv
    rw [htwo]
    decide
  · rw [hparted.hintsTrue_iff]
    have hone : parted.value.content.elements.length = 1 := by cbv
    have hadmitted : admitted parted.value.tracker [(4 : Int32)] = [4] := by cbv
    rintro (hnone | hsame)
    · rw [hadmitted] at hnone
      cases hnone
    · rw [hone, hlevel] at hsame
      cases hsame

end TrackedFields.TrackedQueue
