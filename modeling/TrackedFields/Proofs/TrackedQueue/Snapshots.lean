import TrackedFields.Proofs.Session.Flushed
import TrackedFields.Proofs.TrackedQueue.SameStore
import TrackedFields.Proofs.TrackedQueue.Caching
import TrackedFields.Proofs.TrackedQueue.InvariantsOfCalls
import TrackedFields.Proofs.TrackedQueue.Uncached

/-!
# What a snapshot shows

A snapshot of a priority queue is meant to be its full value: what its store would hold if all that
waits were carried out. A queue that keeps its content in memory shows that, and so does one that
makes its changes right away. A queue that lets its changes wait and does not keep its content in
memory shows what its store holds: a snapshot of it lacks what was added since the last flush, and
has what was removed.
-/

namespace TrackedFields.TrackedQueue

variable {E : Type} [DecidableEq E]

/-! ### What no call undoes -/

/-- A queue of the given order, with nothing waiting that it did not let wait. -/
structure Steady (cmp : Comparator E) (scene : Scene (TrackedQueue E) E) : Prop where
  order : scene.value.content.order = cmp
  pending : scene.value.tracker.isQueued = false → scene.session.pending = []

variable {cmp : Comparator E} {o : Owner} {name : StoreName} {scene : Scene (TrackedQueue E) E}

/-- Whatever a call is made of leaves that so. -/
theorem invariant_steady [Element E] : Invariant (fun _ => True) (Steady (E := E) cmp) where
  elements _ _ _ := trivial
  stored _ _ _ _ := trivial
  checked _ _ := trivial
  load := by
    apply keeps_loadFromStore
    intro scene name owner h _ _
    have hmid : Steady cmp (stateAfter (read name (Store.elements owner)) scene) := by
      have hidle := idle_read name (Store.onlyReads_elements owner) scene
      refine ⟨hidle.continues.order.trans h.order, fun hqueued => ?_⟩
      rw [hidle.tracker] at hqueued
      exact hidle.session.called.pending.trans (h.pending hqueued)
    exact ⟨hmid, h.order, hmid.pending⟩
  look {scene name owner _ _ _} h hlook _ _ _ := by
    have hidle := idle_read name (hlook.onlyReads owner) scene
    refine ⟨hidle.continues.order.trans h.order, fun hqueued => ?_⟩
    rw [hidle.tracker] at hqueued
    exact hidle.session.called.pending.trans (h.pending hqueued)
  setContent _ h hcontinues _ := ⟨hcontinues.order.trans h.order, h.pending⟩
  asks h hasks := by
    refine ⟨h.order, fun hqueued => ?_⟩
    rcases hasks.queued_or_written with ⟨_, -, hpending, -⟩ | ⟨_, _, _, _, -, -, hpending, -⟩
    · rw [hpending, Tracker.queued_of_not_isQueued hqueued, List.append_nil]
      exact h.pending hqueued
    · exact hpending.trans (h.pending hqueued)

/-! ### Values -/

/-- A queue in one of the ways in which it may be kept, with its value, which is what its store
would hold if all that waits were carried out: it makes its changes right away, it keeps its content
in memory and lets its changes wait, or it lets them wait without keeping its content. -/
inductive Amounts (cmp : Comparator E) (o : Owner) (name : StoreName)
    (scene : Scene (TrackedQueue E) E) : List E → Prop where
  | direct (h : Direct cmp o name scene) : Amounts cmp o name scene (held o name scene)
  | cached {before : Session E} (h : Synced cmp o name before scene) :
      Amounts cmp o name scene (known name o.id scene)
  | shadowing {before : Session E} {kinds : List (OperationKind E)} {es : List E}
      (h : Shadowing o name before kinds scene) (byValue : ∀ kind ∈ kinds, kind.ByValue)
      (storeOrder : (before.rules name).order = some cmp)
      (inOrder : (before.views name).InOrder (before.rules name))
      (reliable : (before.store name).Reliable)
      (carried : OperationKind.carryOutAll (before.rules name) ((before.store name).contents o.id)
        kinds = some es) : Amounts cmp o name scene es

namespace Amounts

variable {es : List E}

/-- The value is sorted. -/
theorem sorted (h : Amounts cmp o name scene es) : cmp.Sorted es := by
  cases h with
  | direct h => exact h.sorted
  | cached h => exact h.follows.sorted
  | shadowing h _ storeOrder inOrder reliable carried =>
    have hbehind := h.behind inOrder reliable carried
    refine hbehind.fits cmp ?_
    rw [h.meets.1, storeOrder]

/-- The channel of the queue. -/
theorem channel (h : Amounts cmp o name scene es) :
    scene.value.tracker.channel = some (name, o.id) := by
  cases h with
  | direct h => rw [Tracker.channel, h.dispatch, h.owner]
  | cached h => rw [Tracker.channel, h.dispatch, h.owner]
  | shadowing h => exact h.channel

/-- The store does not fail. -/
theorem storeReliable (h : Amounts cmp o name scene es) :
    (scene.session.store name).Reliable := by
  cases h with
  | direct h => exact h.reliable
  | cached h => exact h.follows.behind.reliable
  | shadowing h _ _ _ reliable _ => exact h.continues.reliable reliable

/-- What such a queue lists: its value if it keeps its content in memory or makes its changes right
away, and what its store holds otherwise. -/
theorem listed_eq (h : Amounts cmp o name scene es) (hsteady : Steady cmp scene) :
    listed scene =
      if scene.value.content.useCache || !scene.value.tracker.isQueued then es
      else held o name scene := by
  have hsort {stored : List E} (hstored : cmp.Sorted stored) :
      scene.value.content.order.sort stored = stored := by
    rw [hsteady.order]
    exact Comparator.sort_of_sorted hstored
  unfold listed
  rw [h.channel]
  dsimp only
  cases h with
  | direct h =>
    have hqueued : scene.value.tracker.isQueued = false := by rw [Tracker.isQueued, h.dispatch]
    rw [hqueued, Bool.not_false, Bool.or_true, if_pos rfl]
    cases huse : scene.value.content.useCache with
    | false => rfl
    | true =>
      cases hloaded : scene.value.content.loaded with
      | true => exact h.cached huse hloaded
      | false => exact hsort h.sorted
  | cached h =>
    rw [h.useCache, Bool.true_or, if_pos rfl, Bool.not_true, if_neg Bool.false_ne_true]
    have hsorted := h.follows.sorted
    unfold known at hsorted ⊢
    cases hloaded : scene.value.content.loaded with
    | true => rfl
    | false =>
      rw [hloaded, if_neg Bool.false_ne_true] at hsorted
      exact hsort hsorted
  | shadowing h =>
    rw [h.useCache, h.isQueued]
    rfl

/-- What such a queue lists is sorted. -/
theorem sorted_listed (h : Amounts cmp o name scene es) (hsteady : Steady cmp scene) :
    scene.value.content.order.Sorted (listed scene) := by
  rw [hsteady.order, h.listed_eq hsteady]
  split
  · exact h.sorted
  · next hwaits =>
    cases h with
    | direct h =>
      exact h.sorted
    | cached h =>
      rw [h.useCache] at hwaits
      exact absurd rfl hwaits
    | shadowing h _ storeOrder inOrder _ _ =>
      rw [held, h.meets.2.1]
      exact (inOrder cmp storeOrder).2 o.id

/-- A snapshot shows what such a queue lists. -/
theorem exists_snapshot (h : Amounts cmp o name scene es) (hsteady : Steady cmp scene) :
    ∃ after, snapshot scene = .ok (listed scene) after := by
  have hreads : Readable scene := by
    intro store owner hchannel
    rw [h.channel] at hchannel
    obtain rfl : name = store := congrArg Prod.fst (Option.some.inj hchannel)
    exact h.storeReliable.reads
  obtain ⟨after, hlist, horder⟩ := exists_toList hreads
  refine ⟨after, ?_⟩
  unfold snapshot
  rw [bind_apply, hlist]
  change EStateM.Result.ok (after.value.content.order.sort (listed scene)) after = _
  rw [horder, Comparator.sort_of_sorted (h.sorted_listed hsteady)]

/-- A flush passes, lets nothing wait, and leaves the value in the store. -/
theorem flush (h : Amounts cmp o name scene es) (hsteady : Steady cmp scene)
    (default : Option StoreName) :
    ∃ after, Session.flush default scene.session = .ok scene.session.pending.length after ∧
      after.pending = [] ∧ (after.store name).contents o.id = es ∧
      ∃ next, Amounts cmp o name { scene with session := after } next := by
  cases h with
  | direct h =>
    have hnil := hsteady.pending (by rw [Tracker.isQueued, h.dispatch])
    refine ⟨scene.session, ?_, hnil, rfl, _, .direct h⟩
    change Session.replayAll default scene.session.pending scene.session = _
    rw [hnil]
    rfl
  | cached h =>
    have hname : (some name).or default = some name := rfl
    obtain ⟨after, hflush, hnil, hcontents, -, -⟩ := h.follows.behind.flush hname
    obtain ⟨after', hflush', -, -, hsynced⟩ := h.flush_default default
    obtain rfl : after = after' := by
      rw [hflush] at hflush'
      exact (EStateM.Result.ok.inj hflush').2
    exact ⟨after, hflush, hnil, hcontents, _, .cached hsynced⟩
  | shadowing h byValue storeOrder inOrder reliable carried =>
    have hname : (some name).or default = some name := rfl
    obtain ⟨after, hflush, hnil, hcontents, hcontinues, hbehind⟩ :=
      (h.behind inOrder reliable carried).flush hname
    have hshadowing : Shadowing o name after [] { scene with session := after } := by
      refine ⟨h.owner, h.dispatch, h.useCache, ?_, rfl, ⟨rfl, id⟩⟩
      rw [Tracker.queued_nil]
      exact hnil
    have horder : (after.rules name).order = some cmp := by
      rw [hcontinues.rules_eq, h.meets.1, storeOrder]
    exact ⟨after, hflush, hnil, hcontents, _, .shadowing hshadowing (List.forall_mem_nil _) horder
      hbehind.inOrder hbehind.reliable rfl⟩

end Amounts

/-! ### Calls -/

variable [Element E]

/-- Whether a queue stays countable under a call: its length fits into a word, as that of every list
in memory does. Only additions in bulk count ahead. -/
def Call.Countable (es : List E) : Call E → Prop
  | .addAll new => es.length + new.length < Word.sizeLimit
  | _ => True

/-- An action that settles leaves a direct queue direct. -/
theorem Direct.of_settles {α : Type} {action : Action E α} (h : Direct cmp o name scene)
    (hsettles : ∀ p : Profile E, p.order = cmp → Settles p (held o name scene) action) :
    Direct cmp o name (stateAfter action scene) := by
  let p : Profile E := ⟨cmp, scene.value.tracker.check⟩
  obtain ⟨outcome, houtcome⟩ := hsettles p rfl
  obtain ⟨after, hrun, hbecomes⟩ := houtcome o scene (Direct.shows (p := p) h rfl)
  rw [stateAfter_of_ended hrun]
  exact hbecomes.direct h

/-- Loading settles. -/
theorem settles_ensureLoaded (p : Profile E) (es : List E) : Settles p es ensureLoaded := by
  refine ⟨.silent () es, fun o scene h => ?_⟩
  obtain ⟨after, hload, hbecomes, -⟩ := h.exists_prepared
  exact ⟨after, hload, hbecomes⟩

/-- Adding and removing elements by value, and loading, leaves a direct queue direct. -/
theorem Direct.call [Std.TransCmp cmp] (h : Direct cmp o name scene) {call : Call E}
    (hcall : call.Edits ∨ call = .load) (hcount : call.Countable (held o name scene)) :
    Direct cmp o name (stateAfter call.run scene) := by
  have hrequest {α : Type} (request : QueueRequest E α)
      (hcount : request.Countable (held o name scene)) :
      Direct cmp o name (stateAfter request.run scene) := by
    refine h.of_settles fun p hp => ?_
    subst hp
    exact request.settles hcount
  rcases hcall with hedits | rfl
  · cases call with
    | add e =>
      rw [Call.run, stateAfter_discard]
      exact hrequest (.add e) trivial
    | addAll new =>
      rw [Call.run, stateAfter_discard]
      exact hrequest (.addAll new) hcount
    | remove e =>
      rw [Call.run, stateAfter_discard]
      exact hrequest (.remove e) trivial
    | removeWith e cascade =>
      rw [Call.run, stateAfter_discard]
      exact hrequest (.removeWith e cascade) trivial
    | removeAll es =>
      rw [Call.run, stateAfter_discard]
      exact hrequest (.removeAll es) trivial
    | retainAll keep =>
      rw [Call.run, stateAfter_discard]
      exact hrequest (.retainAll keep) trivial
    | clear => exact hrequest .clear trivial
    | load => exact hedits.elim
    | poll => exact hedits.elim
    | attachCopy target => exact hedits.elim
    | initialiseWith new => exact hedits.elim
  · exact h.of_settles fun p _ => settles_ensureLoaded p _

/-- After such a call, a queue is kept as before. -/
theorem Amounts.call [Std.TransCmp cmp] {es : List E} (h : Amounts cmp o name scene es)
    {call : Call E} (hcall : call.Edits ∨ call = .load)
    (hcount : scene.value.tracker.isQueued = false → call.Countable (held o name scene)) :
    ∃ next, Amounts cmp o name (stateAfter call.run scene) next := by
  cases h with
  | direct h =>
    have hqueued : scene.value.tracker.isQueued = false := by rw [Tracker.isQueued, h.dispatch]
    exact ⟨_, .direct (h.call hcall (hcount hqueued))⟩
  | cached h =>
    have hallowed : call.Allowed o scene.session := by
      rcases hcall with hedits | rfl
      · cases call <;> trivial
      · trivial
    exact ⟨_, .cached (call.synced hallowed h)⟩
  | @shadowing before kinds es h byValue storeOrder inOrder reliable carried =>
    have hother : call ≠ .poll := by
      rintro rfl
      rcases hcall with hedits | hload
      · exact hedits.elim
      · cases hload
    have hextending : Extending o name before kinds scene :=
      ⟨[], List.forall_mem_nil _, (List.append_nil kinds).symm ▸ h⟩
    obtain ⟨more, hmore, hafter⟩ := call.extends_run hother scene hextending
    obtain ⟨next, hnext⟩ : ∃ next,
        OperationKind.carryOutAll (before.rules name) es more = some next :=
      OperationKind.exists_carryOutAll_of_byValue hmore es
    refine ⟨next, .shadowing hafter ?_ storeOrder inOrder reliable ?_⟩
    · intro kind hkind
      exact (List.mem_append.mp hkind).elim (byValue kind) (hmore kind)
    · rw [OperationKind.carryOutAll_append, carried]
      exact hnext

/-- No call undoes what makes a queue steady. -/
theorem Call.steady (call : Call E) : Keeps (Steady cmp) call.run := by
  have h : Invariant (fun _ => True) (Steady (E := E) cmp) := invariant_steady
  cases call with
  | load => exact h.ensureLoaded
  | add e => exact (h.add e).discard
  | addAll new => exact (h.addAll new).discard
  | poll => exact h.poll.discard
  | remove e => exact (h.removeWith e true).discard
  | removeWith e cascade => exact (h.removeWith e cascade).discard
  | removeAll es => exact (h.removeAll es).discard
  | retainAll keep => exact (h.retainAll keep).discard
  | clear => exact h.clear
  | attachCopy target => exact h.attachCopy target
  | initialiseWith new => exact h.initialiseWith fun _ _ => trivial

/-! ### Snapshots -/

omit [Element E] in
/-- A queue with a reliable store of its own order, while nothing waits. If it keeps its content in
memory and has loaded it, it holds what the store holds. -/
structure AtRest (cmp : Comparator E) (o : Owner) (name : StoreName)
    (scene : Scene (TrackedQueue E) E) : Prop where
  owner : scene.value.tracker.owner = some o
  dispatch : scene.value.tracker.dispatch = .immediate name ∨
    scene.value.tracker.dispatch = .queued (some name)
  order : scene.value.content.order = cmp
  storeOrder : (scene.session.store name).order = some cmp
  inOrder : (scene.session.views name).InOrder (scene.session.rules name)
  reliable : (scene.session.store name).Reliable
  pending : scene.session.pending = []
  contents : scene.value.content.useCache = true → scene.value.content.loaded = true →
    scene.value.content.elements = held o name scene

omit [Element E] in
/-- A queue at rest has a value. -/
theorem AtRest.amounts (h : AtRest cmp o name scene) : ∃ es, Amounts cmp o name scene es := by
  rcases h.dispatch with hdispatch | hdispatch
  · exact ⟨_, .direct ⟨h.owner, hdispatch, h.order, h.storeOrder, h.reliable,
      (h.inOrder cmp h.storeOrder).2 o.id, h.contents⟩⟩
  · cases huse : scene.value.content.useCache with
    | true =>
      have hsettled : Settled cmp o name scene := ⟨h.owner, hdispatch, h.order, huse, h.storeOrder,
        h.inOrder, h.reliable, h.pending, fun hloaded => (h.contents huse hloaded).symm⟩
      exact ⟨_, .cached hsettled.synced⟩
    | false =>
      have huncached : Uncached o name scene :=
        ⟨h.owner, hdispatch, huse, h.inOrder, h.reliable, h.pending⟩
      exact ⟨_, .shadowing huncached.shadowing (List.forall_mem_nil _) h.storeOrder h.inOrder
        h.reliable rfl⟩

/-- What can happen to a queue whose snapshots are looked at: elements are added or removed by
value, what is kept in memory is loaded, or the session is flushed. -/
inductive ValueStep (o : Owner) (name : StoreName) :
    Scene (TrackedQueue E) E → Scene (TrackedQueue E) E → Prop where
  | call {scene : Scene (TrackedQueue E) E} (call : Call E) (h : call.Edits ∨ call = .load)
      (countable : scene.value.tracker.isQueued = false → call.Countable (held o name scene)) :
      ValueStep o name scene (stateAfter call.run scene)
  | flush {scene : Scene (TrackedQueue E) E} (default : Option StoreName) :
      ValueStep o name scene
        { scene with session := stateAfter (Session.flush default) scene.session }

/-- A run from rest leaves a steady queue with a value. -/
theorem AtRest.run {start : Scene (TrackedQueue E) E} (hstart : AtRest cmp o name start)
    (hrun : Relation.ReflTransGen (ValueStep o name) start scene) :
    Steady cmp scene ∧ ∃ es, Amounts cmp o name scene es := by
  have := (hstart.inOrder cmp hstart.storeOrder).1
  induction hrun with
  | refl => exact ⟨⟨hstart.order, fun _ => hstart.pending⟩, hstart.amounts⟩
  | tail _ step ih =>
    obtain ⟨hsteady, es, hamounts⟩ := ih
    cases step with
    | call call hcall countable => exact ⟨call.steady _ hsteady, hamounts.call hcall countable⟩
    | flush default =>
      obtain ⟨after, hflush, hnil, -, hnext⟩ := hamounts.flush hsteady default
      rw [stateAfter_of_ok hflush]
      exact ⟨⟨hsteady.order, fun _ => hnil⟩, hnext⟩

/-- What a snapshot shows. Take a queue, cached or not, that queues its changes or makes them right
away, with a reliable store of its own order. After any run in which elements are added and removed
by value, with loads and flushes in between, a flush passes and lets nothing wait, and what the
store would hold after it is sorted. A snapshot, the JSON form and a detached copy all show the
same: that, if the queue keeps its content in memory or makes its changes right away, and what the
store holds before the flush otherwise. So they show every change if and only if that makes no
difference. -/
theorem snapshot_shows_value {start : Scene (TrackedQueue E) E} (hstart : AtRest cmp o name start)
    (hrun : Relation.ReflTransGen (ValueStep o name) start scene) :
    let value := scene.session.flushed name o.id
    let shown :=
      if scene.value.content.useCache || !scene.value.tracker.isQueued then value
      else held o name scene
    ((∃ after, Session.flush none scene.session = .ok scene.session.pending.length after ∧
        after.pending = [] ∧ (after.store name).contents o.id = value) ∧ cmp.Sorted value) ∧
      ((∃ after, snapshot scene = .ok shown after) ∧
        (∀ encode, ∃ after, toJson encode scene = .ok (.arr (shown.map encode)) after) ∧
        ∀ seen, ∃ seen' after, detachCopy seen scene = .ok (shown, seen') after) ∧
      (shown = value ↔ scene.value.content.useCache = true ∨
        scene.value.tracker.isQueued = false ∨ held o name scene = value) := by
  obtain ⟨hsteady, es, hamounts⟩ := hstart.run hrun
  obtain ⟨flushed, hflush, hnil, hcontents, -⟩ := hamounts.flush hsteady none
  have hvalue : scene.session.flushed name o.id = es := by
    rw [Session.flushed, stateAfter_of_ok hflush, hcontents]
  rw [hvalue]
  intro value shown
  obtain ⟨after, hsnapshot⟩ : ∃ after, snapshot scene = .ok shown after := by
    have hlisted : listed scene = shown := hamounts.listed_eq hsteady
    rw [← hlisted]
    exact hamounts.exists_snapshot hsteady
  refine ⟨⟨⟨flushed, hflush, hnil, hcontents⟩, hamounts.sorted⟩,
    ⟨⟨after, hsnapshot⟩, fun encode => ⟨after, ?_⟩, fun seen => ?_⟩, ?_⟩
  · unfold toJson
    rw [bind_apply, hsnapshot]
    rfl
  · unfold detachCopy
    simp only [bind_apply, hsnapshot]
    exact ⟨_, _, rfl⟩
  · change (if _ then value else held o name scene) = value ↔ _
    cases scene.value.content.useCache with
    | true => simp
    | false => cases scene.value.tracker.isQueued <;> simp

/-- A cached queue that was not loaded when the changes began, one of which waits still. -/
theorem snapshot_shows_value_of_waiting_removal :
    let cmp : Comparator Int32 := compareOn Int32.toInt
    let o : Owner := { id := .ofNat 7, descriptor := { name := "scores", ordinal := ⟨2⟩ } }
    let start : Scene (TrackedQueue Int32) Int32 := {
      value := {
        tracker := { owner := some o, dispatch := .queued (some "scores"), allowNulls := false }
        content := { order := cmp, useCache := true, lazily := true } }
      session := {
        stores := Table.empty.set "scores" (Store.seed { order := some cmp } o.id [3, 1]) } }
    let added := stateAfter (Call.run (.add (2 : Int32))) start
    let flushed : Scene (TrackedQueue Int32) Int32 :=
      { added with session := stateAfter (Session.flush none) added.session }
    let scene := stateAfter (Call.run (.remove (3 : Int32))) flushed
    AtRest cmp o "scores" start ∧ Relation.ReflTransGen (ValueStep o "scores") start scene ∧
      held o "scores" scene = [1, 2, 3] ∧ scene.session.flushed "scores" o.id = [1, 2] ∧
      ∃ after, snapshot scene = .ok [1, 2] after := by
  intro cmp o start added flushed scene
  have hstart : AtRest cmp o "scores" start :=
    ⟨rfl, .inr rfl, rfl, rfl, Store.inOrder_seed_new cmp false o.id [3, 1], ⟨rfl, rfl⟩, rfl,
      nofun⟩
  have hrun : Relation.ReflTransGen (ValueStep o "scores") start scene :=
    ((Relation.ReflTransGen.refl.tail (.call (.add 2) (.inl trivial) fun _ => trivial)).tail
      (.flush none)).tail (.call (.remove 3) (.inl trivial) fun _ => trivial)
  have hheld : held o "scores" scene = [1, 2, 3] := by
    subst scene flushed added
    cbv
  have hvalue : scene.session.flushed "scores" o.id = [1, 2] := by
    subst scene flushed added
    cbv
  have hcached : scene.value.content.useCache = true := by
    subst scene flushed added
    cbv
  obtain ⟨-, ⟨hsnapshot, -, -⟩, -⟩ := snapshot_shows_value hstart hrun
  rw [hvalue, hcached, Bool.true_or, if_pos rfl] at hsnapshot
  exact ⟨hstart, hrun, hheld, hvalue, hsnapshot⟩

/-- A queue that does not keep its content in memory and has let an addition wait: the snapshot
lacks the element that the next flush writes. -/
theorem snapshot_lacks_waiting_addition :
    let cmp : Comparator Int32 := compareOn Int32.toInt
    let o : Owner := { id := .ofNat 7, descriptor := { name := "scores", ordinal := ⟨2⟩ } }
    let start : Scene (TrackedQueue Int32) Int32 := {
      value := {
        tracker := { owner := some o, dispatch := .queued (some "scores"), allowNulls := false }
        content := { order := cmp, useCache := false, lazily := true } }
      session := {
        stores := Table.empty.set "scores" (Store.seed { order := some cmp } o.id [1, 3]) } }
    let scene := stateAfter (Call.run (.add (2 : Int32))) start
    AtRest cmp o "scores" start ∧ Relation.ReflTransGen (ValueStep o "scores") start scene ∧
      scene.session.flushed "scores" o.id = [1, 2, 3] ∧
      (∃ after, snapshot scene = .ok [1, 3] after) ∧
      ¬ ∃ after, snapshot scene = .ok (scene.session.flushed "scores" o.id) after := by
  intro cmp o start scene
  have hstart : AtRest cmp o "scores" start :=
    ⟨rfl, .inr rfl, rfl, rfl, Store.inOrder_seed_new cmp false o.id [1, 3], ⟨rfl, rfl⟩, rfl,
      nofun⟩
  have hrun : Relation.ReflTransGen (ValueStep o "scores") start scene :=
    Relation.ReflTransGen.refl.tail (.call (.add 2) (.inl trivial) fun _ => trivial)
  have hvalue : scene.session.flushed "scores" o.id = [1, 2, 3] := by cbv
  have hlisted : listed scene = [1, 3] := by cbv
  have hsnapshot : ∃ after, snapshot scene = .ok [1, 3] after := by
    obtain ⟨hsteady, es, hamounts⟩ := hstart.run hrun
    rw [← hlisted]
    exact hamounts.exists_snapshot hsteady
  refine ⟨hstart, hrun, hvalue, hsnapshot, ?_⟩
  rintro ⟨after, hshown⟩
  obtain ⟨other, hother⟩ := hsnapshot
  rw [hvalue, hother] at hshown
  cases hshown

end TrackedFields.TrackedQueue
