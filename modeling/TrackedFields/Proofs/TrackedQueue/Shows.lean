import TrackedFields.Proofs.Session.Advances
import TrackedFields.TrackedQueue.Replace

/-!
# What a queue shows

A queue that holds all its elements in memory, or that makes its changes right away in a reliable
store of its own order, shows a sorted list. What an action on it comes to depends on this list
alone: what is answered, what the list is afterwards, how often the end of a change is told, which
operations the store carries out where changes are made there right away, and, of a queue that holds
all its elements in memory, which relation changes are reported. It does not matter how changes
reach the datastore, whether the queue keeps its content in memory, and whether it has loaded it.
-/

namespace TrackedFields

/-- What no action on a queue undoes. -/
structure QueueContent.Continues {E : Type} (content after : QueueContent E) : Prop where
  order : after.order = content.order
  useCache : after.useCache = content.useCache
  loaded : content.loaded = true → after.loaded = true

/-- Actions one after the other continue the content of a queue. -/
theorem QueueContent.Continues.trans {E : Type} {content mid after : QueueContent E}
    (h : content.Continues mid) (h' : mid.Continues after) : content.Continues after :=
  ⟨h'.order.trans h.order, h'.useCache.trans h.useCache, fun hloaded =>
    h'.loaded (h.loaded hloaded)⟩

/-- The end of an action that answers or fails, and leaves a state. -/
def ended {σ α : Type} (result : Except Failure α) (after : σ) : EStateM.Result Failure σ α :=
  match result with
  | .ok answer => .ok answer after
  | .error failure => .error failure after

/-- The state in which an action ended. -/
theorem stateAfter_of_ended {σ α : Type} {action : EStateM Failure σ α} {s after : σ}
    {result : Except Failure α} (h : action s = ended result after) :
    stateAfter action s = after := by
  rw [stateAfter, h]
  cases result with
  | ok answer => rfl
  | error failure => rfl

/-- Trackers of fields of the same name that agree on null elements check alike. -/
theorem Tracker.check_congr {E : Type} [Element E] {t t' : Tracker}
    (hname : t.fieldName = t'.fieldName) (hnulls : t.allowNulls = t'.allowNulls) :
    (t.check : E → Except Failure Unit) = t'.check := by
  funext e
  unfold check
  rw [hname, hnulls]

namespace TrackedQueue

/-- How a queue compares its elements, and which elements it refuses. -/
structure Profile (E : Type) where
  order : Comparator E
  check : E → Except Failure Unit

/-- What an action on a queue comes to. -/
structure Outcome (E α : Type) where
  result : Except Failure α
  /-- The elements that the queue shows afterwards. -/
  elements : List E
  relations : List (RelationChange E) := []
  /-- How often the end of a change is told. -/
  changes : Nat := 0
  /-- What a store carries out in which changes are made right away. -/
  operations : List (OperationKind E) := []

namespace Outcome

variable {E α β : Type}

/-- What an action comes to that changes nothing. -/
def silent (answer : α) (es : List E) : Outcome E α := { result := .ok answer, elements := es }

/-- What two actions come to, one after the other; the second one answers. -/
def andThen (first : Outcome E α) (second : Outcome E β) : Outcome E β where
  result := second.result
  elements := second.elements
  relations := first.relations ++ second.relations
  changes := first.changes + second.changes
  operations := first.operations ++ second.operations

/-- A step that shows nothing leaves what comes after it. -/
@[simp] theorem silent_andThen (answer : α) (es : List E) (second : Outcome E β) :
    (silent answer es).andThen second = second := by
  simp [silent, andThen]

end Outcome

variable {E α β : Type} [DecidableEq E] [Element E]

omit [DecidableEq E] [Element E] in
/-- A queue that keeps its content in memory, and has loaded it, goes on doing so. -/
theorem isAuthoritative_of_continues {q after : TrackedQueue E}
    (htracker : after.tracker = q.tracker) (hcontent : q.content.Continues after.content)
    (h : q.isAuthoritative = true) : after.isAuthoritative = true := by
  unfold isAuthoritative hasStore at *
  rw [htracker, hcontent.useCache]
  cases hloaded : q.content.loaded with
  | true =>
    rw [hcontent.loaded hloaded]
    rwa [hloaded] at h
  | false =>
    rw [hloaded, Bool.and_false, Bool.or_false] at h
    rw [h, Bool.true_or]

/-- A queue shows a sorted list: it holds the list in memory, or it makes its changes right away in
a reliable store of its own order that holds the list. -/
structure Shows (p : Profile E) (o : Owner) (es : List E) (scene : Scene (TrackedQueue E) E) :
    Prop where
  owner : scene.value.tracker.owner = some o
  check : scene.value.tracker.check = p.check
  order : scene.value.content.order = p.order
  sorted : p.order.Sorted es
  inMemory : scene.value.isAuthoritative = true → scene.value.content.elements = es
  inStore : ∀ name, scene.value.tracker.dispatch = .immediate name →
    scene.session.Serves name o.id p.order es
  whole : (∀ name, scene.value.tracker.dispatch ≠ .immediate name) →
    scene.value.isAuthoritative = true

/-- An action on a queue came to an outcome. Of a queue that does not hold all its elements in
memory, the relation changes are left open: clearing it reports the elements in memory only. -/
structure Becomes (p : Profile E) (o : Owner) (outcome : Outcome E α)
    (scene after : Scene (TrackedQueue E) E) : Prop where
  shows : Shows p o outcome.elements after
  tracker : after.value.tracker = scene.value.tracker
  content : scene.value.content.Continues after.value.content
  advances : ∃ relations,
    (scene.value.isAuthoritative = true → relations = outcome.relations) ∧
      Session.Advances scene.value.tracker o relations outcome.changes outcome.operations
        scene.session after.session

/-- An action comes to an outcome on every queue that shows some list. -/
def ComesTo (p : Profile E) (es : List E) (action : Action E α) (outcome : Outcome E α) : Prop :=
  ∀ (o : Owner) (scene : Scene (TrackedQueue E) E), Shows p o es scene →
    ∃ after, action scene = ended outcome.result after ∧ Becomes p o outcome scene after

variable {p : Profile E} {o : Owner} {es : List E} {scene mid after : Scene (TrackedQueue E) E}

/-! ### Parts of actions -/

omit [DecidableEq E] [Element E] in
/-- Looking at the queue, applied to a scene. -/
theorem current_apply (scene : Scene (TrackedQueue E) E) :
    current scene = .ok scene.value scene := rfl

omit [DecidableEq E] [Element E] in
/-- Setting the elements in memory, applied to a scene. -/
theorem setElements_apply (es : List E) (scene : Scene (TrackedQueue E) E) :
    setElements es scene = .ok () { scene with
      value := { scene.value with content := { scene.value.content with elements := es } } } := rfl

omit [Element E] in
/-- The report of a change, applied to a scene. -/
theorem announce_apply (report : Report E) (scene : Scene (TrackedQueue E) E) :
    announce report scene = .ok () { scene with
      session := scene.value.tracker.announce report scene.session } := rfl

omit [DecidableEq E] [Element E] in
/-- The end of a change, applied to a scene. -/
theorem changed_apply (scene : Scene (TrackedQueue E) E) :
    changed scene = .ok () { scene with
      session := scene.value.tracker.changed scene.session } := rfl

omit [DecidableEq E] [Element E] in
/-- An answer, applied to a scene. -/
theorem pure_apply (answer : α) (scene : Scene (TrackedQueue E) E) :
    (pure answer : Action E α) scene = .ok answer scene := rfl

omit [DecidableEq E] [Element E] in
/-- Forwarding asks the tracker. -/
theorem forward_apply {t : Tracker} {operation : String}
    {action : ObjectId → StoreAction E α} {s mid : Session E} {forwarded : Forwarded α}
    (h : t.forward operation action s = (forwarded, mid)) (content : QueueContent E) :
    forward operation action ⟨⟨t, content⟩, s⟩ = .ok forwarded ⟨⟨t, content⟩, mid⟩ := by
  unfold forward Tracked.ask
  dsimp only
  rw [h]

/-! ### Single scenes -/

/-- What two actions come to, one after the other. -/
theorem Becomes.trans {first : Outcome E α} {second : Outcome E β}
    (h : Becomes p o first scene mid) (h' : Becomes p o second mid after) :
    Becomes p o (first.andThen second) scene after := by
  obtain ⟨relations, hrelations, hadvances⟩ := h.advances
  obtain ⟨more, hmore, hadvances'⟩ := h'.advances
  rw [h.tracker] at hadvances'
  refine ⟨h'.shows, h'.tracker.trans h.tracker, h.content.trans h'.content, relations ++ more, ?_,
    hadvances.trans hadvances'⟩
  intro hauthoritative
  have hmid := isAuthoritative_of_continues h.tracker h.content hauthoritative
  rw [hrelations hauthoritative, hmore hmid]
  rfl

/-- Nothing becomes of a queue that is left alone. -/
theorem Shows.becomes_silent (h : Shows p o es scene) (answer : α) :
    Becomes p o (.silent answer es) scene scene :=
  ⟨h, rfl, ⟨rfl, rfl, id⟩, [], fun _ => rfl, .refl _ o scene.session⟩

/-- What becomes of a queue does not depend on the answer. -/
theorem Becomes.of_result {outcome : Outcome E α} (h : Becomes p o outcome scene after)
    (result : Except Failure β) :
    Becomes p o { outcome with result } scene after :=
  ⟨h.shows, h.tracker, h.content, h.advances⟩

/-- A queue shows the outcome of a change if its memory and the operations of the change agree. -/
theorem Shows.becomes (h : Shows p o es scene) {outcome : Outcome E α}
    {relations : List (RelationChange E)}
    (htracker : after.value.tracker = scene.value.tracker)
    (hcontent : scene.value.content.Continues after.value.content)
    (hsorted : p.order.Sorted outcome.elements)
    (hkinds : ∀ rules : Store.Rules E, rules.order = some p.order → rules.Fits es →
      OperationKind.carryOutAll rules es outcome.operations = some outcome.elements)
    (hmemory : after.value.isAuthoritative = true →
      after.value.content.elements = outcome.elements)
    (hwhole : scene.value.isAuthoritative = true → relations = outcome.relations)
    (hadvances : Session.Advances scene.value.tracker o relations outcome.changes
      outcome.operations scene.session after.session) :
    Becomes p o outcome scene after := by
  refine ⟨⟨?_, ?_, ?_, hsorted, hmemory, ?_, ?_⟩, htracker, hcontent, relations, hwhole,
    hadvances⟩
  · rw [htracker]
    exact h.owner
  · rw [htracker]
    exact h.check
  · rw [hcontent.order]
    exact h.order
  · intro name hname
    rw [htracker] at hname
    exact hadvances.serves hname (h.inStore name hname) h.sorted hkinds
  · intro hnot
    rw [htracker] at hnot
    exact isAuthoritative_of_continues htracker hcontent (h.whole hnot)

/-- Reading does not change what a queue shows. -/
theorem Shows.becomes_of_read (h : Shows p o es scene) (answer : α)
    (htracker : after.value.tracker = scene.value.tracker)
    (hcontent : scene.value.content.Continues after.value.content)
    (hmemory : after.value.isAuthoritative = true → after.value.content.elements = es)
    (hadvances : Session.Advances scene.value.tracker o [] 0 [] scene.session after.session) :
    Becomes p o (.silent answer es) scene after :=
  h.becomes htracker hcontent h.sorted (fun _ _ _ => rfl) hmemory (fun _ => rfl) hadvances

/-! ### Sequences -/

/-- Answering changes nothing. -/
theorem ComesTo.pure (p : Profile E) (es : List E) (answer : α) :
    ComesTo p es (Pure.pure answer) (.silent answer es) :=
  fun _ scene h => ⟨scene, rfl, h.becomes_silent answer⟩

/-- What a sequence comes to whose first part answers. -/
theorem ComesTo.bind {action : Action E α} {next : α → Action E β} {first : Outcome E α}
    {second : Outcome E β} {answer : α} (h : ComesTo p es action first)
    (hanswer : first.result = .ok answer) (hnext : ComesTo p first.elements (next answer) second) :
    ComesTo p es (action >>= next) (first.andThen second) := by
  intro o scene hscene
  obtain ⟨mid, haction, hmid⟩ := h o scene hscene
  obtain ⟨after, hafter, hbecomes⟩ := hnext o mid hmid.shows
  refine ⟨after, ?_, hmid.trans hbecomes⟩
  rw [bind_apply, haction, hanswer]
  exact hafter

/-- An action that first looks what the queue shows, and nothing else. -/
theorem ComesTo.bind_silent {action : Action E α} {next : α → Action E β} {second : Outcome E β}
    {answer : α} (h : ComesTo p es action (.silent answer es))
    (hnext : ComesTo p es (next answer) second) : ComesTo p es (action >>= next) second := by
  rw [← Outcome.silent_andThen answer es second]
  exact h.bind rfl hnext

/-- What is made of an answer does not matter for anything else. -/
theorem ComesTo.map {action : Action E α} {answer : α} (f : α → β)
    (h : ComesTo p es action (.silent answer es)) :
    ComesTo p es (action >>= fun answer => Pure.pure (f answer)) (.silent (f answer) es) :=
  h.bind_silent (.pure p es (f answer))

/-- An action settles if it comes to some outcome, the same on all queues that show some list. -/
def Settles (p : Profile E) (es : List E) (action : Action E α) : Prop :=
  ∃ outcome, ComesTo p es action outcome

/-- A sequence settles if its parts do. -/
theorem Settles.bind {action : Action E α} {next : α → Action E β} (h : Settles p es action)
    (hnext : ∀ answer after, Settles p after (next answer)) : Settles p es (action >>= next) := by
  obtain ⟨first, hfirst⟩ := h
  cases hresult : first.result with
  | ok answer =>
    obtain ⟨second, hsecond⟩ := hnext answer first.elements
    exact ⟨first.andThen second, hfirst.bind hresult hsecond⟩
  | error failure =>
    -- The second part is never reached: the sequence ends as its first part.
    refine ⟨{ first with result := .error failure }, fun o scene hscene => ?_⟩
    obtain ⟨after, haction, hafter⟩ := hfirst o scene hscene
    refine ⟨after, ?_, hafter.of_result _⟩
    rw [bind_apply, haction, hresult]
    rfl

/-- An action settles if it does so up to its answer. -/
theorem Settles.discard {action : Action E α} (h : Settles p es action) :
    Settles p es (Functor.discard action) := by
  obtain ⟨outcome, houtcome⟩ := h
  refine ⟨{ outcome with result := outcome.result.map fun _ => () }, fun o scene hscene => ?_⟩
  obtain ⟨after, haction, hafter⟩ := houtcome o scene hscene
  refine ⟨after, ?_, hafter.of_result _⟩
  rw [discard_apply, haction]
  cases outcome.result with
  | ok answer => rfl
  | error failure => rfl

/-! ### Loading and reading -/

/-- A queue that has loaded its content, if it keeps it in memory at all. -/
def Prepared (q : TrackedQueue E) : Prop := q.content.useCache = true → q.isAuthoritative = true

omit [DecidableEq E] in
/-- The channel of a queue that does not hold all its elements leads to a store that does. -/
theorem Shows.exists_channel (h : Shows p o es scene)
    (hpart : ¬ scene.value.isAuthoritative = true) :
    ∃ name, scene.value.tracker.dispatch = .immediate name ∧
      scene.value.tracker.channel = some (name, o.id) ∧
      scene.session.Serves name o.id p.order es := by
  have hwhole : ¬ ∀ name, scene.value.tracker.dispatch ≠ .immediate name :=
    fun hnot => hpart (h.whole hnot)
  obtain ⟨name, hname⟩ := not_forall_not.mp hwhole
  refine ⟨name, hname, ?_, h.inStore name hname⟩
  rw [Tracker.channel, hname, h.owner]

omit [DecidableEq E] in
/-- A queue either holds all its elements in memory or does not queue its changes. -/
theorem Shows.isAuthoritative_or_not_isQueued (h : Shows p o es scene) :
    (scene.value.isAuthoritative || !scene.value.tracker.isQueued) = true := by
  by_cases hauthoritative : scene.value.isAuthoritative = true
  · rw [hauthoritative, Bool.true_or]
  · obtain ⟨name, hname, -, -⟩ := h.exists_channel hauthoritative
    unfold Tracker.isQueued
    rw [hname]
    exact Bool.or_true _

omit [DecidableEq E] [Element E] in
/-- A read answers what the store answers. -/
theorem read_of_ok {name : StoreName} {action : StoreAction E α} {answer : α} {store : Store E}
    (h : action (scene.session.store name) = .ok answer store) :
    read name action scene =
      .ok answer { scene with session := scene.session.afterCalls name store } := by
  rw [read, Session.access_ok h]

omit [DecidableEq E] [Element E] in
/-- A store that does not reject the next read gives its elements. -/
theorem read_elements_of_now {name : StoreName}
    (h : (scene.session.store name).reads.now = false) (owner : ObjectId) :
    read name (Store.elements owner) scene =
      .ok ((scene.session.store name).contents owner) { scene with
        session := scene.session.afterCalls name (scene.session.store name).iterated } := by
  apply read_of_ok
  rw [Store.elements_eq, h, if_neg Bool.false_ne_true]

omit [Element E] in
/-- Reading a reliable store answers and is not heard. -/
theorem read_of_carries {name : StoreName} {action : StoreAction E α} {answer : α}
    (hdispatch : scene.value.tracker.dispatch = .immediate name)
    (haction : (scene.session.store name).Carries o.id action answer []) :
    ∃ s, read name action scene = .ok answer { scene with session := s } ∧
      Session.Advances scene.value.tracker o [] 0 [] scene.session s := by
  obtain ⟨store, hcall, hcontinues, hkinds⟩ := haction
  exact ⟨_, read_of_ok hcall, .afterCalls hdispatch hcontinues hkinds⟩

omit [DecidableEq E] [Element E] in
/-- A queue that has loaded its content, or has no store to load it from, loads nothing. -/
theorem loadFromStore_of_not_awaiting
    (h : ∀ channel, scene.value.tracker.channel = some channel →
      scene.value.content.loaded = true) : loadFromStore scene = .ok () scene := by
  unfold loadFromStore
  rw [bind_apply]
  rw [current_apply]
  dsimp only
  cases hchannel : scene.value.tracker.channel with
  | none => rfl
  | some channel =>
    rw [h channel hchannel]
    rfl

omit [DecidableEq E] [Element E] in
/-- Loading does nothing, or there is a store to load from. -/
theorem loadFromStore_skips_or_awaits (scene : Scene (TrackedQueue E) E) :
    loadFromStore scene = .ok () scene ∨ ∃ name owner,
      scene.value.tracker.channel = some (name, owner) ∧ scene.value.content.loaded = false := by
  by_cases hwaits : ∃ channel, scene.value.tracker.channel = some channel ∧
      scene.value.content.loaded = false
  · obtain ⟨⟨name, owner⟩, hchannel, hloaded⟩ := hwaits
    exact .inr ⟨name, owner, hchannel, hloaded⟩
  · refine .inl (loadFromStore_of_not_awaiting fun channel hchannel => ?_)
    by_contra hloaded
    exact hwaits ⟨channel, hchannel, Bool.eq_false_iff.mpr hloaded⟩

omit [DecidableEq E] [Element E] in
/-- A queue that is not loaded takes over what its store holds, in its own order. -/
theorem loadFromStore_of_read {name : StoreName} {owner : ObjectId} {read : List E}
    (hchannel : scene.value.tracker.channel = some (name, owner))
    (hloaded : scene.value.content.loaded = false)
    (hread : TrackedQueue.read name (Store.elements owner) scene = .ok read after) :
    loadFromStore scene = .ok () { after with
      value := { after.value with
        content := { scene.value.content with
          elements := scene.value.content.order.sort read
          loaded := true } } } := by
  unfold loadFromStore
  rw [bind_apply]
  rw [current_apply]
  dsimp only
  rw [hchannel]
  dsimp only
  rw [hloaded, if_neg Bool.false_ne_true, bind_apply, hread]
  rfl

omit [DecidableEq E] [Element E] in
/-- Preparing a queue loads it, if it keeps its content in memory. -/
theorem ensureLoaded_apply (scene : Scene (TrackedQueue E) E) :
    ensureLoaded scene =
      if scene.value.content.useCache then loadFromStore scene else .ok () scene := by
  unfold ensureLoaded
  rw [bind_apply]
  change (if scene.value.content.useCache = true then loadFromStore else _) scene = _
  split
  · rfl
  · rfl

omit [DecidableEq E] [Element E] in
/-- A prepared queue has nothing to load. -/
theorem Prepared.ensureLoaded_eq (h : Prepared scene.value) :
    ensureLoaded scene = .ok () scene := by
  rw [ensureLoaded_apply]
  split
  · next huse =>
    apply loadFromStore_of_not_awaiting
    intro channel hchannel
    have hwhole := h huse
    unfold isAuthoritative hasStore at hwhole
    simpa [hchannel, huse] using hwhole
  · rfl

/-- Preparing a queue does not change what it shows. -/
theorem Shows.exists_prepared (h : Shows p o es scene) :
    ∃ after, ensureLoaded scene = .ok () after ∧
      Becomes p o (.silent () es) scene after ∧ Prepared after.value := by
  by_cases hskip : Prepared scene.value
  · exact ⟨scene, hskip.ensureLoaded_eq, h.becomes_silent (), hskip⟩
  · obtain ⟨huse, hpart⟩ := Classical.not_imp.mp hskip
    obtain ⟨name, hname, hchannel, hserves⟩ := h.exists_channel hpart
    obtain ⟨s, hread, hadvances⟩ :=
      read_of_carries hname (Store.carries_elements hserves.reliable o.id)
    have hloaded : scene.value.content.loaded = false := by
      unfold isAuthoritative hasStore at hpart
      simpa [hchannel, huse] using hpart
    have hsort : scene.value.content.order.sort es = es := by
      rw [h.order]
      exact Comparator.sort_of_sorted h.sorted
    rw [ensureLoaded_apply, if_pos huse, loadFromStore_of_read hchannel hloaded hread,
      hserves.contents, hsort]
    refine ⟨_, rfl, ?_, ?_⟩
    · exact h.becomes_of_read () rfl ⟨rfl, rfl, fun _ => rfl⟩ (fun _ => rfl) hadvances
    · intro _
      unfold isAuthoritative
      simp [huse]

/-- An action that prepares the queue first comes to what it comes to on prepared queues. -/
theorem comesTo_of_prepared {body : Unit → Action E α} {outcome : Outcome E α}
    (h : ∀ o scene, Shows p o es scene → Prepared scene.value →
      ∃ after, body () scene = ended outcome.result after ∧ Becomes p o outcome scene after) :
    ComesTo p es (ensureLoaded >>= body) outcome := by
  intro o scene hscene
  obtain ⟨mid, hload, hmid, hprepared⟩ := hscene.exists_prepared
  obtain ⟨after, hafter, hbecomes⟩ := h o mid hmid.shows hprepared
  refine ⟨after, ?_, ?_⟩
  · rw [bind_apply, hload]
    exact hafter
  · rw [← Outcome.silent_andThen () es outcome]
    exact hmid.trans hbecomes

omit [DecidableEq E] [Element E] in
/-- A queue with a store reads there, if that is asked. -/
theorem readEither_of_channel {name : StoreName} {owner : ObjectId}
    (hchannel : scene.value.tracker.channel = some (name, owner)) (fromStore : Bool)
    (action : ObjectId → StoreAction E α) (fromMemory : QueueContent E → α) :
    readEither fromStore action fromMemory scene =
      if fromStore then read name (action owner) scene
      else .ok (fromMemory scene.value.content) scene := by
  unfold readEither
  rw [bind_apply]
  rw [current_apply]
  dsimp only
  rw [hchannel]
  dsimp only
  split
  · rfl
  · rfl

omit [DecidableEq E] [Element E] in
/-- A queue without store reads from memory. -/
theorem readEither_of_no_channel (hchannel : scene.value.tracker.channel = none)
    (fromStore : Bool) (action : ObjectId → StoreAction E α) (fromMemory : QueueContent E → α) :
    readEither fromStore action fromMemory scene = .ok (fromMemory scene.value.content) scene := by
  unfold readEither
  rw [bind_apply]
  rw [current_apply]
  dsimp only
  rw [hchannel]
  rfl

omit [DecidableEq E] [Element E] in
/-- What is read comes from memory, if no store is asked. -/
theorem readEither_of_memory {fromStore : Bool}
    (hfrom : scene.value.hasStore = true → fromStore = false)
    (action : ObjectId → StoreAction E α) (fromMemory : QueueContent E → α) :
    readEither fromStore action fromMemory scene = .ok (fromMemory scene.value.content) scene := by
  cases hchannel : scene.value.tracker.channel with
  | none => exact readEither_of_no_channel hchannel fromStore action fromMemory
  | some channel =>
    have hstore : scene.value.hasStore = true := by
      rw [hasStore, hchannel]
      rfl
    rw [readEither_of_channel hchannel, hfrom hstore, if_neg Bool.false_ne_true]

omit [DecidableEq E] [Element E] in
/-- A queue that does not keep its content in memory lists what its store holds. -/
theorem toList_uncached (huse : scene.value.content.useCache = false) :
    toList scene = readEither true Store.elements QueueContent.elements scene := by
  unfold toList
  rw [bind_apply, ensureLoaded_apply, huse]
  change readEither (!scene.value.content.useCache) _ _ _ = _
  rw [huse]
  rfl

/-- Reading gives the same from the store of a queue as from memory, if the store is asked exactly
if the queue does not hold all its elements in memory. -/
theorem Shows.exists_read (h : Shows p o es scene) {fromStore : Bool}
    (hasks : scene.value.hasStore = true → fromStore = !scene.value.isAuthoritative)
    {action : ObjectId → StoreAction E α} {fromMemory : QueueContent E → α} {answer : α}
    (haction : ∀ st : Store E, st.Reliable → st.contents o.id = es →
      st.Carries o.id (action o.id) answer [])
    (hmemory : fromMemory { scene.value.content with elements := es } = answer) :
    ∃ s, readEither fromStore action fromMemory scene =
        .ok answer { scene with session := s } ∧
      Becomes p o (.silent answer es) scene { scene with session := s } := by
  by_cases hauthoritative : scene.value.isAuthoritative = true
  · refine ⟨scene.session, ?_, h.becomes_silent answer⟩
    have hanswer : fromMemory scene.value.content = answer := by
      rw [← hmemory, ← h.inMemory hauthoritative]
    cases hchannel : scene.value.tracker.channel with
    | none => rw [readEither_of_no_channel hchannel, hanswer]
    | some channel =>
      have hfrom : fromStore = false := by
        rw [hasks (by rw [hasStore, hchannel]; rfl), hauthoritative]
        rfl
      rw [readEither_of_channel hchannel, hfrom, if_neg Bool.false_ne_true, hanswer]
  · obtain ⟨name, hname, hchannel, hserves⟩ := h.exists_channel hauthoritative
    have hfrom : fromStore = true := by
      rw [hasks (by rw [hasStore, hchannel]; rfl), Bool.not_eq_true']
      simpa using hauthoritative
    obtain ⟨s, hread, hadvances⟩ :=
      read_of_carries hname (haction _ hserves.reliable hserves.contents)
    refine ⟨s, ?_, h.becomes_of_read answer rfl ⟨rfl, rfl, id⟩ h.inMemory hadvances⟩
    rw [readEither_of_channel hchannel, hfrom, if_pos rfl]
    exact hread

end TrackedQueue

end TrackedFields
