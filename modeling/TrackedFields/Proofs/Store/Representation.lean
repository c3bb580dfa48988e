import TrackedFields.Proofs.Session.Resembling
import TrackedFields.Proofs.Store.Disappearances
import TrackedFields.Proofs.Tracked.Untouched

/-!
# How an ordered store keeps its containers

A store that was made with an order, and everything that can happen to it from then on: containers
are replaced from outside, owners call it, and its writes begin to fail or pass again. Every
container is sorted at any time. A write that passes changes its own container only, and finds its
place in a sorted list: what is added stands behind all that does not compare greater, a change at
a position is made to the sorted list and sorted in again, and what is taken out leaves the others
where they are. A call that fails, for whatever reason, leaves all containers and the deletions
alone.
-/

namespace TrackedFields.Store

/-! ### What can happen -/

/-- What can happen to a store. -/
inductive Event (E : Type) where
  /-- The container of an owner is replaced from outside. -/
  | seed (owner : ObjectId) (es : List E)
  /-- An owner makes a call. -/
  | call (owner : ObjectId) (request : Request E)
  /-- From here on all writes are rejected, or none. -/
  | switch (failing : Bool)

variable {E : Type} [DecidableEq E]

/-- The store that an event leaves. -/
def Event.happen (st : Store E) : Event E → Store E
  | .seed owner es => st.seed owner es
  | .call owner request => stateAfter (request.run owner) st
  | .switch failing => { st with writes := if failing then .always else .never }

/-- The store that events leave, one after the other. -/
def Event.happenAll (st : Store E) (events : List (Event E)) : Store E :=
  events.foldl happen st

/-! ### What always holds -/

omit [DecidableEq E] in
/-- The representation: containers sorted by the order, no outage of reads, and an outage of writes
that lasts, if there is one. -/
structure Kept (cmp : Comparator E) (st : Store E) : Prop where
  order : st.order = some cmp
  sorted : ∀ owner, cmp.Sorted (st.contents owner)
  reads : st.reads = .never
  writes : st.writes = .never ∨ st.writes = .always

namespace Kept

variable {cmp : Comparator E} {st : Store E}

omit [DecidableEq E]

/-- A new store has no containers. -/
theorem new (cmp : Comparator E) (dependent : Bool) :
    Kept cmp { order := some cmp, dependent } :=
  ⟨rfl, fun _ => .nil, rfl, .inl rfl⟩

/-- The store arranges by its order. -/
theorem arrange_eq (h : st.Kept cmp) (es : List E) : st.arrange es = cmp.sort es := by
  rw [arrange, h.order]

/-- What is left of a container needs no arranging. -/
theorem arrange_part (h : st.Kept cmp) {owner : ObjectId} {part : List E}
    (hpart : part.Sublist (st.contents owner)) : st.arrange part = part := by
  rw [h.arrange_eq, Comparator.sort_of_sorted ((h.sorted owner).sublist hpart)]

/-- The record of a write does not matter. -/
theorem noted (h : st.Kept cmp) (call : StoreCall E) : (st.noted call).Kept cmp := by
  refine ⟨h.order, h.sorted, h.reads, ?_⟩
  rw [writes_noted]
  rcases h.writes with hwrites | hwrites <;> simp [hwrites]

/-- Another container may take the place of one, if it is sorted. -/
theorem put (h : st.Kept cmp) (owner : ObjectId) {es : List E} (hes : cmp.Sorted es) :
    (st.put owner es).Kept cmp := by
  refine ⟨h.order, fun other => ?_, h.reads, h.writes⟩
  rw [contents_put]
  split
  · exact hes
  · exact h.sorted other

/-- Reads do not matter. -/
theorem reading {α : Type} (call : StoreCall E) (answer : Store E → α) :
    Keeps (Kept cmp) (Store.reading call answer) := by
  intro st h
  have hafter : (st.afterRead call).Kept cmp := by
    refine ⟨h.order, h.sorted, ?_, h.writes⟩
    rw [reads_afterRead, h.reads, Outage.next_never]
  unfold stateAfter
  rw [reading_eq]
  cases st.reads.now with
  | true => exact hafter
  | false => exact hafter

variable [Std.TransCmp cmp]

/-- Seeding sorts. -/
theorem seed (h : st.Kept cmp) (owner : ObjectId) (es : List E) : (st.seed owner es).Kept cmp := by
  rw [Store.seed, h.arrange_eq]
  exact h.put owner (cmp.sorted_sort es)

/-- Writing sorts. -/
theorem writing {α : Type} (call : StoreCall E) (owner : ObjectId)
    (change : List E → Except StoreError (α × List E)) :
    Keeps (Kept cmp) (Store.writing call owner change) := by
  intro st h
  unfold stateAfter
  rw [writing_eq]
  cases st.writes.now with
  | true => exact h.noted call
  | false =>
    rw [if_neg Bool.false_ne_true]
    cases change (st.contents owner) with
    | error e => exact (h.noted call).put owner (h.sorted owner)
    | ok result =>
      change ((st.noted call).put owner (st.arrange result.2)).Kept cmp
      rw [h.arrange_eq]
      exact (h.noted call).put owner (cmp.sorted_sort result.2)

end Kept

/-- What survives writes and reads survives all calls. -/
theorem SurvivesWrites.run {owner : ObjectId} {P : Store E → Prop}
    (h : SurvivesWrites owner (fun _ => True) P)
    (hread : ∀ {α : Type} (call : StoreCall E) (answer : Store E → α),
      Keeps P (Store.reading call answer))
    (helements : Keeps P (Store.elements owner)) (request : Request E) :
    Keeps P (request.run owner) := by
  cases request with
  | size => exact (hread _ _).discard
  | contains e => exact (hread _ _).discard
  | elements => exact helements.discard
  | get position => exact (hread _ _).discard
  | updateEmbedded e field => exact (hread _ _).discard
  | add e hint => exact (h.add trivial hint).discard
  | addAll es hint => exact (h.addFrom hint 0 fun _ _ => trivial).discard
  | insert position e => exact h.insert position trivial
  | remove e hint cascade => exact (h.remove e hint cascade).discard
  | removeAt position hint => exact (h.removeAt position hint).discard
  | set position e cascade => exact (h.set position trivial cascade).discard
  | removeAll es hint => exact (h.removeAll es hint).discard
  | clear => exact h.clear

variable {cmp : Comparator E} {st : Store E}

/-- Every call keeps the representation, also where it fails. -/
theorem Kept.run [Std.TransCmp cmp] (owner : ObjectId) (request : Request E) :
    Keeps (Kept cmp) (request.run owner) := by
  have hsurvives : SurvivesWrites owner (fun _ => True) (Kept (E := E) cmp) := by
    refine ⟨fun call change _ _ => Kept.writing call owner change, ?_, ?_⟩
    · intro cascade removed st h
      change Kept cmp (if st.dependent && cascade then _ else st)
      split
      · exact ⟨h.order, h.sorted, h.reads, h.writes⟩
      · exact h
    · exact fun e field => Kept.reading _ _
  refine hsurvives.run Kept.reading ?_ request
  refine (Kept.reading _ _).bind fun es => Keeps.bind (Keeps.of_modify ?_) fun _ => .pure es
  exact fun st h => ⟨h.order, h.sorted, h.reads, h.writes⟩

/-- Whatever happens keeps the representation. -/
theorem Kept.happenAll [Std.TransCmp cmp] (h : st.Kept cmp) (events : List (Event E)) :
    (Event.happenAll st events).Kept cmp := by
  induction events generalizing st with
  | nil => exact h
  | cons event events ih =>
    apply ih
    cases event with
    | seed owner es => exact h.seed owner es
    | call owner request => exact Kept.run owner request st h
    | switch failing =>
      refine ⟨h.order, h.sorted, h.reads, ?_⟩
      cases failing with
      | true => exact .inr rfl
      | false => exact .inl rfl

/-- A call changes the container of its own owner only. -/
theorem contents_run_of_ne {owner other : ObjectId} (hother : other ≠ owner)
    (request : Request E) (st : Store E) :
    (stateAfter (request.run owner) st).contents other = st.contents other := by
  have hlooks {α : Type} {action : StoreAction E α} (h : Looks action) :
      Keeps (·.contents other = st.contents other) action :=
    fun mid hmid => (congrFun (congrArg View.contents (h mid)) other).trans hmid
  exact (survivesWrites_contents hother (fun _ => True) (st.contents other)).run
    (fun _ _ => hlooks (looks_reading _ _)) (hlooks (looks_elements owner)) request st rfl

/-! ### Where a write finds its place -/

/-- What the writes of an owner make of a sorted container, as long as they pass. -/
structure Places (cmp : Comparator E) (owner : ObjectId) (st : Store E) : Prop where
  /-- A new element comes behind all that do not compare greater and before all that do. -/
  add : ∀ e hint, ∃ before behind after, st.contents owner = before ++ behind ∧
    (∀ a ∈ before, cmp.le a e) ∧ (∀ a ∈ behind, cmp.le a e = false) ∧
    Store.add owner e hint st = .ok true after ∧ after.contents owner = before ++ e :: behind
  /-- Several elements are added one after the other. -/
  addAll : ∀ es hint, (∀ size, hint = some size → size + es.length ≤ Word.sizeLimit) →
    ∃ after, Store.addAll owner es hint st = .ok (!es.isEmpty) after ∧
      after.contents owner = cmp.insertAll (st.contents owner) es
  /-- An element comes to its position, and then to its place in the order. -/
  insert : ∀ position e, if position ≤ (st.contents owner).length then
      ∃ after, Store.insert owner position e st = .ok () after ∧
        after.contents owner = cmp.sort ((st.contents owner).insertIdx position e)
    else ∃ error after, Store.insert owner position e st = .error error after
  /-- So does an element that replaces another one. -/
  set : ∀ position e cascade, match (st.contents owner)[position]? with
    | some previous => ∃ after, Store.set owner position e cascade st = .ok previous after ∧
        after.contents owner = cmp.sort ((st.contents owner).set position e)
    | none => ∃ error after, Store.set owner position e cascade st = .error error after
  remove : ∀ e hint cascade, ∃ after,
    Store.remove owner e hint cascade st = .ok ((st.contents owner).contains e) after ∧
      after.contents owner = (st.contents owner).erase e
  removeAt : ∀ position hint, ∃ after,
    Store.removeAt owner position hint st = .ok (st.contents owner)[position]? after ∧
      after.contents owner = (st.contents owner).eraseIdx position
  removeAll : ∀ es hint, ∃ after,
    Store.removeAll owner es hint st = .ok (es.any (st.contents owner).contains) after ∧
      after.contents owner = es.foldl List.erase (st.contents owner)
  clear : ∃ after, Store.clear owner st = .ok () after ∧ after.contents owner = []

/-- A call leaves in the container what its operations make of it. -/
theorem Carries.contents {α : Type} {owner : ObjectId} {action : StoreAction E α} {answer : α}
    {kinds : List (OperationKind E)} (h : st.Carries owner action answer kinds) {es : List E}
    (hes : OperationKind.carryOutAll st.rules (st.contents owner) kinds = some es) :
    ∃ after, action st = .ok answer after ∧ after.contents owner = es := by
  obtain ⟨after, haction, -, hstock⟩ := h
  refine ⟨after, haction, ?_⟩
  have hcarried := OperationKind.map_elements_stockAll st.rules (st.shelf owner) kinds
  rw [hstock] at hcarried
  exact Option.some.inj (hcarried.trans hes)

/-- In a store that is kept in order, writes that pass find their places. -/
theorem Kept.places [Std.TransCmp cmp] (h : st.Kept cmp) (hwrites : st.writes = .never)
    (owner : ObjectId) : Places cmp owner st := by
  have hreliable : st.Reliable := ⟨h.reads, hwrites⟩
  have hnow : ¬ st.writes.now = true := by simp [hwrites]
  have hfits : st.rules.Fits (st.contents owner) := by
    intro other hother
    cases h.order.symm.trans hother
    exact h.sorted owner
  constructor
  case add =>
    intro e hint
    obtain ⟨before, behind, hsplit, hbefore, hbehind⟩ := (h.sorted owner).split e
    refine ⟨before, behind, _, hsplit, hbefore, hbehind,
      (add_eq owner st e hint).trans (if_neg hnow), ?_⟩
    rw [contents_written_self, h.arrange_eq, ← (h.sorted owner).insert_eq_sort, hsplit,
      cmp.insert_append hbefore hbehind]
  case addAll =>
    intro es hint hcountable
    exact (carries_addAll hreliable owner es hint hcountable).contents
      (OperationKind.carryOutAll_inserted h.order (h.sorted owner) es)
  case insert =>
    intro position e
    rw [insert_eq, if_neg hnow]
    split
    · next hposition =>
      rw [if_neg (Nat.not_lt.mpr hposition)]
      refine ⟨_, rfl, ?_⟩
      rw [contents_written_self, h.arrange_eq]
    · next hposition =>
      rw [if_pos (Nat.not_le.mp hposition)]
      exact ⟨_, _, rfl⟩
  case set =>
    intro position e cascade
    rw [set_eq, if_neg hnow]
    cases (st.contents owner)[position]? with
    | none => exact ⟨_, _, rfl⟩
    | some previous =>
      refine ⟨_, rfl, ?_⟩
      rw [contents_written_self, h.arrange_eq]
  -- What a removal leaves of a sorted container is sorted.
  case remove =>
    intro e hint cascade
    refine ⟨_, (remove_eq owner st e hint cascade).trans (if_neg hnow), ?_⟩
    rw [contents_written_self, h.arrange_part List.erase_sublist]
  case removeAt =>
    intro position hint
    refine ⟨_, (removeAt_eq owner st position hint).trans (if_neg hnow), ?_⟩
    rw [contents_written_self, h.arrange_part (List.eraseIdx_sublist _ _)]
  case removeAll =>
    intro es hint
    exact (carries_removeAll hreliable owner es hint).contents
      (OperationKind.carryOutAll_removed hfits es true)
  case clear =>
    refine ⟨_, (clear_eq owner st).trans (if_neg hnow), ?_⟩
    rw [contents_written_self, h.arrange_part (List.nil_sublist (st.contents owner))]

/-! ### What a failure leaves -/

/-- Whether the size hint of a bulk addition can be counted on to its end. -/
def Request.Countable : Request E → Prop
  | .addAll es hint => ∀ size, hint = some size → size + es.length ≤ Word.sizeLimit
  | _ => True

/-- If a call fails, it leaves all that a store shows as it was. -/
def FailsClean {α : Type} (st : Store E) (action : StoreAction E α) : Prop :=
  ∀ e after, action st = .error e after → after.view = st.view

namespace FailsClean

variable {α β : Type}

omit [DecidableEq E]

/-- What answers does not fail. -/
theorem of_ok {action : StoreAction E α} {answer : α} {after : Store E}
    (h : action st = .ok answer after) : st.FailsClean action := by
  intro e other hother
  cases h.symm.trans hother

/-- What leaves everything alone in any case does so where it fails. -/
theorem of_view {action : StoreAction E α} (h : (stateAfter action st).view = st.view) :
    st.FailsClean action := by
  intro e after hafter
  rw [← stateAfter_of_error hafter]
  exact h

/-- The answer does not matter. -/
theorem discard {action : StoreAction E α} (h : st.FailsClean action) :
    st.FailsClean (Functor.discard action) := by
  intro e after hafter
  rw [discard_apply] at hafter
  cases haction : action st with
  | ok answer mid =>
    rw [haction] at hafter
    cases hafter
  | error error mid =>
    rw [haction] at hafter
    cases hafter
    exact h _ _ haction

/-- What cannot fail any more once its first part went well fails cleanly if that does. -/
theorem bind_passing {action : StoreAction E α} (h : st.FailsClean action)
    {next : α → StoreAction E β} (hpasses : ∀ a mid, ∃ b after, next a mid = .ok b after) :
    st.FailsClean (action >>= next) := by
  intro e after hafter
  rw [bind_apply] at hafter
  cases haction : action st with
  | ok a mid =>
    obtain ⟨b, last, hnext⟩ := hpasses a mid
    rw [haction] at hafter
    cases hnext.symm.trans hafter
  | error error mid =>
    rw [haction] at hafter
    cases hafter
    exact h _ _ haction

/-- A write fails cleanly: it is rejected, or its change is refused. -/
theorem writing (call : StoreCall E) (owner : ObjectId)
    (change : List E → Except StoreError (α × List E)) :
    st.FailsClean (Store.writing call owner change) := by
  intro e after hafter
  rw [writing_eq] at hafter
  split at hafter
  · cases hafter
    rfl
  · cases hchange : change (st.contents owner) with
    | ok result =>
      rw [hchange] at hafter
      cases hafter
    | error error =>
      rw [hchange] at hafter
      cases hafter
      apply View.ext
      · exact funext fun other => st.contents_refused call owner other
      · rfl

end FailsClean

omit [DecidableEq E] in
private theorem view_of_rejected {α : Type} {action : StoreAction E α} {call : StoreCall E}
    {failure : StoreError} {carriedOut : EStateM.Result StoreError (Store E) α}
    (hnow : st.writes.now = true)
    (h : action st = if st.writes.now then .error failure (st.noted call) else carriedOut) :
    (stateAfter action st).view = st.view := by
  rw [stateAfter, h, if_pos hnow]
  rfl

/-- During an outage of writes, no call changes what shows. -/
theorem view_run_of_always (h : st.writes = .always) (owner : ObjectId) (request : Request E) :
    (stateAfter (request.run owner) st).view = st.view := by
  have hnow : st.writes.now = true := by rw [h, Outage.now_always]
  have hdiscard {α : Type} {action : StoreAction E α}
      (hview : (stateAfter action st).view = st.view) :
      (stateAfter (discard action) st).view = st.view := by rwa [stateAfter_discard]
  cases request with
  | size => exact hdiscard (looks_reading _ _ st)
  | contains e => exact hdiscard (looks_reading _ _ st)
  | elements => exact hdiscard (looks_elements owner st)
  | get position => exact hdiscard (looks_reading _ _ st)
  | updateEmbedded e field => exact hdiscard (looks_reading _ _ st)
  | add e hint => exact hdiscard (view_of_rejected hnow (add_eq owner st e hint))
  | addAll es hint =>
    rw [Request.run, stateAfter_discard, addAll]
    cases es with
    | nil => rfl
    | cons e es =>
      -- The size hint is counted on first; then the first addition is rejected.
      rw [addFrom, stateAfter_bind]
      have hadd (next : Option Nat) : (stateAfter (do
          let added ← add owner e next
          let more ← addFrom owner hint 1 es
          return added || more) st).view = st.view := by
        rw [stateAfter_bind, add_eq, if_pos hnow]
        rfl
      cases hint with
      | none => exact hadd none
      | some size =>
        by_cases hword : size + 0 < Word.sizeLimit
        · rw [advanceHint_of_lt hword]
          exact hadd (some size)
        · rw [advanceHint_of_le (Nat.not_lt.mp hword)]
          rfl
  | insert position e => exact view_of_rejected hnow (insert_eq owner st position e)
  | remove e hint cascade =>
    exact hdiscard (view_of_rejected hnow (remove_eq owner st e hint cascade))
  | removeAt position hint =>
    exact hdiscard (view_of_rejected hnow (removeAt_eq owner st position hint))
  | set position e cascade =>
    exact hdiscard (view_of_rejected hnow (set_eq owner st position e cascade))
  | removeAll es hint =>
    rw [Request.run, stateAfter_discard]
    cases es with
    | nil => rfl
    | cons e es =>
      rw [removeAll, stateAfter_bind, remove_eq, if_pos hnow]
      rfl
  | clear => exact view_of_rejected hnow (clear_eq owner st)

/-- In a store that is kept in order, calls fail cleanly. -/
theorem Kept.failsClean (h : st.Kept cmp) (owner : ObjectId) {request : Request E}
    (hcountable : request.Countable) : st.FailsClean (request.run owner) := by
  rcases h.writes with hwrites | hwrites
  · have hreliable : st.Reliable := ⟨h.reads, hwrites⟩
    cases request with
    | size => exact (FailsClean.of_view (looks_reading _ _ st)).discard
    | contains e => exact (FailsClean.of_view (looks_reading _ _ st)).discard
    | elements => exact (FailsClean.of_view (looks_elements owner st)).discard
    | get position => exact (FailsClean.of_view (looks_reading _ _ st)).discard
    | updateEmbedded e field => exact (FailsClean.of_view (looks_reading _ _ st)).discard
    | add e hint => exact (FailsClean.writing _ _ _).discard
    | addAll es hint =>
      obtain ⟨after, hok, -⟩ := carries_addAll hreliable owner es hint hcountable
      exact (FailsClean.of_ok hok).discard
    | insert position e =>
      change st.FailsClean (insert owner position e)
      exact FailsClean.writing _ _ _
    | remove e hint cascade =>
      exact ((FailsClean.writing _ _ _).bind_passing fun _ _ => ⟨_, _, rfl⟩).discard
    | removeAt position hint =>
      exact ((FailsClean.writing _ _ _).bind_passing fun _ _ => ⟨_, _, rfl⟩).discard
    | set position e cascade =>
      exact ((FailsClean.writing _ _ _).bind_passing fun _ _ => ⟨_, _, rfl⟩).discard
    | removeAll es hint =>
      obtain ⟨after, hok, -⟩ := carries_removeAll hreliable owner es hint
      exact (FailsClean.of_ok hok).discard
    | clear => exact (FailsClean.writing _ _ _).bind_passing fun _ _ => ⟨_, _, rfl⟩
  · exact FailsClean.of_view (view_run_of_always hwrites owner request)

/-! ### All together -/

/-- A store in memory keeps its representation. It was made with an order that is a total preorder;
containers were replaced from outside, owners made calls, and writes began to fail and passed again,
in any sequence. Then every container is sorted. What replaces a container is sorted, stably. A
write finds its place in its container, as long as writes pass; during an outage, no call changes
anything that shows. A call changes the container of its own owner only. A call that fails leaves
the containers of all owners and the deletions as they were, unless it is a bulk addition whose size
hint leaves its word. -/
theorem representation_kept (cmp : Comparator E) [Std.TransCmp cmp] (dependent : Bool)
    (events : List (Event E)) :
    let st := Event.happenAll { order := some cmp, dependent } events
    (∀ owner, cmp.Sorted (st.contents owner)) ∧
    (∀ owner es other, (st.seed owner es).contents other =
      if other = owner then cmp.sort es else st.contents other) ∧
    ((st.writes = .never ∧ ∀ owner, Places cmp owner st) ∨
      (st.writes = .always ∧ ∀ owner (request : Request E),
        (stateAfter (request.run owner) st).view = st.view)) ∧
    ∀ owner (request : Request E),
      (∀ other, other ≠ owner →
        (stateAfter (request.run owner) st).contents other = st.contents other) ∧
      (request.Countable → ∀ e after, request.run owner st = .error e after →
        (∀ other, after.contents other = st.contents other) ∧ after.deleted = st.deleted) := by
  intro st
  have hkept : st.Kept cmp := (Kept.new cmp dependent).happenAll events
  refine ⟨hkept.sorted, fun owner es other => ?_, ?_, fun owner request => ⟨fun other hother =>
    contents_run_of_ne hother request st, fun hcountable e after hafter => ?_⟩⟩
  · rw [contents_seed, hkept.arrange_eq]
  · rcases hkept.writes with hwrites | hwrites
    · exact .inl ⟨hwrites, hkept.places hwrites⟩
    · exact .inr ⟨hwrites, view_run_of_always hwrites⟩
  · have hview := hkept.failsClean owner hcountable e after hafter
    exact ⟨congrFun (congrArg View.contents hview), congrArg View.deleted hview⟩

/-- Elements are ordered by their tens. Through an outage and a position that does not exist, a
container stays sorted; the element that replaces the last one finds its place behind its tie. -/
theorem representation_kept_among_tens :
    let cmp : Comparator Int32 := compareOn fun e => e.toInt / 10
    let owner : ObjectId := .ofNat 7
    let events : List (Event Int32) := [.seed owner [25, 11, 21], .switch true,
      .call owner (.add 27 none), .switch false, .call owner (.insert 0 29),
      .call (.ofNat 8) (.addAll [4, 3] (some 0)), .call owner (.insert 9 1)]
    let st := Event.happenAll { order := some cmp } events
    st.contents owner = [11, 29, 25, 21] ∧ cmp.Sorted (st.contents owner) ∧
      st.writes = .never ∧ ∃ after, Store.set owner 3 12 true st = .ok 21 after ∧
        after.contents owner = [11, 12, 29, 25] := by
  intro cmp owner events st
  obtain ⟨hsorted, -, hwrites, -⟩ := representation_kept cmp false events
  have hheld :
      (Event.happenAll { order := some cmp } events).contents owner = [11, 29, 25, 21] := by cbv
  have hnow : (Event.happenAll { order := some cmp } events).writes.now = false := by cbv
  rcases hwrites with ⟨hpass, hplaces⟩ | ⟨hfail, -⟩
  · have hset := (hplaces owner).set 3 12 true
    rw [hheld] at hset
    obtain ⟨after, hok, hafter⟩ := hset
    exact ⟨hheld, hsorted owner, hpass, after, hok, hafter.trans (by cbv)⟩
  · rw [hfail, Outage.now_always] at hnow
    cases hnow

end TrackedFields.Store
