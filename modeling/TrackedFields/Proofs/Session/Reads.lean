import TrackedFields.Proofs.Session.Replay
import TrackedFields.Proofs.Tracked.Asks

/-!
# Who reads the stores

What containers ask of their sessions is written down in the journal. No request reads a store. A
flush reads one only if it gets stuck at a removal by position that found nothing, and only its
size, in order to report that.
-/

namespace TrackedFields

/-- Whether a session was asked to read a store. -/
def Effect.isRead {E : Type} : Effect E → Bool
  | .called _ call => call.isRead
  | _ => false

namespace Store

variable {E α : Type}

/-! ### Single calls -/

/-- A read is one call. -/
theorem calls_reading (call : StoreCall E) (answer : Store E → α) (st : Store E) :
    (stateAfter (reading call answer) st).calls = st.calls ++ [call] := by
  unfold stateAfter
  rw [reading_eq]
  cases st.reads.now <;> rfl

/-- A read brings the next outage of reads nearer. -/
theorem reads_reading (call : StoreCall E) (answer : Store E → α) (st : Store E) :
    (stateAfter (reading call answer) st).reads = st.reads.next := by
  unfold stateAfter
  rw [reading_eq]
  cases st.reads.now <;> rfl

/-- What a write leaves: its record, and perhaps another container. -/
theorem stateAfter_writing (call : StoreCall E) (owner : ObjectId)
    (change : List E → Except StoreError (α × List E)) (st : Store E) :
    stateAfter (writing call owner change) st = st.noted call ∨
      ∃ es, stateAfter (writing call owner change) st = (st.noted call).put owner es := by
  unfold stateAfter
  rw [writing_eq]
  cases st.writes.now with
  | true => exact .inl rfl
  | false =>
    refine .inr ?_
    rw [if_neg Bool.false_ne_true]
    cases change (st.contents owner) with
    | error e => exact ⟨_, rfl⟩
    | ok answer => exact ⟨_, rfl⟩

/-- A write is one call. -/
theorem calls_writing (call : StoreCall E) (owner : ObjectId)
    (change : List E → Except StoreError (α × List E)) (st : Store E) :
    (stateAfter (writing call owner change) st).calls = st.calls ++ [call] := by
  rcases stateAfter_writing call owner change st with h | ⟨es, h⟩
  · rw [h]
    rfl
  · rw [h]
    rfl

/-- A write does not matter for reads. -/
theorem reads_writing (call : StoreCall E) (owner : ObjectId)
    (change : List E → Except StoreError (α × List E)) (st : Store E) :
    (stateAfter (writing call owner change) st).reads = st.reads := by
  rcases stateAfter_writing call owner change st with h | ⟨es, h⟩
  · rw [h]
    rfl
  · rw [h]
    rfl

/-! ### What is called -/

variable [DecidableEq E]

omit [DecidableEq E] in
/-- A store after some calls, all of which are allowed. -/
def Heard (allowed : StoreCall E → Prop) (st after : Store E) : Prop :=
  ∃ calls, after.calls = st.calls ++ calls ∧ ∀ call ∈ calls, allowed call

variable {allowed : StoreCall E → Prop} {st mid after : Store E}

omit [DecidableEq E] in
/-- Between a moment and itself, nothing is called. -/
theorem Heard.refl (st : Store E) : Heard allowed st st := ⟨[], (List.append_nil _).symm, nofun⟩

omit [DecidableEq E] in
/-- One call more. -/
theorem Heard.concat (h : Heard allowed st mid) {call : StoreCall E} (hcall : allowed call)
    (hcalls : after.calls = mid.calls ++ [call]) : Heard allowed st after := by
  obtain ⟨calls, hbefore, hall⟩ := h
  refine ⟨calls ++ [call], ?_, ?_⟩
  · rw [hcalls, hbefore, List.append_assoc]
  · rw [List.forall_mem_append, List.forall_mem_singleton]
    exact ⟨hall, hcall⟩

/-- Changes that containers make are no reads. -/
theorem survivesWrites_heard (owner : ObjectId) (good : E → Prop) (st : Store E) :
    SurvivesWrites owner good (Heard (fun call => call.isRead = false) st) where
  writing call change hcall _ mid h := h.concat hcall (calls_writing call owner change mid)
  deletion cascade removed mid h := by
    change Heard _ st (if mid.dependent && cascade then _ else mid)
    split <;> exact h
  update e field mid h := h.concat rfl (calls_reading _ _ mid)

/-- No change that containers make matters for reads, as long as none is rejected. -/
theorem survivesWrites_reads (owner : ObjectId) (good : E → Prop) :
    SurvivesWrites (E := E) owner good (·.reads = .never) where
  writing call change _ _ mid h := (reads_writing call owner change mid).trans h
  deletion cascade removed mid h := by
    change (if mid.dependent && cascade then _ else mid : Store E).reads = _
    split <;> exact h
  update e field mid h := by
    have hreads : mid.reads = .never := h
    refine (reads_reading _ _ mid).trans ?_
    rw [hreads]
    rfl

omit [DecidableEq E] in
/-- Where no call reads, no call reads anything but a size. -/
theorem Heard.size (h : Heard (·.isRead = false) st after) :
    Heard (fun call => call.isRead = true → call = .size) st after := by
  obtain ⟨calls, hcalls, hall⟩ := h
  refine ⟨calls, hcalls, fun call hmem hread => ?_⟩
  rw [hall call hmem] at hread
  cases hread

/-- Carrying out an operation reads no store, unless it removes by position, fails and asks how many
elements there are. -/
theorem heard_perform (kind : OperationKind E) (owner : ObjectId) (st : Store E) :
    Heard (·.isRead = false) st (stateAfter (kind.perform owner) st) ∨
      ((∃ index, kind = .listRemoveAt index) ∧
        (∃ e, kind.perform owner st = .error e (stateAfter (kind.perform owner) st)) ∧
        Heard (fun call => call.isRead = true → call = .size) st
          (stateAfter (kind.perform owner) st)) := by
  have h := survivesWrites_heard owner (fun _ : E => True) st
  have hstart : Heard (·.isRead = false) st st := .refl st
  cases kind with
  | collectionAdd e => exact .inl ((h.add trivial none).discard st hstart)
  | collectionRemove e cascade => exact .inl ((h.remove e none cascade).discard st hstart)
  | collectionClear => exact .inl (h.clear st hstart)
  | listAddAt index e => exact .inl (h.insert index trivial st hstart)
  | listSet index e cascade => exact .inl ((h.set index trivial cascade).discard st hstart)
  | listRemoveAt index =>
    have hremove := h.removeAt index none st hstart
    have hperform : OperationKind.perform (.listRemoveAt index) owner =
        (removeAt owner index none >>= fun removed =>
          if removed.isNone = true then
            size owner >>= fun n => throw (.positionOutOfRange index n)
          else pure () : StoreAction E Unit) := rfl
    cases hanswer : removeAt owner index none st with
    | error e mid =>
      rw [stateAfter_of_error hanswer] at hremove
      rw [hperform, stateAfter_bind, hanswer]
      exact .inl hremove
    | ok removed mid =>
      rw [stateAfter_of_ok hanswer] at hremove
      cases removed with
      | some e =>
        rw [hperform, stateAfter_bind, hanswer]
        exact .inl hremove
      | none =>
        -- Nothing was removed: the size is asked for, whose answer or failure is reported.
        have hfails : ∃ e, OperationKind.perform (.listRemoveAt index) owner st =
            .error e (mid.afterRead .size) := by
          rw [hperform, bind_apply, hanswer]
          change ∃ e, (size owner >>= fun n => throw (.positionOutOfRange index n) :
            StoreAction E Unit) mid = _
          rw [bind_apply, size, reading_eq]
          cases mid.reads.now with
          | true => exact ⟨_, rfl⟩
          | false => exact ⟨_, rfl⟩
        obtain ⟨e, hfails⟩ := hfails
        rw [stateAfter_of_error hfails]
        exact .inr ⟨⟨index, rfl⟩, ⟨e, hfails⟩, hremove.size.concat (fun _ => rfl) rfl⟩

end Store

namespace Session

variable {E : Type} {allowed : Effect E → Prop} {s mid after : Session E}

/-- A session after some requests, all of which are allowed. -/
def Logged (allowed : Effect E → Prop) (s after : Session E) : Prop :=
  ∃ effects, after.journal = s.journal ++ effects ∧ ∀ effect ∈ effects, allowed effect

namespace Logged

/-- Where nothing is written down, nothing was asked for. -/
theorem of_journal_eq (h : after.journal = s.journal) : s.Logged allowed after :=
  ⟨[], by rw [h, List.append_nil], nofun⟩

/-- Requests one after the other. -/
theorem trans (h : s.Logged allowed mid) (h' : mid.Logged allowed after) :
    s.Logged allowed after := by
  obtain ⟨effects, hjournal, hall⟩ := h
  obtain ⟨more, hmore, hall'⟩ := h'
  refine ⟨effects ++ more, ?_, List.forall_mem_append.mpr ⟨hall, hall'⟩⟩
  rw [hmore, hjournal, List.append_assoc]

/-- More may be allowed. -/
theorem mono {allowed' : Effect E → Prop} (h : s.Logged allowed after)
    (hallowed : ∀ effect, allowed effect → allowed' effect) : s.Logged allowed' after := by
  obtain ⟨effects, hjournal, hall⟩ := h
  exact ⟨effects, hjournal, fun effect hmem => hallowed effect (hall effect hmem)⟩

/-- What is written down. -/
theorem record (s : Session E) {effects : List (Effect E)}
    (h : ∀ effect ∈ effects, allowed effect) : s.Logged allowed (s.record effects) :=
  ⟨effects, rfl, h⟩

/-- Calls of a store. -/
theorem afterCalls {calls : StoreCall E → Prop} {name : StoreName} {store : Store E}
    (h : (s.store name).Heard calls store)
    (hcalls : ∀ call, calls call → allowed (.called name call)) :
    s.Logged allowed (s.afterCalls name store) := by
  obtain ⟨made, hmade, hall⟩ := h
  have hdrop : store.calls.drop (s.store name).calls.length = made := by
    rw [hmade, List.drop_left]
  refine ⟨made.map (.called name), ?_, ?_⟩
  · change s.journal ++ _ = _
    rw [hdrop]
  · intro effect hmem
    obtain ⟨call, hcall, rfl⟩ := List.mem_map.mp hmem
    exact hcalls call (hall call hcall)

end Logged

/-- Marking a field is one request. -/
theorem logged_markDirty (s : Session E) (id : ObjectId) (field : FieldOrdinal) :
    s.Logged (·.isRead = false) (s.markDirty id field) := by
  refine ⟨[.dirtied id field], ?_, by simp [Effect.isRead]⟩
  unfold markDirty updateEntity
  cases s.entity? id <;> rfl

/-- Queueing operations reads no store. -/
theorem logged_enqueueAll (s : Session E) (operations : List (Operation E)) :
    s.Logged (·.isRead = false) (s.enqueueAll operations) := by
  induction operations generalizing s with
  | nil => exact .of_journal_eq rfl
  | cons operation rest ih =>
    have hfirst : s.Logged (·.isRead = false) (s.enqueue operation) :=
      ⟨[.enqueued operation], rfl, by simp [Effect.isRead]⟩
    exact hfirst.trans (ih (s.enqueue operation))

end Session

namespace Tracker

variable {E : Type} [DecidableEq E] {s after : Session E}

omit [DecidableEq E] in
/-- Queueing operations for a container reads no store. -/
theorem logged_enqueue (t : Tracker) (kinds : List (OperationKind E)) (s : Session E) :
    s.Logged (·.isRead = false) (t.enqueue kinds s) := by
  unfold enqueue
  split
  · exact s.logged_enqueueAll _
  · exact .of_journal_eq rfl

/-- A report reads no store. -/
theorem logged_announce (t : Tracker) (report : Report E) (s : Session E) :
    s.Logged (·.isRead = false) (t.announce report s) := by
  have hrelate : s.Logged (·.isRead = false) (t.relate report.relations s) := by
    unfold relate Session.relate
    split
    · exact .of_journal_eq rfl
    · split
      · refine .record s fun effect hmem => ?_
        obtain ⟨change, -, rfl⟩ := List.mem_map.mp hmem
        rfl
      · exact .of_journal_eq rfl
  have hcascade (mid : Session E) :
      mid.Logged (·.isRead = false) (t.cascade report.orphans mid) := by
    unfold cascade
    split
    · split
      · refine .record mid fun effect hmem => ?_
        obtain ⟨e, -, rfl⟩ := List.mem_map.mp hmem
        rfl
      · exact .of_journal_eq rfl
    · exact .of_journal_eq rfl
  exact (hrelate.trans (t.logged_enqueue report.operations _)).trans (hcascade _)

omit [DecidableEq E] in
/-- Marking the field of a container reads no store. -/
theorem logged_markDirty (t : Tracker) (s : Session E) :
    s.Logged (·.isRead = false) (t.markDirty s) := by
  unfold markDirty Owner.markDirty
  split
  · exact .of_journal_eq rfl
  · split
    · exact s.logged_markDirty _ _
    · exact .of_journal_eq rfl

omit [DecidableEq E] in
/-- The end of a change reads no store. -/
theorem logged_changed (t : Tracker) (s : Session E) :
    s.Logged (·.isRead = false) (t.changed s) := by
  unfold changed
  split
  · exact .of_journal_eq rfl
  · next o _ =>
    unfold Owner.changed
    split
    · have hmark := s.logged_markDirty o.id o.field
      dsimp only
      split
      · exact hmark
      · exact hmark.trans (.record _ (by simp [Effect.isRead]))
    · exact .of_journal_eq rfl

/-- No request of a container reads a store. -/
theorem Asks.logged [Element E] {good : E → Prop} {t : Tracker} (h : t.Asks good s after) :
    s.Logged (·.isRead = false) after := by
  cases h with
  | announce report _ => exact t.logged_announce report s
  | enqueue kinds _ => exact t.logged_enqueue kinds s
  | markDirty => exact t.logged_markDirty s
  | changed => exact t.logged_changed s
  | attach es =>
    unfold Tracker.attach
    split
    · exact .of_journal_eq rfl
    · refine .record s fun effect hmem => ?_
      obtain ⟨e, -, rfl⟩ := List.mem_map.mp hmem
      rfl
  | detach es seen =>
    unfold Tracker.detach
    split
    · exact .of_journal_eq rfl
    · refine .record s fun effect hmem => ?_
      obtain ⟨e, -, rfl⟩ := List.mem_map.mp hmem
      rfl
  | @call α operation action haction =>
    unfold Tracker.call
    split
    · exact .of_journal_eq rfl
    · next name owner _ =>
      have hheard := (Store.survivesWrites_heard owner good (s.store name)).write haction
        (s.store name) (.refl _)
      cases hcall : action owner (s.store name) with
      | ok answer store =>
        rw [stateAfter_of_ok hcall] at hheard
        rw [Session.access_ok hcall]
        exact .afterCalls hheard fun call hread => hread
      | error e store =>
        rw [stateAfter_of_error hcall] at hheard
        rw [Session.access_error hcall]
        exact (Session.Logged.afterCalls hheard fun call hread => hread).trans
          (.record _ (by simp [Effect.isRead]))

/-- A change that may be made in the store right away reads no store. -/
theorem logged_forward [Element E] {α : Type} {good : E → Prop} (t : Tracker) (operation : String)
    {action : ObjectId → StoreAction E α} (haction : Store.Write good action) (s : Session E) :
    s.Logged (·.isRead = false) (t.forward operation action s).2 := by
  rcases Asks.forward t operation haction s with hsame | hasks
  · rw [hsame]
    exact .of_journal_eq rfl
  · exact hasks.logged

/-- A request of a container keeps reads from being rejected where none is. -/
theorem Asks.reads [Element E] {good : E → Prop} {t : Tracker} (h : t.Asks good s after)
    {name : StoreName} (hreads : (s.store name).reads = .never) :
    (after.store name).reads = .never := by
  rcases h.queued_or_written with
    ⟨_, -, -, hstores⟩ | ⟨other, owner, α, action, -, haction, -, hstores⟩
  · rwa [Session.store_of_stores_eq hstores name]
  · rw [Session.store_of_stores_eq hstores name, Session.store_afterCalls]
    split
    · next hname =>
      rw [← hname]
      exact (Store.survivesWrites_reads owner good).write haction _ hreads
    · exact hreads

end Tracker

namespace Session

variable {E : Type} [DecidableEq E]

/-- A flush keeps reads from being rejected where none is. -/
theorem reads_flush {name : StoreName} (default : Option StoreName) :
    Keeps (fun s : Session E => (s.store name).reads = .never) (flush default) := by
  apply keeps_flush
  · intro s operation rest h _
    rw [stateAfter_replay]
    split
    · exact h
    · next target _ =>
      rw [store_afterCalls]
      split
      · next hname =>
        rw [← hname]
        have hsize : Keeps (fun st : Store E => st.reads = .never)
            (Store.size operation.owner) := by
          intro st hst
          refine (Store.reads_reading _ _ st).trans ?_
          rw [hst]
          rfl
        exact (Store.survivesWrites_reads operation.owner fun _ => True).perform hsize
          (fun _ _ => trivial) _ h
      · exact h
  · exact fun h _ => h

/-- That a session was asked to read nothing but sizes of stores. -/
def OnlySizes (effect : Effect E) : Prop :=
  effect.isRead = true → ∃ name, effect = .called name .size

variable {s mid after : Session E}

omit [DecidableEq E] in
/-- Where nothing is read, no more than sizes are read. -/
theorem Logged.onlySizes (h : s.Logged (·.isRead = false) after) : s.Logged OnlySizes after := by
  refine h.mono fun effect hread hnot => ?_
  rw [hread] at hnot
  cases hnot

omit [DecidableEq E] in
/-- Waiting operations were carried out until one that removes by position failed, and nothing was
read but sizes of stores. -/
structure StuckAtRemoval {α : Type} (action : EStateM ReplayError (Session E) α) (s : Session E) :
    Prop where
  fails : ∃ e, action s = .error e (stateAfter action s)
  head : ∃ operation rest index, (stateAfter action s).pending = operation :: rest ∧
    operation.kind = .listRemoveAt index
  reads : s.Logged OnlySizes (stateAfter action s)

omit [DecidableEq E] in
/-- What ends like something that got stuck, after no more than sizes were read, got stuck. -/
theorem StuckAtRemoval.of_end {α β : Type} {action : EStateM ReplayError (Session E) α}
    {whole : EStateM ReplayError (Session E) β} (h : StuckAtRemoval action mid)
    (hbefore : s.Logged OnlySizes mid)
    (hend : ∀ e after, action mid = .error e after → whole s = .error e after) :
    StuckAtRemoval whole s := by
  obtain ⟨⟨e, hfails⟩, hhead, hreads⟩ := h
  have hwhole := hend e _ hfails
  have hstate := stateAfter_of_error hwhole
  rw [← hstate] at hwhole hhead hreads
  exact ⟨⟨e, hwhole⟩, hhead, hbefore.trans hreads⟩

/-- Carrying out a waiting operation reads nothing, unless it gets stuck at a removal. -/
theorem logged_replay {operation : Operation E} {rest : List (Operation E)}
    (hpending : s.pending = operation :: rest) (default : Option StoreName) :
    s.Logged (·.isRead = false) (stateAfter (replay default operation) s) ∨
      StuckAtRemoval (replay default operation) s := by
  have hstate := stateAfter_replay default operation s
  cases htarget : operation.store.or default with
  | none =>
    rw [htarget] at hstate
    exact .inl (.of_journal_eq (by rw [hstate]))
  | some name =>
    rw [htarget] at hstate
    dsimp only at hstate
    rcases Store.heard_perform operation.kind operation.owner (s.store name) with
      hheard | ⟨⟨index, hindex⟩, ⟨e, hfails⟩, hheard⟩
    · rw [hstate]
      exact .inl (.afterCalls hheard fun call hread => hread)
    · refine .inr ⟨⟨.failed operation.kind.name operation.field e, ?_⟩, ?_, ?_⟩
      · rw [hstate]
        unfold replay
        rw [htarget]
        change EStateM.adaptExcept _ (access name _) s = _
        unfold EStateM.adaptExcept
        rw [access_error hfails]
      · rw [hstate]
        exact ⟨operation, rest, index, hpending, hindex⟩
      · rw [hstate]
        exact .afterCalls hheard fun call hsize hread => ⟨name, by rw [hsize hread]⟩

/-- A flush reads nothing, unless it gets stuck at a removal. -/
theorem logged_flush (default : Option StoreName) (s : Session E) :
    s.Logged (·.isRead = false) (stateAfter (flush default) s) ∨
      StuckAtRemoval (flush default) s := by
  suffices hall : ∀ (operations : List (Operation E)) (s : Session E), s.pending = operations →
      s.Logged (·.isRead = false) (stateAfter (replayAll default operations) s) ∨
        StuckAtRemoval (replayAll default operations) s by
    refine (hall s.pending s rfl).imp_right fun h => ?_
    exact h.of_end (.of_journal_eq rfl) fun _ _ hend => hend
  intro operations
  induction operations with
  | nil => exact fun s _ => .inl (.of_journal_eq rfl)
  | cons operation rest ih =>
    intro s hpending
    have hfirst := logged_replay hpending default
    cases hstep : replay default operation s with
    | error e mid =>
      have hend : replayAll default (operation :: rest) s = .error e mid := by
        rw [replayAll, bind_apply, hstep]
      refine hfirst.imp (fun h => ?_) fun h => h.of_end (.of_journal_eq rfl) fun _ _ hfails => ?_
      · rw [stateAfter_of_error hstep] at h
        rwa [stateAfter_of_error hend]
      · rw [hstep] at hfails
        cases hfails
        exact hend
    | ok answer mid =>
      have hmid : s.Logged (·.isRead = false) { mid with pending := rest } := by
        rw [stateAfter_of_ok hstep] at hfirst
        rcases hfirst with h | ⟨⟨e, hfails⟩, -, -⟩
        · exact h.trans (.of_journal_eq rfl)
        · rw [hstep] at hfails
          cases hfails
      have hrun := replayAll_cons hstep rest
      refine (ih { mid with pending := rest } rfl).imp (fun h => hmid.trans ?_) fun h =>
        h.of_end hmid.onlySizes fun _ _ hfails => ?_
      · unfold stateAfter at h ⊢
        rw [hrun, bind_apply]
        cases hrest : replayAll default rest { mid with pending := rest } <;> rwa [hrest] at h
      · rw [hrun, bind_apply, hfails]

end Session

end TrackedFields
