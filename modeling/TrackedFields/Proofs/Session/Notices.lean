import TrackedFields.Proofs.Session.Heard
import TrackedFields.Proofs.Session.Unmarked
import TrackedFields.Proofs.Store.Calls
import TrackedFields.Proofs.Tracked.Untouched

/-!
# Looks and notices

At the one end, a session of which nothing was asked but to read its stores; at the other end, one
that was asked for whatever a change takes and then, last of all, told the owner of it: one mark of
the owning field and, outside a transaction, one update. For a value without elements that is all.
-/

namespace TrackedFields

/-- Whether a call asks a store for some of its content. -/
def StoreCall.isRead {E : Type} : StoreCall E → Bool
  | size | contains _ | elements | get _ => true
  | add _ _ | insert _ _ | remove _ _ _ | removeAt _ _ | set _ _ _ | clear | updateEmbedded _ _ =>
    false

namespace Store

variable {E α : Type}

/-- An action that reads a store and does nothing else to it, whether it answers or fails. -/
def OnlyReads (action : StoreAction E α) : Prop :=
  Looks action ∧ ∀ st, ∃ calls, (stateAfter action st).calls = st.calls ++ calls ∧
    ∀ call ∈ calls, call.isRead = true

/-- A read. -/
theorem onlyReads_reading {call : StoreCall E} (hcall : call.isRead = true)
    (answer : Store E → α) : OnlyReads (reading call answer) := by
  refine ⟨looks_reading call answer, fun st => ⟨[call], ?_, by simpa using hcall⟩⟩
  rw [stateAfter, reading_eq]
  cases st.reads.now with
  | true => rfl
  | false => rfl

/-- Reading a whole container. -/
theorem onlyReads_elements (owner : ObjectId) : OnlyReads (elements (E := E) owner) := by
  refine ⟨looks_elements owner, fun st => ⟨[.elements], ?_, by simp [StoreCall.isRead]⟩⟩
  rw [stateAfter, elements_eq]
  cases st.reads.now with
  | true => rfl
  | false => rfl

end Store

namespace Session

variable {E : Type} {s mid after : Session E}

/-- Store calls mark no field. -/
theorem OnlyCalled.unmarked (h : s.OnlyCalled after) : s.Unmarked after := by
  obtain ⟨calls, hjournal⟩ := h.journal
  refine ⟨h.settings, h.transactionActive, h.entities, _, hjournal, ?_⟩
  intro effect hmem
  obtain ⟨call, -, rfl⟩ := List.mem_map.mp hmem
  simp

/-- Between two moments, a session was asked for nothing but reads of its stores. -/
structure OnlyRead (s after : Session E) : Prop where
  called : s.OnlyCalled after
  journal : ∃ calls : List (StoreName × StoreCall E),
    after.journal = s.journal ++ calls.map (fun (name, call) => .called name call) ∧
      ∀ call ∈ calls, call.2.isRead = true

namespace OnlyRead

/-- Nothing was asked for between a moment and itself. -/
theorem refl (s : Session E) : s.OnlyRead s :=
  ⟨.refl s, [], (List.append_nil _).symm, fun _ hmem => by cases hmem⟩

/-- Reads come one after the other. -/
theorem trans (h : s.OnlyRead mid) (h' : mid.OnlyRead after) : s.OnlyRead after := by
  obtain ⟨calls, hcalls, hreads⟩ := h.journal
  obtain ⟨more, hmore, hreads'⟩ := h'.journal
  refine ⟨h.called.trans h'.called, calls ++ more, ?_, ?_⟩
  · rw [hmore, hcalls, List.map_append, List.append_assoc]
  · intro call hmem
    exact (List.mem_append.mp hmem).elim (hreads call) (hreads' call)

/-- Reading a store. -/
theorem afterCalls {α : Type} {action : StoreAction E α} (h : Store.OnlyReads action)
    (s : Session E) (name : StoreName) :
    s.OnlyRead (s.afterCalls name (stateAfter action (s.store name))) := by
  obtain ⟨calls, hcalls, hreads⟩ := h.2 (s.store name)
  refine ⟨.afterCalls s name (h.1 (s.store name)), calls.map (name, ·), ?_, ?_⟩
  · change s.journal ++ _ = _
    rw [hcalls, List.drop_left, List.map_map]
    rfl
  · intro call hmem
    obtain ⟨call, hcall, rfl⟩ := List.mem_map.mp hmem
    exact hreads call hcall

end OnlyRead

/-- Between two moments, a session was asked for whatever a change takes and then, last of all, told
of the change: the owning field was marked once and, outside a transaction, the change persisted
once. -/
structure Concluded (o : Owner) (s after : Session E) : Prop where
  transactionActive : after.transactionActive = s.transactionActive
  /-- One mark more, of the owning field. -/
  entities : after.entities = (s.markDirty o.id o.field).entities
  journal : ∃ effects,
    (∀ effect ∈ effects, effect ≠ .updated ∧ ∀ owner field, effect ≠ .dirtied owner field) ∧
      after.journal = s.journal ++ effects ++
        .dirtied o.id o.field :: if s.transactionActive then [] else [.updated]

private theorem transactionActive_markDirty (s : Session E) (id : ObjectId) (field : FieldOrdinal) :
    (s.markDirty id field).transactionActive = s.transactionActive := by
  unfold markDirty updateEntity
  cases s.entity? id <;> rfl

private theorem journal_markDirty (s : Session E) (id : ObjectId) (field : FieldOrdinal) :
    (s.markDirty id field).journal = s.journal ++ [.dirtied id field] := by
  unfold markDirty updateEntity
  cases s.entity? id <;> rfl

private theorem entities_markDirty_congr (h : mid.entities = s.entities) (id : ObjectId)
    (field : FieldOrdinal) :
    (mid.markDirty id field).entities = (s.markDirty id field).entities := by
  unfold markDirty updateEntity entity? record
  rw [h]
  cases s.entities.get? id with
  | none => exact h
  | some entity => rfl

/-- Telling an owner in memory of a change concludes it. -/
theorem Unmarked.concluded {o : Owner} (h : s.Unmarked mid) (halive : s.isAlive o.id = true) :
    s.Concluded o (o.changed mid) := by
  obtain ⟨effects, hjournal, hquiet⟩ := h.journal
  have hmark : (mid.markDirty o.id o.field).transactionActive = s.transactionActive :=
    (mid.transactionActive_markDirty o.id o.field).trans h.transactionActive
  have hentities : (mid.markDirty o.id o.field).entities = (s.markDirty o.id o.field).entities :=
    entities_markDirty_congr h.entities o.id o.field
  have hrecord : (mid.markDirty o.id o.field).journal =
      s.journal ++ effects ++ [.dirtied o.id o.field] := by
    rw [journal_markDirty, hjournal]
  unfold Owner.changed
  rw [if_pos ((h.isAlive_eq o.id).trans halive)]
  dsimp only
  rw [hmark]
  cases htransaction : s.transactionActive with
  | true =>
    rw [if_pos rfl]
    exact ⟨hmark, hentities, effects, hquiet, by rw [hrecord, htransaction, if_pos rfl]⟩
  | false =>
    rw [if_neg Bool.false_ne_true]
    refine ⟨hmark, hentities, effects, hquiet, ?_⟩
    change (mid.markDirty o.id o.field).journal ++ [.updated] = _
    rw [hrecord, htransaction, if_neg Bool.false_ne_true, List.append_assoc]
    rfl

/-- Between two moments, an owner was told of one change, and nothing else happened: its field was
marked once and, outside a transaction, the change persisted once. -/
structure OnlyTold (o : Owner) (s after : Session E) : Prop where
  marks : after.marksOf o.id = s.marksOf o.id ++ [o.field]
  journal : after.journal =
    s.journal ++ .dirtied o.id o.field :: if s.transactionActive then [] else [.updated]
  updates : after.updates = s.updates + if s.transactionActive then 0 else 1
  /-- All other entities are as they were. -/
  others : ∀ id, id ≠ o.id → after.entity? id = s.entity? id
  /-- All other parts of the session are as they were. -/
  rest : after = { s with entities := after.entities, journal := after.journal }

/-- A mark changes one entity and the journal. -/
theorem markDirty_eq (s : Session E) (id : ObjectId) (field : FieldOrdinal) :
    ∃ entities, s.markDirty id field =
        { s with entities, journal := s.journal ++ [.dirtied id field] } ∧
      ∀ other, other ≠ id → entities.get? other = s.entities.get? other := by
  unfold markDirty updateEntity
  cases s.entity? id with
  | none => exact ⟨s.entities, rfl, fun _ _ => rfl⟩
  | some entity =>
    refine ⟨_, rfl, fun other hother => ?_⟩
    rw [Table.get?_set, if_neg hother]

/-- Telling an owner in memory of a change does nothing else. -/
theorem onlyTold_changed {o : Owner} (halive : s.isAlive o.id = true) :
    s.OnlyTold o (o.changed s) := by
  have hheard := o.heard_changed s
  have hmarks : (o.changed s).marksOf o.id = s.marksOf o.id ++ [o.field] := by
    have hmarks := congrArg News.marks hheard
    simp only [heard, News.append_eq, Hearing.news, hearing, halive, if_true] at hmarks
    exact hmarks
  have hupdates : (o.changed s).updates = s.updates + if s.transactionActive then 0 else 1 := by
    have hupdates := congrArg News.updates hheard
    simp only [heard, News.append_eq, Hearing.news, hearing, halive, Bool.true_and] at hupdates
    rw [hupdates]
    cases s.transactionActive <;> rfl
  obtain ⟨entities, hmark, hothers⟩ := s.markDirty_eq o.id o.field
  have hchanged : o.changed s = { s with
      entities
      journal := s.journal ++
        .dirtied o.id o.field :: if s.transactionActive then [] else [.updated] } := by
    rw [Owner.changed, if_pos halive, hmark]
    dsimp only
    split
    · rfl
    · rw [persistUpdate, record, List.append_assoc]
      rfl
  refine ⟨hmarks, ?_, hupdates, ?_, ?_⟩
  · rw [hchanged]
  · intro id hid
    rw [hchanged]
    exact hothers id hid
  · rw [hchanged]

end Session

end TrackedFields
