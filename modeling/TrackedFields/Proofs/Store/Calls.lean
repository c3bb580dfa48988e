import TrackedFields.Proofs.Keeps

/-!
# What single store calls do

Each write of a store as an equation. A write is rejected, refused or carried out, and leaves one
of three stores: `noted` (only the record of the call), `refused` (also the owner's container, as
it was) or `written` (the new container, arranged, and the deletions that follow). Whoever reasons
about a store reads off these equations and the projections of the three stores, and never opens a
call again.
-/

namespace TrackedFields.Store

variable {E : Type}

/-- A store that has recorded a write and nothing else. -/
def noted (st : Store E) (call : StoreCall E) : Store E :=
  { st with
    calls := st.calls ++ [call]
    mutations := st.mutations + 1
    writes := st.writes.next }

/-- A store after a write that the owner's container refused. -/
def refused (st : Store E) (call : StoreCall E) (owner : ObjectId) : Store E :=
  (st.noted call).put owner (st.contents owner)

/-- A store whose reads and writes all pass. -/
structure Reliable (st : Store E) : Prop where
  reads : st.reads = .never
  writes : st.writes = .never

/-- A store after a read. -/
def afterRead (st : Store E) (call : StoreCall E) : Store E :=
  { st with calls := st.calls ++ [call], reads := st.reads.next }

/-- A read answers from the store as it is, unless it is rejected. -/
theorem reading_eq {α : Type} (call : StoreCall E) (answer : Store E → α) (st : Store E) :
    reading call answer st =
      if st.reads.now then .error .readRejected (st.afterRead call)
      else .ok (answer (st.afterRead call)) (st.afterRead call) := rfl

/-- A store whose container of some owner was read as a whole. -/
def iterated (st : Store E) : Store E :=
  { st.afterRead .elements with iterations := st.iterations + 1 }

/-- Reading a whole container gives its elements. -/
theorem elements_eq (owner : ObjectId) (st : Store E) :
    elements owner st =
      if st.reads.now then .error .readRejected (st.afterRead .elements)
      else .ok (st.contents owner) st.iterated := by
  rw [elements, bind_apply, reading_eq]
  cases st.reads.now with
  | true => rfl
  | false => rfl

/-- A write as an equation. -/
theorem writing_eq {α : Type} (call : StoreCall E) (owner : ObjectId)
    (change : List E → Except StoreError (α × List E)) (st : Store E) :
    writing call owner change st =
      if st.writes.now then .error (.writeRejected owner) (st.noted call)
      else
        match change (st.contents owner) with
        | .error e => .error e (st.refused call owner)
        | .ok (a, es) => .ok a ((st.noted call).put owner (st.arrange es)) := rfl

/-- A write that was noted is counted, whatever comes of it. -/
@[simp] theorem writes_noted (st : Store E) (call : StoreCall E) :
    (st.noted call).writes = st.writes.next := rfl

/-- A refused write leaves every container as it was. -/
@[simp] theorem contents_refused (st : Store E) (call : StoreCall E) (owner other : ObjectId) :
    (st.refused call owner).contents other = st.contents other := by
  unfold refused
  rw [contents_put]
  split
  · next h => rw [h]
  · rfl

/-- A read is counted. -/
@[simp] theorem reads_afterRead (st : Store E) (call : StoreCall E) :
    (st.afterRead call).reads = st.reads.next := rfl

variable [DecidableEq E]

/-- A store after a write that was carried out: the owner's container is the arranged new content,
and those elements that may be deleted, and that the container no longer holds, are deleted. -/
def written (st : Store E) (call : StoreCall E) (owner : ObjectId) (es gone : List E) : Store E :=
  { (st.noted call).put owner (st.arrange es) with
    deleted := st.deleted ++
      if st.dependent then gone.filter fun e => !(st.arrange es).contains e else [] }

/-- A write arranges the content of its owner by the rules of the store, and of no other. -/
@[simp] theorem contents_written (st : Store E) (call : StoreCall E) (owner other : ObjectId)
    (es gone : List E) :
    (st.written call owner es gone).contents other =
      if other = owner then st.arrange es else st.contents other :=
  contents_put _ owner other _

/-- The container of an owner right after a write to it. -/
theorem contents_written_self (st : Store E) (call : StoreCall E) (owner : ObjectId)
    (es gone : List E) : (st.written call owner es gone).contents owner = st.arrange es := by
  rw [contents_written, if_pos rfl]

omit [DecidableEq E] in
private theorem deleted_append_nil (st : Store E) :
    { st with deleted := st.deleted ++ [] } = st := by
  rw [List.append_nil]

/-- A write that removes nothing deletes nothing. -/
theorem written_nil (st : Store E) (call : StoreCall E) (owner : ObjectId) (es : List E) :
    st.written call owner es [] = (st.noted call).put owner (st.arrange es) := by
  unfold written
  rw [List.filter_nil, ite_self]
  exact deleted_append_nil _

private theorem deleteOrphans_put (st : Store E) (call : StoreCall E) (owner : ObjectId)
    (cascade : Bool) (es gone : List E) :
    deleteOrphans owner cascade gone ((st.noted call).put owner (st.arrange es)) =
      .ok () (st.written call owner es (if cascade then gone else [])) := by
  have hself : ((st.noted call).put owner (st.arrange es)).contents owner = st.arrange es := by
    rw [contents_put, if_pos rfl]
  change EStateM.Result.ok () (if (st.dependent && cascade) = true then _ else _) = _
  congr 1
  unfold written
  rw [hself]
  cases st.dependent with
  | false => exact (deleted_append_nil _).symm
  | true =>
    cases cascade with
    | false => exact (deleted_append_nil _).symm
    | true => rfl

private theorem writing_bind_eq {α β : Type} (call : StoreCall E) (owner : ObjectId)
    (cascade : Bool) (change : List E → Except StoreError (α × List E)) (gone : α → List E)
    (answer : α → β) (st : Store E) :
    (do
      let a ← writing call owner change
      deleteOrphans owner cascade (gone a)
      return answer a : StoreAction E β) st =
      if st.writes.now then .error (.writeRejected owner) (st.noted call)
      else
        match change (st.contents owner) with
        | .error e => .error e (st.refused call owner)
        | .ok (a, es) =>
          .ok (answer a) (st.written call owner es (if cascade then gone a else [])) := by
  rw [bind_apply, writing_eq]
  by_cases hnow : st.writes.now = true
  · rw [if_pos hnow, if_pos hnow]
  · rw [if_neg hnow, if_neg hnow]
    cases change (st.contents owner) with
    | error e => rfl
    | ok result =>
      obtain ⟨a, es⟩ := result
      change (deleteOrphans owner cascade (gone a) >>= fun _ => pure (answer a)) _ = _
      rw [bind_apply, deleteOrphans_put]
      rfl

variable (owner : ObjectId) (st : Store E)

/-- Adding appends the element. -/
theorem add_eq (e : E) (hint : Option Nat) :
    add owner e hint st =
      if st.writes.now then .error (.writeRejected owner) (st.noted (.add e hint))
      else .ok true (st.written (.add e hint) owner (st.contents owner ++ [e]) []) := by
  rw [add, writing_eq, written_nil]

/-- Inserting puts the element at its position, if the container reaches that far. -/
theorem insert_eq (position : Nat) (e : E) :
    insert owner position e st =
      if st.writes.now then .error (.writeRejected owner) (st.noted (.insert position e))
      else if (st.contents owner).length < position then
        .error (.positionOutOfRange position (st.contents owner).length)
          (st.refused (.insert position e) owner)
      else .ok () (st.written (.insert position e) owner
        ((st.contents owner).insertIdx position e) []) := by
  rw [insert, writing_eq, written_nil]
  by_cases h : (st.contents owner).length < position
  · rw [if_pos h, if_pos h]
  · rw [if_neg h, if_neg h]

/-- Removing takes out the first occurrence of the element. -/
theorem remove_eq (e : E) (hint : Option Nat) (cascade : Bool) :
    remove owner e hint cascade st =
      if st.writes.now then .error (.writeRejected owner) (st.noted (.remove e hint cascade))
      else .ok ((st.contents owner).contains e)
        (st.written (.remove e hint cascade) owner ((st.contents owner).erase e)
          (if cascade then (if (st.contents owner).contains e then [e] else []) else [])) :=
  writing_bind_eq (.remove e hint cascade) owner cascade
    (fun es => .ok (es.contains e, es.erase e)) (fun found : Bool => if found then [e] else [])
    id st

/-- Removing at a position takes out the element there, if there is one. -/
theorem removeAt_eq (position : Nat) (hint : Option Nat) :
    removeAt owner position hint st =
      if st.writes.now then .error (.writeRejected owner) (st.noted (.removeAt position hint))
      else .ok (st.contents owner)[position]?
        (st.written (.removeAt position hint) owner ((st.contents owner).eraseIdx position)
          (st.contents owner)[position]?.toList) :=
  writing_bind_eq (.removeAt position hint) owner true
    (fun es => .ok (es[position]?, es.eraseIdx position)) Option.toList id st

/-- Replacing puts the element in the place of the one at its position, if there is one. -/
theorem set_eq (position : Nat) (e : E) (cascade : Bool) :
    set owner position e cascade st =
      if st.writes.now then .error (.writeRejected owner) (st.noted (.set position e cascade))
      else
        match (st.contents owner)[position]? with
        | none => .error (.positionOutOfRange position (st.contents owner).length)
            (st.refused (.set position e cascade) owner)
        | some previous => .ok previous
            (st.written (.set position e cascade) owner ((st.contents owner).set position e)
              (if cascade then [previous] else [])) := by
  refine (writing_bind_eq (.set position e cascade) owner cascade _ (fun previous => [previous]) id
    st).trans ?_
  split
  · rfl
  · cases (st.contents owner)[position]? <;> rfl

/-- Clearing empties the container. -/
theorem clear_eq :
    clear owner st =
      if st.writes.now then .error (.writeRejected owner) (st.noted .clear)
      else .ok () (st.written .clear owner [] (st.contents owner)) :=
  writing_bind_eq .clear owner true _ id (fun _ => ()) st

end TrackedFields.Store
