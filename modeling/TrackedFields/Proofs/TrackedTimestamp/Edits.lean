import TrackedFields.Proofs.Session.Notices
import TrackedFields.Proofs.Timestamp.Calendar
import TrackedFields.Proofs.UnsetOwner

/-!
# Edits of a timestamp field

A timestamp field changes and fails as its timestamp does, and each edit that succeeds tells the
owner once. Copies of the field are on their own: whatever is done with them, the field and its
session stay as they are. The main statement follows a field and its copies through any run of
edits, with transactions opened and closed in between, next to a plain timestamp and two counters.
-/

namespace TrackedFields.TrackedTimestamp

variable {E : Type}

/-! ### Single calls -/

/-- An edit goes as it goes with the timestamp alone; if it succeeds, the owner is told. -/
theorem edit_eq (e : Timestamp.Edit) (t : Timestamp) (o : Owner) (s : Session E) :
    edit e ⟨⟨t, some o⟩, s⟩ =
      match e.apply t with
      | .error error => .error (.value error) ⟨⟨t, some o⟩, s⟩
      | .ok value => .ok () ⟨⟨value, some o⟩, o.changed s⟩ := by
  have hedit : edit e ⟨⟨t, some o⟩, s⟩ =
      (match e.apply t with
        | .error error => throw (.value error)
        | .ok value => do
          initialiseFrom value
          makeDirty : Action E Unit) ⟨⟨t, some o⟩, s⟩ := rfl
  rw [hedit]
  cases e.apply t <;> rfl

/-- A call on a timestamp without owner leaves the session alone, and the timestamp without owner.
-/
theorem Public.exists_stateAfter {α : Type} {action : Action E α} (h : Public action)
    {t : TrackedTimestamp} (ht : t.owner = none) (s : Session E) :
    ∃ value, stateAfter action ⟨t, s⟩ = ⟨unowned value, s⟩ := by
  obtain ⟨value, owner⟩ := t
  subst ht
  have hlockstep : Lockstep (Severed s s) ValueFailure Eq action action := h.lockstep
  obtain ⟨value', hstate, -⟩ := hlockstep.stateAfter ⟨value, rfl, rfl⟩
  exact ⟨value', hstate⟩

/-! ### Runs -/

/-- A timestamp field, the copies that were taken of it, and the session around them. -/
structure WithCopies (E : Type) where
  original : TrackedTimestamp
  copies : List TrackedTimestamp := []
  session : Session E

/-- What can happen to a timestamp field and its copies. -/
inductive Move (E : Type) : Type 1 where
  /-- The field is edited. -/
  | edit (e : Timestamp.Edit)
  /-- A transaction begins or ends. -/
  | transaction (active : Bool)
  /-- A copy of the field is taken. -/
  | copy
  /-- A copy of a copy is taken. -/
  | copyAgain (index : Nat)
  /-- A copy is called. -/
  | call (index : Nat) {α : Type} (action : Action E α) (h : Public action)

namespace Move

/-- The edit of the field, if it is one. -/
def edit? : Move E → Option Timestamp.Edit
  | .edit e => some e
  | _ => none

/-- Whether only copies are concerned. -/
def concernsCopies : Move E → Bool
  | .edit _ | .transaction _ => false
  | .copy | .copyAgain _ | .call .. => true

/-- What a move leaves. -/
def apply (w : WithCopies E) : Move E → WithCopies E
  | .edit e =>
    let scene := stateAfter (TrackedTimestamp.edit e) ⟨w.original, w.session⟩
    { w with original := scene.value, session := scene.session }
  | .transaction active => { w with session := { w.session with transactionActive := active } }
  | .copy => { w with copies := w.copies ++ [w.original.clone] }
  | .copyAgain index => { w with copies := w.copies ++ (w.copies[index]?.map clone).toList }
  | .call index action _ =>
    match w.copies[index]? with
    | none => w
    | some called =>
      let scene := stateAfter action ⟨called, w.session⟩
      { w with copies := w.copies.set index scene.value, session := scene.session }

end Move

/-- A plain timestamp under the same edits, with two counters: one for the edits that succeed and
one for those of them that do so outside a transaction. -/
structure Reference where
  value : Timestamp
  inTransaction : Bool
  marks : Nat := 0
  updates : Nat := 0
  deriving DecidableEq

/-- What a move means for the plain timestamp. -/
def Reference.apply (r : Reference) : Move E → Reference
  | .edit e =>
    match e.apply r.value with
    | .error _ => r
    | .ok value => { r with
        value
        marks := r.marks + 1
        updates := r.updates + if r.inTransaction then 0 else 1 }
  | .transaction active => { r with inTransaction := active }
  | .copy | .copyAgain _ | .call .. => r

/-- The plain timestamp has gone through the edits, failed ones left out. -/
theorem Reference.value_foldl_apply (moves : List (Move E)) (r : Reference) :
    (moves.foldl apply r).value = Timestamp.Edit.afterAll (moves.filterMap Move.edit?) r.value := by
  induction moves generalizing r with
  | nil => rfl
  | cons move moves ih =>
    rw [List.foldl_cons, ih]
    cases move with
    | edit e =>
      have hvalue : (r.apply (.edit e : Move E)).value = e.after r.value := by
        dsimp only [apply, Timestamp.Edit.after]
        cases e.apply r.value <;> rfl
      rw [hvalue]
      rfl
    | _ => rfl

/-- A field and its copies are as they have to be, given what has become of the plain timestamp
since the session was as at the start. -/
structure Refines (o : Owner) (start : Session E) (r : Reference) (w : WithCopies E) : Prop where
  original : w.original = ⟨r.value, some o⟩
  copies : ∀ copy ∈ w.copies, copy.owner = none
  alive : w.session.isAlive o.id = true
  transaction : w.session.transactionActive = r.inTransaction
  /-- One mark of the owning field for each edit that succeeded. -/
  marks : w.session.marksOf o.id = start.marksOf o.id ++ List.replicate r.marks o.field
  /-- One update for each of these that did so outside a transaction. -/
  updates : w.session.updates = start.updates + r.updates
  /-- All other entities are as at the start. -/
  others : ∀ id, id ≠ o.id → w.session.entity? id = start.entity? id
  /-- All other parts of the session are as at the start. -/
  rest : { w.session with
    transactionActive := start.transactionActive
    entities := start.entities
    journal := start.journal } = start

namespace Refines

variable {o : Owner} {start : Session E} {r : Reference} {w : WithCopies E}

/-- A field in memory that has just come into its session. -/
theorem initial (t : Timestamp) (halive : start.isAlive o.id = true) :
    Refines o start ⟨t, start.transactionActive, 0, 0⟩ ⟨⟨t, some o⟩, [], start⟩ :=
  ⟨rfl, fun _ hcopy => absurd hcopy List.not_mem_nil, halive, rfl, (List.append_nil _).symm, rfl,
    fun _ _ => rfl, rfl⟩

/-- An edit of the field: one that fails changes nothing, one that succeeds is told. -/
theorem edited (h : Refines o start r w) (e : Timestamp.Edit) :
    Refines o start (r.apply (.edit e : Move E)) ((Move.edit e).apply w) := by
  have hedit := edit_eq e r.value o w.session
  rw [← h.original] at hedit
  dsimp only [Reference.apply, Move.apply]
  cases happly : e.apply r.value with
  | error error =>
    rw [happly] at hedit
    rw [stateAfter_of_error hedit]
    exact h
  | ok value =>
    rw [happly] at hedit
    rw [stateAfter_of_ok hedit]
    have htold : w.session.OnlyTold o (o.changed w.session) := Session.onlyTold_changed h.alive
    have hhearing := o.hearing_changed w.session o.id
    refine ⟨rfl, h.copies, ?_, ?_, ?_, ?_, ?_, ?_⟩
    · exact (congrArg Hearing.alive hhearing).trans h.alive
    · exact (congrArg Hearing.inTransaction hhearing).trans h.transaction
    · rw [htold.marks, h.marks, List.append_assoc, List.replicate_succ']
    · rw [htold.updates, h.updates, h.transaction, Nat.add_assoc]
    · exact fun id hid => (htold.others id hid).trans (h.others id hid)
    · exact (congrArg (fun s : Session E => { s with
        transactionActive := start.transactionActive
        entities := start.entities
        journal := start.journal }) htold.rest).trans h.rest

/-- The begin or the end of a transaction. -/
theorem switched (h : Refines o start r w) (active : Bool) :
    Refines o start (r.apply (.transaction active : Move E)) ((Move.transaction active).apply w) :=
  ⟨h.original, h.copies, h.alive, rfl, h.marks, h.updates, h.others, h.rest⟩

/-- Changes among the copies that leave them without owner. -/
theorem of_copies (h : Refines o start r w) {copies : List TrackedTimestamp}
    (hcopies : ∀ copy ∈ copies, copy.owner = none) : Refines o start r { w with copies } :=
  ⟨h.original, hcopies, h.alive, h.transaction, h.marks, h.updates, h.others, h.rest⟩

/-- Whatever is done with a copy changes that copy at most. -/
theorem exists_copies (h : Refines o start r w) {move : Move E}
    (hmove : move.concernsCopies = true) :
    ∃ copies, move.apply w = { w with copies } ∧ ∀ copy ∈ copies, copy.owner = none := by
  cases move with
  | edit e => cases hmove
  | transaction active => cases hmove
  | copy =>
    refine ⟨_, rfl, fun copy hcopy => ?_⟩
    rcases List.mem_append.mp hcopy with hold | hnew
    · exact h.copies copy hold
    · rw [List.mem_singleton.mp hnew]
      rfl
  | copyAgain index =>
    refine ⟨_, rfl, fun copy hcopy => ?_⟩
    rcases List.mem_append.mp hcopy with hold | hnew
    · exact h.copies copy hold
    · obtain ⟨source, -, rfl⟩ := Option.map_eq_some_iff.mp (Option.mem_toList.mp hnew)
      rfl
  | call index action hpublic =>
    dsimp only [Move.apply]
    cases hcalled : w.copies[index]? with
    | none => exact ⟨w.copies, rfl, h.copies⟩
    | some called =>
      have hmem : called ∈ w.copies := List.mem_of_getElem? hcalled
      obtain ⟨value, hstate⟩ := hpublic.exists_stateAfter (h.copies called hmem) w.session
      dsimp only
      rw [hstate]
      refine ⟨_, rfl, fun copy hcopy => ?_⟩
      rcases List.mem_or_eq_of_mem_set hcopy with hold | rfl
      · exact h.copies copy hold
      · rfl

/-- Every move is refined. -/
theorem moved (h : Refines o start r w) (move : Move E) :
    Refines o start (r.apply move) (move.apply w) := by
  by_cases hmove : move.concernsCopies = true
  · obtain ⟨copies, happly, hcopies⟩ := h.exists_copies hmove
    have hr : r.apply move = r := by
      cases move with
      | edit e => cases hmove
      | transaction active => cases hmove
      | _ => rfl
    rw [happly, hr]
    exact h.of_copies hcopies
  · cases move with
    | edit e => exact h.edited e
    | transaction active => exact h.switched active
    | copy => exact absurd rfl hmove
    | copyAgain index => exact absurd rfl hmove
    | call index action hpublic => exact absurd rfl hmove

/-- Every run is refined. -/
theorem run (h : Refines o start r w) (moves : List (Move E)) :
    Refines o start (moves.foldl Reference.apply r) (moves.foldl (fun w m => m.apply w) w) := by
  induction moves generalizing r w with
  | nil => exact h
  | cons move moves ih => exact ih (h.moved move)

end Refines

/-- A timestamp field is its timestamp plus notification. After any run of edits of a field in
memory, with transactions that begin and end in between and copies that are taken and called, the
field has the value that a plain timestamp has after the same edits. Its owner has one mark more for
each edit that succeeded there and one update more for each that did so outside a transaction;
everything else in the session is as at the start. The next edit fails for the same reason as there,
and then changes nothing at all, or succeeds as there and is told once; and whatever is done with a
copy leaves field and session as they are. -/
theorem edits_told_exactly {o : Owner} {s : Session E} (halive : s.isAlive o.id = true)
    (t : Timestamp) (moves : List (Move E)) :
    let w := moves.foldl (fun w m => m.apply w) ⟨⟨t, some o⟩, [], s⟩
    let r := moves.foldl Reference.apply ⟨t, s.transactionActive, 0, 0⟩
    r.value = Timestamp.Edit.afterAll (moves.filterMap Move.edit?) t ∧ Refines o s r w ∧
    (∀ (e : Timestamp.Edit) (error : ValueError), e.apply r.value = .error error →
      edit e ⟨w.original, w.session⟩ = .error (.value error) ⟨w.original, w.session⟩) ∧
    (∀ (e : Timestamp.Edit) (value : Timestamp), e.apply r.value = .ok value →
      ∃ after, edit e ⟨w.original, w.session⟩ = .ok () ⟨⟨value, some o⟩, after⟩ ∧
        w.session.OnlyTold o after) ∧
    ∀ move : Move E, move.concernsCopies = true → ∃ copies, move.apply w = { w with copies } := by
  intro w r
  have h : Refines o s r w := (Refines.initial t halive).run moves
  have hedit (e : Timestamp.Edit) := edit_eq e r.value o w.session
  rw [← h.original] at hedit
  refine ⟨Reference.value_foldl_apply moves _, h, fun e error happly => ?_,
    fun e value happly => ?_, fun move hmove => ?_⟩
  · rw [hedit, happly]
  · refine ⟨o.changed w.session, ?_, Session.onlyTold_changed h.alive⟩
    rw [hedit, happly]
  · obtain ⟨copies, happly, -⟩ := h.exists_copies hmove
    exact ⟨copies, happly⟩

/-- A refused fraction, an edit outside a transaction and one inside of it. The copy taken in
between goes its own way, and is asked to tell its owner. -/
theorem edits_told_exactly_beside_copy :
    let o : Owner := { id := .ofNat 7, descriptor := { name := "date", ordinal := ⟨2⟩ } }
    let s : Session Int32 := { entities := Table.empty.set o.id { typeName := "Game" } }
    let moves : List (Move Int32) := [.edit (.nanos 1000000000), .edit (.millis 1500), .copy,
      .transaction true, .call 0 (edit (.day 2)) (.edit (.day 2)), .edit (.year 2000),
      .transaction false, .call 0 makeDirty .makeDirty, .edit (.seconds 60)]
    let w := moves.foldl (fun w m => m.apply w) ⟨⟨.epoch, some o⟩, [], s⟩
    s.isAlive o.id = true ∧ w.original = ⟨⟨946684801, 500000000⟩, some o⟩ ∧
      w.session.marksOf o.id = [o.field, o.field] ∧ w.session.updates = 1 ∧
      edit (.month 13) ⟨w.original, w.session⟩ =
        .error (.value (.invalidField .month 13)) ⟨w.original, w.session⟩ := by
  intro o s moves w
  have halive : s.isAlive o.id = true := rfl
  obtain ⟨-, h, hrefused, -⟩ := edits_told_exactly halive .epoch moves
  have hreference : moves.foldl Reference.apply ⟨.epoch, s.transactionActive, 0, 0⟩ =
      ⟨⟨946684801, 500000000⟩, false, 2, 1⟩ := by decide +kernel
  rw [hreference] at h hrefused
  exact ⟨halive, h.original, h.marks, h.updates, hrefused (.month 13) _ (by decide +kernel)⟩

end TrackedFields.TrackedTimestamp
