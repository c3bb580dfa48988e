import TrackedFields.Proofs.Session.Notices
import TrackedFields.Proofs.Timestamp.Fraction
import TrackedFields.TrackedTimestamp

/-!
# Attaching a timestamp

The milliseconds of a timestamp are its instant rounded down, so they keep the order and lose
nothing but what is finer than a millisecond. A field that takes over a timestamp from outside the
session compares milliseconds: its owner is told if they differ. If they cannot be counted, nothing
is taken over.
-/

namespace TrackedFields

namespace Timestamp

/-- Two timestamps lie in the same millisecond. -/
def SameMillisecond (a b : Timestamp) : Prop :=
  a.secs = b.secs ∧ a.nanos.toNat / 1000000 = b.nanos.toNat / 1000000

/-- The milliseconds are the instant, rounded down. -/
theorem toInt_of_millis_eq_div {t : Timestamp} {m : Int64} (h : t.millis = .ok m) :
    m.toInt = t.instant / 1000000 := by
  have hcount := toInt_of_millis h
  unfold nanosPerMilli at hcount
  unfold instant
  omega

section Rounding

variable {a b : Timestamp} {m n : Int64}

/-- Counted back, a timestamp has lost what is finer than a millisecond. -/
theorem fromMillis_of_millis (hnanos : a.nanos.toNat ≤ 999999999) (hm : a.millis = .ok m) :
    (fromMillis m).secs = a.secs ∧
      (fromMillis m).nanos.toNat = a.nanos.toNat / 1000000 * 1000000 := by
  have hcount := toInt_of_millis hm
  unfold nanosPerMilli at hcount
  refine ⟨Int64.toInt_inj.mp ?_, ?_⟩
  · rw [toInt_secs_fromMillis]
    omega
  · rw [toNat_nanos_fromMillis]
    unfold nanosPerMilli
    omega

/-- Milliseconds keep the order. -/
theorem millis_le_millis (ha : a.nanos.toNat ≤ 999999999) (hb : b.nanos.toNat ≤ 999999999)
    (hm : a.millis = .ok m) (hn : b.millis = .ok n) (hle : (compare a b).isLE) : m ≤ n := by
  rw [compare_eq_compare_instant ha hb, Std.isLE_compare] at hle
  rw [Int64.le_iff_toInt_le, toInt_of_millis_eq_div hm, toInt_of_millis_eq_div hn]
  exact Int.ediv_le_ediv (by decide) hle

/-- Timestamps have equal milliseconds if they lie in the same one. -/
theorem millis_eq_millis_iff (ha : a.nanos.toNat ≤ 999999999) (hb : b.nanos.toNat ≤ 999999999)
    (hm : a.millis = .ok m) (hn : b.millis = .ok n) : m = n ↔ a.SameMillisecond b := by
  have hcount := toInt_of_millis hm
  have hcount' := toInt_of_millis hn
  unfold nanosPerMilli at hcount hcount'
  rw [← Int64.toInt_inj, SameMillisecond, ← Int64.toInt_inj]
  omega

end Rounding

end Timestamp

namespace TrackedTimestamp

open Timestamp

variable {E : Type}

/-- If milliseconds are counted on both sides, they are compared. -/
theorem differInMillis_of_ok {a b : Timestamp} {m n : Int64} (hm : a.millis = .ok m)
    (hn : b.millis = .ok n) : differInMillis a b = .ok (m != n) := by
  unfold differInMillis
  rw [hm, hn]
  rfl

/-- If milliseconds are not counted on some side, the first one's overflow is what the comparison
ends with. -/
theorem exists_differInMillis_error {a b : Timestamp}
    (h : (∀ m, a.millis ≠ .ok m) ∨ ∀ n, b.millis ≠ .ok n) :
    ∃ e, (a.millis = .error e ∨ (∃ m, a.millis = .ok m) ∧ b.millis = .error e) ∧
      differInMillis a b = .error e := by
  unfold differInMillis
  cases ha : a.millis with
  | error e => exact ⟨e, .inl rfl, rfl⟩
  | ok m =>
    cases hb : b.millis with
    | error e => exact ⟨e, .inr ⟨⟨m, rfl⟩, rfl⟩, rfl⟩
    | ok n => exact (h.elim (· m ha) (· n hb)).elim

/-- Taking over a timestamp compares milliseconds first. -/
theorem attachCopy_eq (a b : Timestamp) (o : Owner) (s : Session E) :
    attachCopy b ⟨⟨a, some o⟩, s⟩ =
      match differInMillis a b with
      | .error e => .error (.overflow e) ⟨⟨a, some o⟩, s⟩
      | .ok different => .ok () ⟨⟨b, some o⟩, if different then o.changed s else s⟩ := by
  have hattach : attachCopy b ⟨⟨a, some o⟩, s⟩ =
      (match differInMillis a b with
        | .error e => throw (.overflow e)
        | .ok different => do
          initialiseFrom b
          if different then makeDirty : Action E Unit) ⟨⟨a, some o⟩, s⟩ := rfl
  rw [hattach]
  cases differInMillis a b with
  | error e => rfl
  | ok different => cases different <;> rfl

/-- Milliseconds round down and keep the order, and attaching goes by them. Of timestamps with
fractions below one second whose milliseconds are counted, one that is counted back has lost what is
finer than a millisecond; the earlier one has no more milliseconds than the later; both have equally
many exactly if they lie in the same millisecond; and a field that takes over the other one has
exactly that, and tells its owner once if they do not lie in the same millisecond, and nothing
otherwise. Where milliseconds are not counted, on whichever side and whatever the fractions are, the
field and its session stay as they are. -/
theorem attached_by_millis (a b : Timestamp) (o : Owner) (s : Session E) :
    (∀ m n, a.nanos.toNat ≤ 999999999 → b.nanos.toNat ≤ 999999999 →
      a.millis = .ok m → b.millis = .ok n →
      ((fromMillis m).secs = a.secs ∧
        (fromMillis m).nanos.toNat = a.nanos.toNat / 1000000 * 1000000) ∧
      ((compare a b).isLE → m ≤ n) ∧
      (m = n ↔ a.SameMillisecond b) ∧
      ∃ after, attachCopy b ⟨⟨a, some o⟩, s⟩ = .ok () ⟨⟨b, some o⟩, after⟩ ∧
        (a.SameMillisecond b → after = s) ∧
        (¬ a.SameMillisecond b → s.isAlive o.id = true → s.OnlyTold o after)) ∧
    ((∀ m, a.millis ≠ .ok m) ∨ (∀ n, b.millis ≠ .ok n) →
      ∃ e, (a.millis = .error e ∨ (∃ m, a.millis = .ok m) ∧ b.millis = .error e) ∧
        attachCopy b ⟨⟨a, some o⟩, s⟩ = .error (.overflow e) ⟨⟨a, some o⟩, s⟩) := by
  constructor
  · intro m n ha hb hm hn
    have hsame := millis_eq_millis_iff ha hb hm hn
    refine ⟨fromMillis_of_millis ha hm, millis_le_millis ha hb hm hn, hsame,
      if m != n then o.changed s else s, ?_, ?_, ?_⟩
    · rw [attachCopy_eq, differInMillis_of_ok hm hn]
    · intro h
      rw [if_neg]
      simpa using hsame.mpr h
    · intro h halive
      rw [if_pos]
      · exact Session.onlyTold_changed halive
      · simpa using mt hsame.mp h
  · intro h
    obtain ⟨e, herror, hdiffer⟩ := exists_differInMillis_error h
    exact ⟨e, herror, by rw [attachCopy_eq, hdiffer]⟩

/-- One nanosecond before 1970: taking over the start of its millisecond is not told, taking over
the nanosecond before that is, and the last second that there is cannot be taken over. -/
theorem attached_by_millis_before_epoch :
    let o : Owner := { id := .ofNat 7, descriptor := { name := "date", ordinal := ⟨2⟩ } }
    let s : Session Int32 := { entities := Table.empty.set o.id { typeName := "Game" } }
    let last : Timestamp := ⟨-1, 999999999⟩
    let start : Timestamp := ⟨-1, 999000000⟩
    let before : Timestamp := ⟨-1, 998999999⟩
    last.millis = .ok (-1) ∧ fromMillis (-1) = start ∧ before.millis = .ok (-2) ∧
      attachCopy start ⟨⟨last, some o⟩, s⟩ = .ok () ⟨⟨start, some o⟩, s⟩ ∧
      (∃ after, attachCopy before ⟨⟨last, some o⟩, s⟩ = .ok () ⟨⟨before, some o⟩, after⟩ ∧
        s.OnlyTold o after) ∧
      attachCopy ⟨Int64.maxValue, 0⟩ ⟨⟨last, some o⟩, s⟩ =
        .error (.overflow .multiply) ⟨⟨last, some o⟩, s⟩ := by
  intro o s last start before
  have hlast : last.millis = .ok (-1) := by decide
  have hstart : start.millis = .ok (-1) := by decide
  have hbefore : before.millis = .ok (-2) := by decide
  have hfar : (⟨Int64.maxValue, 0⟩ : Timestamp).millis = .error .multiply := by decide
  obtain ⟨-, -, -, _, htaken, hquiet, -⟩ :=
    (attached_by_millis last start o s).1 _ _ (by decide) (by decide) hlast hstart
  obtain ⟨-, -, -, after, htold, -, honce⟩ :=
    (attached_by_millis last before o s).1 _ _ (by decide) (by decide) hlast hbefore
  obtain ⟨e, herror, hrefused⟩ :=
    (attached_by_millis last ⟨Int64.maxValue, 0⟩ o s).2 (.inr (by simp [hfar]))
  obtain rfl : e = .multiply := by
    simpa [hlast, hfar, eq_comm] using herror
  rw [hquiet ⟨rfl, by decide⟩] at htaken
  exact ⟨hlast, by decide, hbefore, htaken,
    ⟨after, htold, honce (fun h => absurd h.2 (by decide)) rfl⟩, hrefused⟩

end TrackedTimestamp

end TrackedFields
