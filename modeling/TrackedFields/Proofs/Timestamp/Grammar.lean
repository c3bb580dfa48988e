import TrackedFields.Proofs.Calendar.Date
import TrackedFields.Proofs.Text.Decimal
import TrackedFields.Timestamp.Text

/-!
# The grammar of written timestamps

Reading a timestamp depends on the runs of digits of the text alone. There are six of them, or
seven with a fraction, and they have to name a date, a time of day and a fraction of at most nine
digits. The main statement says that texts of this form are read as the second and the fraction
that they name, and that every other text is refused.
-/

namespace TrackedFields.Timestamp

open Calendar Text Text.Decimal

/-- The runs of digits of a written timestamp. -/
structure Written where
  year : List Char
  month : List Char
  day : List Char
  hour : List Char
  minute : List Char
  second : List Char
  fraction : Option (List Char)

namespace Written

/-- The runs in the order in which they are written. -/
def runs (w : Written) : List (List Char) :=
  [w.year, w.month, w.day, w.hour, w.minute, w.second] ++ w.fraction.toList

/-- The written date. -/
def date (w : Written) : Date := ⟨value w.year, value w.month, value w.day⟩

/-- The written date and time of day. -/
def dateTime (w : Written) : DateTime :=
  ⟨value w.year, value w.month, value w.day, value w.hour, value w.minute, value w.second⟩

/-- The date exists and is not after the last year of the calendar, the time of day exists, and the
fraction is not finer than nanoseconds. -/
structure IsValid (w : Written) : Prop where
  date : w.date.IsValid
  year : value w.year ≤ 262142
  hour : value w.hour < 24
  minute : value w.minute < 60
  second : value w.second < 60
  fraction : ∀ ds ∈ w.fraction, ds.length ≤ 9

/-- The written second, counted from the start of 1970. -/
def seconds (w : Written) : Int :=
  86400 * w.date.dayNumber + 3600 * value w.hour + 60 * value w.minute + value w.second

/-- The written fraction in nanoseconds: missing digits are zeros. -/
def nanos (w : Written) : Nat :=
  match w.fraction with
  | none => 0
  | some ds => value ds * 10 ^ (9 - ds.length)

/-- What is written is a date and time of the calendar, with a fraction that is fine enough. -/
theorem isValid_iff {w : Written} :
    w.IsValid ↔ w.dateTime.IsValid ∧ ∀ ds ∈ w.fraction, ds.length ≤ 9 := by
  constructor
  · intro h
    refine ⟨⟨?_, ?_, h.date, h.hour, h.minute, h.second⟩, h.fraction⟩
    · exact Int.le_trans (by decide) (Int.natCast_nonneg (value w.year))
    · exact Int.ofNat_le.mpr h.year
  · rintro ⟨⟨-, hyear, hdate, hhour, hminute, hsecond⟩, hfraction⟩
    exact ⟨hdate, Int.ofNat_le.mp hyear, hhour, hminute, hsecond, hfraction⟩

/-- The fraction is below one second. -/
theorem nanos_lt {w : Written} (hdigits : ∀ ds ∈ w.fraction, IsRun ds)
    (hlength : ∀ ds ∈ w.fraction, ds.length ≤ 9) : w.nanos < nanosPerSecond := by
  unfold nanos
  split
  · exact (by decide : 0 < nanosPerSecond)
  · next ds hds =>
    have hvalue : value ds < 10 ^ ds.length := value_lt (hdigits ds hds).digits
    calc value ds * 10 ^ (9 - ds.length)
        < 10 ^ ds.length * 10 ^ (9 - ds.length) :=
          Nat.mul_lt_mul_of_pos_right hvalue (Nat.pow_pos (by decide))
      _ = 10 ^ 9 := by rw [← Nat.pow_add, Nat.add_sub_cancel' (hlength ds hds)]

/-! ### Reading runs -/

/-- The fraction as it is read. -/
def readNanos (w : Written) : Option Nat :=
  match w.fraction with
  | none => some 0
  | some ds => readFraction ds

/-- A fraction is read if it is fine enough. -/
theorem readNanos_eq_some_iff {w : Written} {n : Nat} :
    w.readNanos = some n ↔ (∀ ds ∈ w.fraction, ds.length ≤ 9) ∧ w.nanos = n := by
  unfold readNanos nanos
  cases w.fraction with
  | none => simp
  | some ds => simp [readFraction, value_append_zeros]

/-- Reading the runs of a timestamp is reading its fraction and checking its date and time. -/
theorem ofRuns?_runs (w : Written) :
    ofRuns? w.runs = w.readNanos.bind fun nanos => w.dateTime.checked.bind fun dateTime =>
      some ⟨Int64.ofInt dateTime.seconds, UInt32.ofNat nanos⟩ := by
  obtain ⟨year, month, day, hour, minute, second, fraction⟩ := w
  cases fraction <;> rfl

/-- The runs of a timestamp are read exactly if they are valid. -/
theorem ofRuns?_runs_eq_some_iff {w : Written} {t : Timestamp} :
    ofRuns? w.runs = some t ↔
      w.IsValid ∧ ⟨Int64.ofInt w.seconds, UInt32.ofNat w.nanos⟩ = t := by
  have hseconds : w.dateTime.seconds = w.seconds := rfl
  rw [ofRuns?_runs, isValid_iff]
  simp only [Option.bind_eq_some_iff, readNanos_eq_some_iff, DateTime.checked,
    Option.ite_none_right_eq_some, Option.some.injEq]
  constructor
  · rintro ⟨_, ⟨hfraction, rfl⟩, _, ⟨hdateTime, rfl⟩, rfl⟩
    exact ⟨⟨hdateTime, hfraction⟩, rfl⟩
  · rintro ⟨⟨hdateTime, hfraction⟩, rfl⟩
    exact ⟨_, ⟨hfraction, rfl⟩, _, ⟨hdateTime, rfl⟩, rfl⟩

end Written

/-- Only six or seven runs are read. -/
theorem exists_written_of_ofRuns? {groups : List (List Char)} {t : Timestamp}
    (h : ofRuns? groups = some t) : ∃ w : Written, w.runs = groups := by
  match groups with
  | [year, month, day, hour, minute, second] =>
    exact ⟨⟨year, month, day, hour, minute, second, none⟩, rfl⟩
  | [year, month, day, hour, minute, second, fraction] =>
    exact ⟨⟨year, month, day, hour, minute, second, some fraction⟩, rfl⟩
  | [] | [_] | [_, _] | [_, _, _] | [_, _, _, _] | [_, _, _, _, _] => cases h
  | _ :: _ :: _ :: _ :: _ :: _ :: _ :: _ :: _ => cases h

/-! ### Reading texts -/

/-- Reading a text is reading its runs. -/
theorem toOption_parse (s : String) : (parse s).toOption = ofRuns? (Decimal.runs s.toList) := by
  unfold parse
  cases ofRuns? (Decimal.runs s.toList) <;> rfl

/-- The parser accepts exactly its grammar. A text has its runs of digits; if these are a written
timestamp, it is read as the second and the fraction that are written, and otherwise it is refused.
Texts with the same runs are read alike. Days are counted one by one from 1 January 1970. -/
theorem parse_grammar (s : String) :
    (Date.dayNumber ⟨1970, 1, 1⟩ = 0 ∧
      ∀ d : Date, d.IsValid → d.next.IsValid ∧ d.next.dayNumber = d.dayNumber + 1) ∧
    ∃ groups, (∀ other, SplitsInto s.toList other ↔ other = groups) ∧
      (∀ w : Written, w.runs = groups → w.IsValid →
        ∃ t, parse s = .ok t ∧ t.secs.toInt = w.seconds ∧ t.nanos.toNat = w.nanos) ∧
      ((∀ w : Written, w.runs = groups → ¬ w.IsValid) →
        parse s = .error (.invalidTimestamp s)) ∧
      ∀ other : String, SplitsInto other.toList groups →
        (parse other).toOption = (parse s).toOption := by
  have hsplit : SplitsInto s.toList (Decimal.runs s.toList) := splitsInto_iff.mpr rfl
  refine ⟨⟨by decide, fun _ h => ⟨Date.isValid_next h, Date.dayNumber_next h⟩⟩,
    Decimal.runs s.toList, fun other => splitsInto_iff.trans eq_comm, ?_, ?_, ?_⟩
  · intro w hw hvalid
    have hread := Written.ofRuns?_runs_eq_some_iff.mpr ⟨hvalid, rfl⟩
    rw [hw] at hread
    have hdigits : ∀ ds ∈ w.fraction, IsRun ds := by
      intro ds hds
      apply hsplit.isRun
      rw [← hw]
      exact List.mem_append_right _ (Option.mem_toList.mpr hds)
    have hnanos : w.nanos < nanosPerSecond := Written.nanos_lt hdigits hvalid.fraction
    have hword : w.nanos < UInt32.size := Nat.lt_trans hnanos (by decide)
    refine ⟨_, by rw [parse, hread], ?_, UInt32.toNat_ofNat_of_lt' hword⟩
    exact (Written.isValid_iff.mp hvalid).1.toInt_ofInt_seconds
  · intro hnone
    have hread : ofRuns? (Decimal.runs s.toList) = none := by
      refine Option.eq_none_iff_forall_ne_some.mpr fun t ht => ?_
      obtain ⟨w, hw⟩ := exists_written_of_ofRuns? ht
      rw [← hw] at ht
      exact hnone w hw (Written.ofRuns?_runs_eq_some_iff.mp ht).1
    rw [parse, hread]
  · intro other hother
    rw [toOption_parse, toOption_parse, splitsInto_iff.mp hother]

/-- Words between the numbers and zeros in front of them do not matter. The same day of the year
before does not exist. -/
theorem parse_grammar_of_loose_text :
    let loose := "on 02024/2/29 at 23h59m59.050"
    let missing := "2023-02-29 23:59:59"
    let written : Written :=
      ⟨['0', '2', '0', '2', '4'], ['2'], ['2', '9'], ['2', '3'], ['5', '9'], ['5', '9'],
        some ['0', '5', '0']⟩
    (SplitsInto loose.toList written.runs ∧ written.IsValid ∧
      ∃ t, parse loose = .ok t ∧ t.secs.toInt = 1709251199 ∧ t.nanos.toNat = 50000000) ∧
    parse missing = .error (.invalidTimestamp missing) := by
  intro loose missing written
  have hvalid : written.IsValid := Written.isValid_iff.mpr ⟨by decide, by decide⟩
  have hsplit : SplitsInto loose.toList written.runs := splitsInto_iff.mpr (by decide)
  obtain ⟨-, groups, hgroups, hread, -⟩ := parse_grammar loose
  obtain ⟨t, hparse, hseconds, hnanos⟩ := hread written ((hgroups _).mp hsplit) hvalid
  obtain ⟨-, groups, hgroups, -, hrefused, -⟩ := parse_grammar missing
  have hmissing : Decimal.runs missing.toList = [['2', '0', '2', '3'], ['0', '2'], ['2', '9'],
      ['2', '3'], ['5', '9'], ['5', '9']] := by decide
  obtain rfl := (hgroups _).mp (splitsInto_iff.mpr hmissing)
  refine ⟨⟨hsplit, hvalid, t, hparse, hseconds.trans (by decide), hnanos.trans (by decide)⟩,
    hrefused fun w hw hdate => ?_⟩
  have hnone : ¬ (⟨2023, 2, 29⟩ : Date).IsValid := by decide
  obtain ⟨year, month, day, hour, minute, second, fraction⟩ := w
  simp only [Written.runs, List.cons_append, List.cons.injEq] at hw
  obtain ⟨rfl, rfl, rfl, -⟩ := hw
  exact hnone hdate.date

end TrackedFields.Timestamp
