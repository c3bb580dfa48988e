import TrackedFields.Proofs.Json.Record
import TrackedFields.Proofs.Json.RoundTrip
import TrackedFields.Proofs.Timestamp.Calendar
import TrackedFields.Proofs.Timestamp.Grammar
import TrackedFields.Proofs.Timestamp.Millis
import TrackedFields.Timestamp.Json

/-!
# Fractions below one second

A timestamp is made from its parts, from milliseconds, from text or from JSON, and then edited. All
origins but JSON lead to a fraction below one second, and no edit leaves it. JSON takes every
fraction that fits its word, and a larger one stays until an edit replaces it. The order of
timestamps is that of their instants as long as the fractions are below one second, and a timestamp
with a larger one is misplaced.
-/

namespace TrackedFields.Timestamp

/-! ### The order of instants -/

/-- The instant of a timestamp, in nanoseconds since the start of 1970. -/
def instant (t : Timestamp) : Int := t.secs.toInt * 1000000000 + t.nanos.toNat

/-- Timestamps are ordered by their seconds first. -/
theorem compare_of_secs_ne {a b : Timestamp} (h : a.secs.toInt ≠ b.secs.toInt) :
    compare a b = compare a.secs.toInt b.secs.toInt := by
  change (compare a.secs.toInt b.secs.toInt).then _ = _
  cases hsecs : compare a.secs.toInt b.secs.toInt with
  | eq => exact absurd (compare_eq_iff_eq.mp hsecs) h
  | lt => rfl
  | gt => rfl

/-- Timestamps of the same second are ordered as their instants, whatever their fractions are. -/
theorem compare_of_secs_eq {a b : Timestamp} (h : a.secs = b.secs) :
    compare a b = compare a.instant b.instant := by
  change (compare a.secs.toInt b.secs.toInt).then (compare a.nanos.toNat b.nanos.toNat) = _
  rw [instant, instant, h, compare_eq_iff_eq.mpr rfl, Ordering.eq_then]
  rcases lt_trichotomy a.nanos.toNat b.nanos.toNat with hnanos | hnanos | hnanos
  · rw [compare_lt_iff_lt.mpr hnanos, eq_comm, compare_lt_iff_lt]
    omega
  · rw [hnanos, compare_eq_iff_eq.mpr rfl, compare_eq_iff_eq.mpr rfl]
  · rw [compare_gt_iff_gt.mpr hnanos, eq_comm, compare_gt_iff_gt]
    omega

/-- Timestamps with fractions below one second are ordered as their instants. -/
theorem compare_eq_compare_instant {a b : Timestamp} (ha : a.nanos.toNat ≤ 999999999)
    (hb : b.nanos.toNat ≤ 999999999) : compare a b = compare a.instant b.instant := by
  rcases lt_trichotomy a.secs.toInt b.secs.toInt with hsecs | hsecs | hsecs
  · rw [compare_of_secs_ne hsecs.ne, compare_lt_iff_lt.mpr hsecs, eq_comm, compare_lt_iff_lt,
      instant, instant]
    omega
  · exact compare_of_secs_eq (Int64.toInt_inj.mp hsecs)
  · rw [compare_of_secs_ne hsecs.ne', compare_gt_iff_gt.mpr hsecs, eq_comm, compare_gt_iff_gt,
      instant, instant]
    omega

/-- Every second but the last one that there is has a next one. -/
theorem exists_next_second {t : Timestamp} (h : t.secs ≠ Int64.maxValue) :
    ∃ next : Timestamp, next.secs.toInt = t.secs.toInt + 1 ∧ next.nanos.toNat = 0 := by
  have hlow := t.secs.le_toInt
  have hhigh := t.secs.toInt_lt
  have hlast : t.secs.toInt ≠ 9223372036854775807 := fun hsecs =>
    h (Int64.toInt_inj.mp (hsecs.trans (by decide)))
  exact ⟨⟨Int64.ofInt (t.secs.toInt + 1), 0⟩, Int64.toInt_ofInt_of_le (by omega) (by omega), rfl⟩

/-- A timestamp is ordered as its instant if its fraction is below one second, and else only in the
last second that there is: in any other it stands before the start of the next second, which its
instant does not. -/
theorem compare_eq_compare_instant_iff (t : Timestamp) :
    (∀ other : Timestamp, other.nanos.toNat ≤ 999999999 →
      compare t other = compare t.instant other.instant) ↔
    t.nanos.toNat ≤ 999999999 ∨ t.secs = Int64.maxValue := by
  constructor
  · intro hordered
    by_contra! hfraction
    obtain ⟨next, hsecs, hnanos⟩ := exists_next_second hfraction.2
    have hinstant := hordered next (by omega)
    rw [compare_of_secs_ne (by omega), compare_lt_iff_lt.mpr (by omega), eq_comm,
      compare_lt_iff_lt, instant, instant] at hinstant
    omega
  · rintro (hnanos | hlast) other hother
    · exact compare_eq_compare_instant hnanos hother
    · by_cases hsecs : t.secs = other.secs
      · exact compare_of_secs_eq hsecs
      · have hmax : t.secs.toInt = 9223372036854775807 := by rw [hlast]; decide
        have hbefore := other.secs.toInt_lt
        have hne : t.secs.toInt ≠ other.secs.toInt := fun h => hsecs (Int64.toInt_inj.mp h)
        rw [compare_of_secs_ne hne, compare_gt_iff_gt.mpr (by omega), eq_comm,
          compare_gt_iff_gt, instant, instant]
        omega

/-! ### Ways to a timestamp -/

/-- A record of seconds and nanoseconds is read as the timestamp that has them. -/
theorem ofJson?_of_fields {j secs nanos : Json} {t : Timestamp}
    (hfields : j.fields ["secs", "nanos"] = some [some secs, some nanos])
    (hsecs : Json.intIn? (-Word.signedLimit) (Word.signedLimit - 1) secs = some t.secs.toInt)
    (hnanos : Json.natBelow? 4294967296 nanos = some t.nanos.toNat) : ofJson? j = some t := by
  rw [ofJson?, hfields]
  simp only [Json.required, Option.bind_eq_bind, Option.bind_some, hsecs, hnanos,
    Int64.ofInt_toInt, UInt32.ofNat_toNat]

/-- A timestamp is read back from its JSON form, whatever its fraction is. -/
theorem ofJson?_toJson (t : Timestamp) : ofJson? t.toJson = some t := by
  have hfields : t.toJson.fields ["secs", "nanos"] =
      some [some (.int t.secs.toInt), some (.nat t.nanos.toNat)] := by
    rw [toJson, Json.fields_object (by simp)]
    rfl
  exact ofJson?_of_fields hfields
    (Json.intIn?_int ⟨t.secs.le_toInt, Int.le_sub_one_of_lt t.secs.toInt_lt⟩)
    (Json.natBelow?_nat t.nanos.toNat_lt)

/-- A timestamp is read back from its JSON text, whatever its fraction is. -/
theorem ofJsonText?_render (t : Timestamp) : ofJsonText? t.toJson.render = some t := by
  have hwhole : t.toJson.IsWhole := by
    refine Json.isWhole_object ?_
    simp only [List.forall_mem_cons]
    exact ⟨.int _, .int _, nofun⟩
  rw [ofJsonText?, Json.read_render hwhole, Option.bind_some, ofJson?_toJson]

/-- The fraction of a timestamp that was read from text is below one second. -/
theorem nanos_of_parse {s : String} {t : Timestamp} (h : (parse s).toOption = some t) :
    t.nanos.toNat ≤ 999999999 := by
  rw [toOption_parse] at h
  obtain ⟨w, hw⟩ := exists_written_of_ofRuns? h
  rw [← hw] at h
  obtain ⟨hvalid, rfl⟩ := Written.ofRuns?_runs_eq_some_iff.mp h
  have hsplit : Text.Decimal.SplitsInto s.toList w.runs :=
    Text.Decimal.splitsInto_iff.mpr hw.symm
  have hnanos : w.nanos < nanosPerSecond := Written.nanos_lt
    (fun ds hds => hsplit.isRun ds (List.mem_append_right _ (Option.mem_toList.mpr hds)))
    hvalid.fraction
  have hword : w.nanos < UInt32.size := Nat.lt_trans hnanos (by decide)
  rw [UInt32.toNat_ofNat_of_lt' hword]
  exact Nat.le_of_lt_succ hnanos

/-- The fraction of a timestamp that was made from its parts is below one second. -/
theorem nanos_of_new {secs : Int64} {nanos : UInt32} {t : Timestamp}
    (h : (new secs nanos).toOption = some t) : t.nanos.toNat ≤ 999999999 := by
  unfold new at h
  split at h
  · next hnanos =>
    cases h
    exact Nat.le_of_lt_succ hnanos
  · cases h

/-- The fraction of a timestamp that was made from milliseconds is below one second. -/
theorem nanos_of_fromMillis (m : Int64) : (fromMillis m).nanos.toNat ≤ 999999999 := by
  rw [toNat_nanos_fromMillis]
  change (m.toInt % 1000).toNat * 1000000 ≤ 999999999
  omega

/-- Where a timestamp comes from. -/
inductive Origin where
  | parts (secs : Int64) (nanos : UInt32)
  | millis (value : Int64)
  | epoch
  | text (s : String)
  | json (s : String)

/-- The timestamp that comes from an origin, none if it is refused. -/
def Origin.timestamp? : Origin → Option Timestamp
  | .parts secs nanos => (new secs nanos).toOption
  | .millis value => some (fromMillis value)
  | .epoch => some .epoch
  | .text s => (parse s).toOption
  | .json s => ofJsonText? s

/-- A larger fraction comes from JSON only. -/
theorem Origin.exists_json {origin : Origin} {t : Timestamp} (h : origin.timestamp? = some t)
    (hnanos : 999999999 < t.nanos.toNat) : ∃ s, origin = .json s := by
  cases origin with
  | parts secs nanos => exact absurd (nanos_of_new h) (Nat.not_le.mpr hnanos)
  | millis value =>
    cases h
    exact absurd (nanos_of_fromMillis value) (Nat.not_le.mpr hnanos)
  | epoch =>
    cases h
    exact absurd hnanos (by decide)
  | text s => exact absurd (nanos_of_parse h) (Nat.not_le.mpr hnanos)
  | json s => exact ⟨s, rfl⟩

/-! ### Edits -/

/-- Setting a calendar field keeps the fraction. -/
theorem nanos_of_setField {t u : Timestamp} {field : CalendarField} {value : Int}
    (h : t.setField field value = .ok u) : u.nanos = t.nanos := by
  unfold setField at h
  repeat' split at h
  all_goals cases h
  rfl

namespace Edit

/-- Whether an edit replaces the fraction: it sets the whole instant, or a fraction that is below
one second. -/
def SetsFraction : Edit → Prop
  | .millis _ => True
  | .nanos value => value.toNat ≤ 999999999
  | _ => False

/-- An edit that replaces the fraction leaves one below one second. -/
theorem nanos_after_of_setsFraction {e : Edit} (h : e.SetsFraction) (t : Timestamp) :
    (e.after t).nanos.toNat ≤ 999999999 := by
  cases e with
  | millis value => exact nanos_of_fromMillis value
  | nanos value =>
    have hok : (Edit.nanos value).apply t = .ok { t with nanos := value } :=
      if_pos (Nat.lt_succ_of_le h)
    rw [after_of_ok hok]
    exact h
  | _ => exact h.elim

/-- Any other edit keeps the fraction, whether it fails or not. -/
theorem nanos_after_of_not_setsFraction {e : Edit} (h : ¬ e.SetsFraction) (t : Timestamp) :
    (e.after t).nanos = t.nanos := by
  cases hfield : e.calendarField? with
  | some replaced =>
    obtain ⟨field, value⟩ := replaced
    rw [after, apply_eq_setField hfield]
    cases hset : t.setField field value with
    | error error => rfl
    | ok u => exact nanos_of_setField hset
  | none =>
    cases e with
    | millis value => exact absurd trivial h
    | nanos value =>
      have herror : (Edit.nanos value).apply t = .error (.nanosOutOfRange value) :=
        if_neg fun hvalue => h (Nat.le_of_lt_succ hvalue)
      rw [after_of_error herror]
    | _ => cases hfield

/-- The fraction is below one second after edits exactly if it was so before them or one of them
replaced it. -/
theorem nanos_afterAll_iff (edits : List Edit) (t : Timestamp) :
    (afterAll edits t).nanos.toNat ≤ 999999999 ↔
      t.nanos.toNat ≤ 999999999 ∨ ∃ e ∈ edits, e.SetsFraction := by
  induction edits generalizing t with
  | nil => simp [afterAll]
  | cons e edits ih =>
    change (afterAll edits (e.after t)).nanos.toNat ≤ 999999999 ↔ _
    rw [ih]
    simp only [List.mem_cons, exists_eq_or_imp]
    by_cases he : e.SetsFraction
    · have hnanos := nanos_after_of_setsFraction he t
      tauto
    · rw [nanos_after_of_not_setsFraction he]
      tauto

end Edit

/-- When a fraction stays below one second. Only JSON leads to a larger one, and to every one that
fits its word. Whatever edits follow, failing ones included, the fraction is below one second
exactly if it was so at first or one of them replaced it; and a timestamp is ordered among those
with such fractions as its instant exactly if its own is one, the last second that there is
apart. -/
theorem fraction_below_second_iff {origin : Origin} {t : Timestamp}
    (h : origin.timestamp? = some t) (edits : List Edit) :
    ((∀ s, origin ≠ .json s) → t.nanos.toNat ≤ 999999999) ∧
    (∀ u : Timestamp, (Origin.json u.toJson.render).timestamp? = some u) ∧
    ((Edit.afterAll edits t).nanos.toNat ≤ 999999999 ↔
      t.nanos.toNat ≤ 999999999 ∨ ∃ e ∈ edits, e.SetsFraction) ∧
    ((∀ other : Timestamp, other.nanos.toNat ≤ 999999999 →
        compare (Edit.afterAll edits t) other =
          compare (Edit.afterAll edits t).instant other.instant) ↔
      (t.nanos.toNat ≤ 999999999 ∨ ∃ e ∈ edits, e.SetsFraction) ∨
        (Edit.afterAll edits t).secs = Int64.maxValue) := by
  have hnanos := Edit.nanos_afterAll_iff edits t
  refine ⟨fun hjson => ?_, ofJsonText?_render, hnanos, ?_⟩
  · by_contra hlarge
    obtain ⟨s, hs⟩ := Origin.exists_json h (Nat.not_le.mp hlarge)
    exact hjson s hs
  · rw [compare_eq_compare_instant_iff, hnanos]

/-- A leap second comes from JSON. Neither a new year nor a refused fraction changes that; a
fraction that is not refused does. -/
theorem fraction_below_second_iff_on_leap_second :
    let leap : Timestamp := ⟨59, 1500000000⟩
    let origin : Origin := .json leap.toJson.render
    let edits : List Edit := [.year 2023, .nanos 1000000000]
    origin.timestamp? = some leap ∧
      ¬ (Edit.afterAll edits leap).nanos.toNat ≤ 999999999 ∧
      (Edit.afterAll (edits ++ [.nanos 7]) leap).nanos.toNat ≤ 999999999 := by
  intro leap origin edits
  have horigin : origin.timestamp? = some leap := ofJsonText?_render leap
  obtain ⟨-, -, hkept, -⟩ := fraction_below_second_iff horigin edits
  obtain ⟨-, -, hreplaced, -⟩ := fraction_below_second_iff horigin (edits ++ [.nanos 7])
  have hsmall : (Edit.nanos 7).SetsFraction := (by decide : (7 : UInt32).toNat ≤ 999999999)
  refine ⟨horigin, fun h => ?_, hreplaced.mpr (.inr ⟨.nanos 7, by simp, hsmall⟩)⟩
  rcases hkept.mp h with hnanos | ⟨e, he, hset⟩
  · exact absurd hnanos (by decide)
  · rcases List.mem_pair.mp he with rfl | rfl
    · exact hset
    · exact absurd hset (by decide : ¬ (1000000000 : UInt32).toNat ≤ 999999999)

/-- Two seconds are read from JSON as a fraction of second 0, and then count as less than the first
whole second. -/
theorem json_fraction_unchecked :
    let misplaced : Timestamp := ⟨0, 2000000000⟩
    let next : Timestamp := ⟨1, 0⟩
    (Origin.json "\x7b\"secs\":0,\"nanos\":2000000000\x7d").timestamp? = some misplaced ∧
      ¬ misplaced.nanos.toNat ≤ 999999999 ∧
      compare misplaced next = .lt ∧ next.instant < misplaced.instant := by
  decide +kernel

end TrackedFields.Timestamp
