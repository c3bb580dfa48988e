import Mathlib
import TrackedFields.Text.Decimal

/-!
# Reading decimal numerals back

A padded numeral has the value it was written for, and stands as one run of digits in a text
wherever something else than a digit follows it. Every text consists of its runs of digits and of
gaps without digits, in exactly one way.
-/

namespace TrackedFields.Text.Decimal

/-- A run of digits: at least one, and nothing else. -/
structure IsRun (ds : List Char) : Prop where
  nonempty : ds ≠ []
  digits : ∀ c ∈ ds, c.isDigit = true

/-! ### Padded numerals -/

/-- A padded numeral has its value. -/
@[simp] theorem value_padded (width n : Nat) : value (padded width n) = n := by
  rw [value, padded, Nat.ofDigitChars_append, Nat.ofDigitChars_replicate_zero, Nat.mul_zero]
  exact Nat.ofDigitChars_toDigits (by decide) (by decide)

/-- A numeral is a run of digits. -/
theorem isRun_digits (n : Nat) : IsRun (digits n) :=
  ⟨Nat.toDigits_ne_nil, fun _ hc => Nat.isDigit_of_mem_toDigits (by decide) (by decide) hc⟩

/-- A padded numeral is a run of digits. -/
theorem isRun_padded (width n : Nat) : IsRun (padded width n) := by
  constructor
  · exact List.append_ne_nil_of_right_ne_nil _ (isRun_digits n).nonempty
  · intro c hc
    rcases List.mem_append.mp hc with hc | hc
    · rw [List.eq_of_mem_replicate hc]
      rfl
    · exact (isRun_digits n).digits c hc

/-- A numeral that is short enough is padded to its width. -/
theorem length_padded {width n : Nat} (hwidth : 0 < width) (h : n < 10 ^ width) :
    (padded width n).length = width := by
  have hlength : (digits n).length ≤ width :=
    (Nat.length_toDigits_le_iff (by decide) hwidth).mpr h
  simp only [padded, List.length_append, List.length_replicate]
  omega

/-! ### Values -/

/-- Zeros at the end of a numeral multiply its value. -/
theorem value_append_zeros (ds : List Char) (n : Nat) :
    value (ds ++ List.replicate n '0') = value ds * 10 ^ n := by
  rw [value, Nat.ofDigitChars_append, Nat.ofDigitChars_replicate_zero, Nat.mul_comm]
  rfl

/-- A numeral lies below the power of ten that its length gives. -/
theorem value_lt {ds : List Char} (h : ∀ c ∈ ds, c.isDigit = true) :
    value ds < 10 ^ ds.length := by
  induction ds with
  | nil => exact Nat.one_pos
  | cons d ds ih =>
    have hrest : value ds < 10 ^ ds.length := ih fun c hc => h c (List.mem_cons_of_mem d hc)
    have hdigit : d.toNat - '0'.toNat < 10 := by
      have hrange := Char.isDigit_iff_toNat.mp (h d List.mem_cons_self)
      have hnine : '9'.toNat = '0'.toNat + 9 := rfl
      omega
    rw [value, Nat.ofDigitChars_cons, Nat.ofDigitChars_eq_ofDigitChars_zero, Nat.mul_zero,
      Nat.zero_add, List.length_cons, Nat.pow_succ]
    calc 10 ^ ds.length * (d.toNat - '0'.toNat) + value ds
        < 10 ^ ds.length * (d.toNat - '0'.toNat) + 10 ^ ds.length := Nat.add_lt_add_left hrest _
      _ = 10 ^ ds.length * (d.toNat - '0'.toNat + 1) := (Nat.mul_succ _ _).symm
      _ ≤ 10 ^ ds.length * 10 := Nat.mul_le_mul_left _ hdigit

/-! ### Runs -/

/-- What is no digit belongs to no run. -/
theorem runs_cons {c : Char} (hc : c.isDigit = false) (cs : List Char) :
    runs (c :: cs) = runs cs := by
  simp [runs, hc]

private theorem runs_digit_digit {c d : Char} (hc : c.isDigit = true) (hd : d.isDigit = true)
    {cs run : List Char} {rest : List (List Char)} (h : runs (d :: cs) = run :: rest) :
    runs (c :: d :: cs) = (c :: run) :: rest := by
  conv => lhs; unfold runs
  simp [hc, hd, h]

private theorem runs_digit {c : Char} (hc : c.isDigit = true) {cs : List Char}
    (h : ∀ d ∈ cs.head?, d.isDigit = false) : runs (c :: cs) = [c] :: runs cs := by
  conv => lhs; unfold runs
  rw [if_pos hc]
  cases cs with
  | nil => rfl
  | cons d cs =>
    have hd : d.isDigit = false := h d rfl
    cases runs (d :: cs) with
    | nil => rfl
    | cons run rest => simp [hd]

/-- A run ends with the text, or where something else than a digit follows. -/
theorem runs_append {ds cs : List Char} (h : IsRun ds) (hcs : ∀ c ∈ cs.head?, c.isDigit = false) :
    runs (ds ++ cs) = ds :: runs cs := by
  induction ds with
  | nil => exact absurd rfl h.nonempty
  | cons d ds ih =>
    have hd : d.isDigit = true := h.digits d List.mem_cons_self
    cases ds with
    | nil => exact runs_digit hd hcs
    | cons d' ds =>
      have hd' : d'.isDigit = true := h.digits d' (by simp)
      exact runs_digit_digit hd hd'
        (ih ⟨List.cons_ne_nil d' ds, fun a ha => h.digits a (List.mem_cons_of_mem d ha)⟩)

/-- A run before something else than a digit. -/
theorem runs_append_cons {ds : List Char} (h : IsRun ds) {c : Char} (hc : c.isDigit = false)
    (cs : List Char) : runs (ds ++ c :: cs) = ds :: runs cs := by
  have hhead : ∀ d ∈ (c :: cs).head?, d.isDigit = false := by
    intro d hd
    cases hd
    exact hc
  rw [runs_append h hhead, runs_cons hc]

/-- A text that is one run. -/
theorem runs_of_isRun {ds : List Char} (h : IsRun ds) : runs ds = [ds] := by
  have hruns : runs (ds ++ []) = ds :: runs [] := runs_append h (by simp)
  rwa [List.append_nil] at hruns

/-- A gap without digits before the runs. -/
theorem runs_gap_append {gap : List Char} (h : ∀ c ∈ gap, c.isDigit = false) (cs : List Char) :
    runs (gap ++ cs) = runs cs := by
  induction gap with
  | nil => rfl
  | cons c gap ih =>
    rw [List.cons_append, runs_cons (h c List.mem_cons_self)]
    exact ih fun d hd => h d (List.mem_cons_of_mem c hd)

/-- A text consists of the given runs of digits, each as long as it can be, and of what stands
before, between and after them, which has no digits. -/
inductive SplitsInto : List Char → List (List Char) → Prop where
  | gap {cs : List Char} (hgap : ∀ c ∈ cs, c.isDigit = false) : SplitsInto cs []
  | run {gap ds cs : List Char} {rest : List (List Char)}
      (hgap : ∀ c ∈ gap, c.isDigit = false) (hrun : IsRun ds)
      (hmaximal : ∀ c ∈ cs.head?, c.isDigit = false) (hrest : SplitsInto cs rest) :
      SplitsInto (gap ++ ds ++ cs) (ds :: rest)

namespace SplitsInto

/-- Every run consists of digits. -/
theorem isRun {cs : List Char} {groups : List (List Char)} (h : SplitsInto cs groups) :
    ∀ ds ∈ groups, IsRun ds := by
  induction h with
  | gap => exact List.forall_mem_nil _
  | run _ hrun _ _ ih => exact List.forall_mem_cons.mpr ⟨hrun, ih⟩

/-- A run at the start of a text. -/
theorem run_append {ds cs : List Char} {rest : List (List Char)} (hrun : IsRun ds)
    (hmaximal : ∀ c ∈ cs.head?, c.isDigit = false) (hrest : SplitsInto cs rest) :
    SplitsInto (ds ++ cs) (ds :: rest) :=
  .run (List.forall_mem_nil _) hrun hmaximal hrest

/-- A character that is no digit widens the first gap. -/
theorem cons_gap {c : Char} (hc : c.isDigit = false) {cs : List Char} {groups : List (List Char)}
    (h : SplitsInto cs groups) : SplitsInto (c :: cs) groups := by
  cases h with
  | gap hgap => exact .gap (List.forall_mem_cons.mpr ⟨hc, hgap⟩)
  | run hgap hrun hmaximal hrest =>
    exact .run (List.forall_mem_cons.mpr ⟨hc, hgap⟩) hrun hmaximal hrest

/-- A digit belongs to the run that follows it, or else is one itself. -/
theorem cons_digit {c : Char} (hc : c.isDigit = true) {cs : List Char} {groups : List (List Char)}
    (h : SplitsInto cs groups) : ∃ groups, SplitsInto (c :: cs) groups := by
  have hlone : IsRun [c] := ⟨List.cons_ne_nil c [], List.forall_mem_singleton.mpr hc⟩
  cases h with
  | gap hgap =>
    have hmaximal : ∀ d ∈ cs.head?, d.isDigit = false :=
      fun d hd => hgap d (List.mem_of_mem_head? hd)
    exact ⟨[[c]], run_append hlone hmaximal (.gap hgap)⟩
  | @run gap ds cs rest hgap hrun hmaximal hrest =>
    cases gap with
    | nil =>
      have hlonger : IsRun (c :: ds) :=
        ⟨List.cons_ne_nil c ds, List.forall_mem_cons.mpr ⟨hc, hrun.digits⟩⟩
      exact ⟨(c :: ds) :: rest, run_append hlonger hmaximal hrest⟩
    | cons d gap =>
      have hend : ∀ a ∈ (d :: gap ++ ds ++ cs).head?, a.isDigit = false := by
        intro a ha
        cases ha
        exact hgap d List.mem_cons_self
      exact ⟨[c] :: ds :: rest, run_append hlone hend (.run hgap hrun hmaximal hrest)⟩

end SplitsInto

/-- Every text splits into runs of digits. -/
theorem exists_splitsInto (cs : List Char) : ∃ groups, SplitsInto cs groups := by
  induction cs with
  | nil => exact ⟨[], .gap (List.forall_mem_nil _)⟩
  | cons c cs ih =>
    obtain ⟨groups, h⟩ := ih
    cases hc : c.isDigit with
    | false => exact ⟨groups, h.cons_gap hc⟩
    | true => exact h.cons_digit hc

/-- The runs that are found are the runs that a text splits into. -/
theorem splitsInto_iff {cs : List Char} {groups : List (List Char)} :
    SplitsInto cs groups ↔ runs cs = groups := by
  have hfound {cs : List Char} {groups : List (List Char)} (h : SplitsInto cs groups) :
      runs cs = groups := by
    induction h with
    | @gap cs hgap =>
      have hnone : runs (cs ++ []) = runs [] := runs_gap_append hgap []
      rwa [List.append_nil] at hnone
    | @run gap ds cs rest hgap hrun hmaximal _ ih =>
      rw [List.append_assoc, runs_gap_append hgap, runs_append hrun hmaximal, ih]
  constructor
  · exact hfound
  · rintro rfl
    obtain ⟨groups, h⟩ := exists_splitsInto cs
    rwa [hfound h]

end TrackedFields.Text.Decimal
