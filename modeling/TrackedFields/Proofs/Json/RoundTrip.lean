import Mathlib
import TrackedFields.Json.Reader
import TrackedFields.Json.Writer
import TrackedFields.Proofs.Text.Decimal

/-!
# Reading written JSON back

A written document is read back as it was: strings with all their escapes, half surrogates
included, integers, arrays and objects with their members in order. Numbers that are no integers
are left out: they keep their numeral, which a writer does not check.
-/

namespace TrackedFields.Json

open Text

/-! ### Strings -/

/-- Characters of a string are read as one piece, and the piece denotes one character. -/
structure Spells (cs : List Char) (piece : Piece) (c : Char) : Prop where
  pieces : ∀ tail, pieces (cs ++ tail) = (pieces tail).map fun (ps, rest) => (piece :: ps, rest)
  assemble : ∀ ps, assemble (piece :: ps) = (assemble ps).map (c :: ·)

/-- Quotes, backslashes and control characters apart, a character stands for itself. -/
theorem spells_self {c : Char} (hquote : c ≠ '\"') (hslash : c ≠ '\\')
    (hcontrol : ¬ c.toNat < 0x20) : Spells [c] (.char c) c := by
  refine ⟨fun tail => ?_, fun _ => rfl⟩
  rw [List.singleton_append, pieces, if_neg hcontrol]
  · cases pieces tail <;> rfl
  all_goals simp_all

/-- A letter behind a backslash stands for the character that it names. -/
theorem spells_letter {letter c : Char} (hletter : letter ≠ 'u') (hc : unescape? letter = some c) :
    Spells ['\\', letter] (.char c) c := by
  refine ⟨fun tail => ?_, fun _ => rfl⟩
  change pieces ('\\' :: letter :: tail) = _
  rw [pieces, hc]
  · cases pieces tail <;> rfl
  · simp_all

/-- Four hexadecimal digits behind a backslash stand for the character that they count, if that is
no half of a surrogate pair. -/
theorem spells_number {w x y z : Char} {n : Nat} (hn : Hex.value? [w, x, y, z] = some n)
    (hhigh : isHighSurrogate n = false) (hlow : isLowSurrogate n = false) :
    Spells ['\\', 'u', w, x, y, z] (.unit n) (Char.ofNat n) := by
  refine ⟨fun tail => ?_, fun ps => ?_⟩
  · change pieces ('\\' :: 'u' :: w :: x :: y :: z :: tail) = _
    rw [pieces, hn]
    cases pieces tail <;> rfl
  · conv => lhs; unfold assemble
    simp only [hhigh, hlow, Bool.false_eq_true, if_false]

/-- A control character is spelled by its number. -/
theorem exists_spells_control {c : Char} (hcontrol : c.toNat < 0x20) :
    ∃ piece, Spells ('\\' :: 'u' :: Hex.padded 4 c.toNat) piece c := by
  have hall : ∀ n < 0x20, (Hex.padded 4 n).length = 4 ∧ Hex.value? (Hex.padded 4 n) = some n := by
    decide
  obtain ⟨hlength, hvalue⟩ := hall c.toNat hcontrol
  obtain ⟨w, x, y, z, hdigits⟩ := List.length_eq_four.mp hlength
  rw [hdigits] at hvalue ⊢
  have hhigh : isHighSurrogate c.toNat = false := by
    simp only [isHighSurrogate, Bool.and_eq_false_iff, decide_eq_false_iff_not]
    omega
  have hlow : isLowSurrogate c.toNat = false := by
    simp only [isLowSurrogate, Bool.and_eq_false_iff, decide_eq_false_iff_not]
    omega
  have hspells := spells_number hvalue hhigh hlow
  rw [Char.ofNat_toNat] at hspells
  exact ⟨_, hspells⟩

/-- Every character is spelled the way it is written. -/
theorem exists_spells_escape (c : Char) : ∃ piece, Spells (escape c) piece c := by
  unfold escape
  split
  · exact ⟨_, spells_letter (by decide) rfl⟩
  · exact ⟨_, spells_letter (by decide) rfl⟩
  · exact ⟨_, spells_letter (by decide) rfl⟩
  · exact ⟨_, spells_letter (by decide) rfl⟩
  · exact ⟨_, spells_letter (by decide) rfl⟩
  · exact ⟨_, spells_letter (by decide) rfl⟩
  · exact ⟨_, spells_letter (by decide) rfl⟩
  · next hquote hslash _ _ _ _ _ =>
    split
    · next hcontrol => exact exists_spells_control hcontrol
    · next hcontrol => exact ⟨_, spells_self hquote hslash hcontrol⟩

/-- Written characters are read back up to the closing quote. -/
theorem exists_pieces (cs rest : List Char) :
    ∃ ps, pieces (cs.flatMap escape ++ '\"' :: rest) = some (ps, rest) ∧ assemble ps = some cs := by
  induction cs with
  | nil => exact ⟨[], by rw [List.flatMap_nil, List.nil_append, pieces], rfl⟩
  | cons c cs ih =>
    obtain ⟨ps, hpieces, hassemble⟩ := ih
    obtain ⟨piece, hspells⟩ := exists_spells_escape c
    refine ⟨piece :: ps, ?_, ?_⟩
    · rw [List.flatMap_cons, List.append_assoc, hspells.pieces, hpieces]
      rfl
    · rw [hspells.assemble, hassemble]
      rfl

/-- A written string is read back, one that denotes no text included. -/
theorem exists_readString (s : Option String) :
    ∃ body, writeString s = '\"' :: body ∧ ∀ rest, readString (body ++ rest) = some (s, rest) := by
  cases s with
  | none =>
    have hvalue : Hex.value? ['d', '8', '0', '0'] = some 0xd800 := by decide
    refine ⟨['\\', 'u', 'd', '8', '0', '0', '\"'], by decide, fun rest => ?_⟩
    simp only [readString, List.cons_append, List.nil_append, pieces, hvalue]
    rfl
  | some s =>
    refine ⟨_, rfl, fun rest => ?_⟩
    obtain ⟨ps, hpieces, hassemble⟩ := exists_pieces s.toList rest
    rw [List.append_assoc, List.singleton_append, readString, hpieces]
    simp [hassemble]

/-! ### Numbers -/

/-- What stands behind a written value: nothing, a comma, or the end of an array or object. -/
def Follows (rest : List Char) : Prop := ∀ c ∈ rest.head?, c = ',' ∨ c = ']' ∨ c = '\x7d'

/-- A value may be the last thing in a text. -/
theorem follows_nil : Follows [] := by
  intro c hc
  cases hc

/-- A value may be followed by a comma or by the end of an array or object. -/
theorem follows_cons {c : Char} (hc : c = ',' ∨ c = ']' ∨ c = '\x7d') (rest : List Char) :
    Follows (c :: rest) := by
  intro d hd
  cases hd
  exact hc

/-- The digits of a numeral end where no digit follows. -/
theorem readDigits_append {ds rest : List Char} (h : Decimal.IsRun ds) (hrest : Follows rest) :
    readDigits (ds ++ rest) = some (ds, rest) := by
  have hend : rest.takeWhile Char.isDigit = [] ∧ rest.dropWhile Char.isDigit = rest := by
    cases rest with
    | nil => exact ⟨rfl, rfl⟩
    | cons c rest =>
      have hc : c.isDigit = false := by
        rcases hrest c rfl with rfl | rfl | rfl <;> rfl
      simp [hc]
  rw [readDigits, List.takeWhile_append_of_pos h.digits, List.dropWhile_append_of_pos h.digits,
    hend.1, hend.2, List.append_nil]
  cases ds with
  | nil => exact absurd rfl h.nonempty
  | cons d ds => rfl

/-- No numeral of several digits starts with a zero. -/
theorem head?_digits_ne_zero {n : Nat} (h : 1 < (Decimal.digits n).length) :
    (Decimal.digits n).head? ≠ some '0' := by
  intro hzero
  obtain ⟨ds, hds⟩ : ∃ ds, Decimal.digits n = '0' :: ds := List.head?_eq_some_iff.mp hzero
  rw [hds, List.length_cons] at h
  -- The other digits would have the same value, and be too few for it.
  have hdigits : ∀ c ∈ ds, c.isDigit = true := by
    intro c hc
    apply (Decimal.isRun_digits n).digits
    rw [hds]
    exact List.mem_cons_of_mem _ hc
  have hvalue : Decimal.value ds = n := by
    have hsame : Decimal.value ('0' :: ds) = Decimal.value ds := rfl
    rw [← hsame, ← hds]
    exact Nat.ofDigitChars_toDigits (by decide) (by decide)
  have hshort : (Decimal.digits n).length ≤ ds.length := by
    refine (Nat.length_toDigits_le_iff (by decide) (by omega)).mpr ?_
    rw [← hvalue]
    exact Decimal.value_lt hdigits
  rw [hds, List.length_cons] at hshort
  omega

/-- A written natural number is read back with the sign that stands in front of it. -/
theorem readMagnitude_digits {n : Nat} {negative : Bool} (hsign : negative = true → n ≠ 0)
    {rest : List Char} (hrest : Follows rest) :
    readMagnitude negative (Decimal.digits n ++ rest) =
      some (.int (if negative then -n else n), rest) := by
  have hfraction : readFraction rest = some ([], rest) := by
    cases rest with
    | nil => rfl
    | cons c rest => rcases hrest c rfl with rfl | rfl | rfl <;> rfl
  have hexponent : readExponent rest = some ([], rest) := by
    cases rest with
    | nil => rfl
    | cons c rest => rcases hrest c rfl with rfl | rfl | rfl <;> rfl
  have hvalue : Decimal.value (Decimal.digits n) = n :=
    Nat.ofDigitChars_toDigits (by decide) (by decide)
  have hzero : ¬ ((Decimal.digits n).length > 1 ∧ (Decimal.digits n).head? = some '0') :=
    fun h => head?_digits_ne_zero h.1 h.2
  have hinteger : ¬ (negative = true ∧ n = 0) := fun h => hsign h.1 h.2
  rw [readMagnitude, readDigits_append (Decimal.isRun_digits n) hrest]
  simp only [Option.bind_eq_bind, Option.bind_some, if_neg hzero, hfraction, hexponent, hvalue]
  rw [if_pos ⟨trivial, trivial, hinteger⟩]

/-- A written integer starts with a digit or a minus sign. -/
theorem exists_signed (n : Int) :
    ∃ c cs, Decimal.signed n = c :: cs ∧ (c.isDigit = true ∨ c = '-') := by
  unfold Decimal.signed
  split
  · exact ⟨_, _, rfl, .inr rfl⟩
  · have hrun := Decimal.isRun_digits n.natAbs
    obtain ⟨d, ds, hds⟩ := List.exists_cons_of_ne_nil hrun.nonempty
    rw [hds] at hrun
    exact ⟨d, ds, hds, .inl (hrun.digits d List.mem_cons_self)⟩

/-- A written integer is read back. -/
theorem readNumber_signed (n : Int) {rest : List Char} (hrest : Follows rest) :
    readNumber (Decimal.signed n ++ rest) = some (.int n, rest) := by
  unfold Decimal.signed
  split
  · next hnegative =>
    rw [List.cons_append, readNumber, readMagnitude_digits (by omega) hrest, if_pos rfl,
      Int.ofNat_natAbs_of_nonpos (Int.le_of_lt hnegative), Int.neg_neg]
  · next hnegative =>
    have hsign : false = true → n.natAbs ≠ 0 := nofun
    have hread := readMagnitude_digits hsign hrest
    rw [if_neg Bool.false_ne_true, Int.natAbs_of_nonneg (Int.not_lt.mp hnegative)] at hread
    have hrun := Decimal.isRun_digits n.natAbs
    obtain ⟨d, ds, hds⟩ := List.exists_cons_of_ne_nil hrun.nonempty
    rw [hds] at hread hrun ⊢
    rw [← hread, List.cons_append, readNumber]
    -- A digit is no minus sign.
    rintro tail htail
    cases htail
    cases hrun.digits '-' List.mem_cons_self

/-! ### Values -/

/-- A document whose numbers are all integers. -/
inductive IsWhole : Json → Prop where
  | null : IsWhole .null
  | bool (value : Bool) : IsWhole (.bool value)
  | int (value : Int) : IsWhole (.int value)
  | str (text : Option String) : IsWhole (.str text)
  | arr {items : List Json} (h : ∀ item ∈ items, IsWhole item) : IsWhole (.arr items)
  | obj {members : List (Option String × Json)} (h : ∀ member ∈ members, IsWhole member.2) :
      IsWhole (.obj members)

/-- A text has no numbers. -/
theorem isWhole_text (s : String) : (text s).IsWhole := .str _

/-- An object is as whole as the values of its members. -/
theorem isWhole_object {members : List (String × Json)}
    (h : ∀ member ∈ members, member.2.IsWhole) : (object members).IsWhole :=
  .obj (List.forall_mem_map.mpr h)

/-- A document is read back from its written form, whatever may stand behind it, in two steps for
each character. -/
def ReadsBack (j : Json) : Prop :=
  ∀ (fuel : Nat) (rest : List Char), 2 * (write j).length ≤ fuel → Follows rest →
    readValue fuel (write j ++ rest) = some (j, rest)

/-- Nothing is skipped where no blank stands in front. -/
theorem skipBlanks_cons {c : Char} (hc : isBlank c = false) (cs : List Char) :
    skipBlanks (c :: cs) = c :: cs := by
  rw [skipBlanks, List.dropWhile_cons_of_neg]
  rw [hc]
  exact Bool.false_ne_true

/-- A digit is no blank. -/
theorem isBlank_of_isDigit {c : Char} (hc : c.isDigit = true) : isBlank c = false := by
  refine Bool.eq_false_iff.mpr fun hblank => ?_
  simp only [isBlank, Bool.or_eq_true, beq_iff_eq] at hblank
  rcases hblank with ((rfl | rfl) | rfl) | rfl <;> cases hc

/-- A numeral where a value is expected. -/
theorem readValue_of_numeral {c : Char} (hc : c.isDigit = true ∨ c = '-') (fuel : Nat)
    (cs : List Char) : readValue (fuel + 1) (c :: cs) = readNumber (c :: cs) := by
  have hblank : isBlank c = false := by
    rcases hc with hdigit | rfl
    · exact isBlank_of_isDigit hdigit
    · rfl
  rw [readValue, skipBlanks_cons hblank]
  split <;> simp_all

/-- A written document starts with a character that is neither a blank nor the end of an array. -/
theorem IsWhole.exists_write {j : Json} (h : j.IsWhole) :
    ∃ c cs, write j = c :: cs ∧ isBlank c = false ∧ c ≠ ']' := by
  cases h with
  | null => exact ⟨_, _, rfl, rfl, by decide⟩
  | bool value =>
    cases value with
    | false => exact ⟨_, _, rfl, rfl, by decide⟩
    | true => exact ⟨_, _, rfl, rfl, by decide⟩
  | int value =>
    obtain ⟨c, cs, hwrite, hc⟩ := exists_signed value
    rw [write]
    refine ⟨c, cs, hwrite, ?_⟩
    rcases hc with hdigit | rfl
    · exact ⟨isBlank_of_isDigit hdigit, by rintro rfl; cases hdigit⟩
    · exact ⟨rfl, by decide⟩
  | str text =>
    obtain ⟨body, hwrite, -⟩ := exists_readString text
    rw [write]
    exact ⟨_, _, hwrite, rfl, by decide⟩
  | arr h =>
    rw [write]
    exact ⟨_, _, rfl, rfl, by decide⟩
  | obj h =>
    rw [write]
    exact ⟨_, _, rfl, rfl, by decide⟩

/-! ### Arrays -/

/-- The last item of an array. -/
theorem readItems_of_last {fuel : Nat} {cs rest : List Char} {item : Json}
    (h : readValue fuel cs = some (item, ']' :: rest)) :
    readItems (fuel + 1) cs = some ([item], rest) := by
  rw [readItems, h]
  rfl

/-- An item of an array before the next one. -/
theorem readItems_of_next {fuel : Nat} {cs tail rest : List Char} {item : Json} {items : List Json}
    (h : readValue fuel cs = some (item, ',' :: tail))
    (hitems : readItems fuel tail = some (items, rest)) :
    readItems (fuel + 1) cs = some (item :: items, rest) := by
  rw [readItems, h]
  change (readItems fuel tail).map _ = _
  rw [hitems]
  rfl

/-- An array with items. -/
theorem readValue_of_items {fuel : Nat} {c : Char} {cs rest : List Char} {items : List Json}
    (hblank : isBlank c = false) (hc : c ≠ ']')
    (hitems : readItems fuel (c :: cs) = some (items, rest)) :
    readValue (fuel + 1) ('[' :: c :: cs) = some (.arr items, rest) := by
  rw [readValue, skipBlanks_cons rfl]
  simp only [skipBlanks_cons hblank]
  split
  · next hclose => exact absurd (List.head_eq_of_cons_eq hclose) hc
  · rw [hitems]
    rfl

/-- An item is written with a comma behind it, unless it is the last one. -/
theorem writeItems_cons_cons (item next : Json) (items : List Json) :
    writeItems (item :: next :: items) = write item ++ ',' :: writeItems (next :: items) := by
  rw [writeItems]
  exact fun h => by cases h

/-- Written items start like the first of them. -/
theorem exists_writeItems {item : Json} (h : item.IsWhole) (items : List Json) :
    ∃ c cs, writeItems (item :: items) = c :: cs ∧ isBlank c = false ∧ c ≠ ']' := by
  obtain ⟨c, cs, hwrite, hc⟩ := h.exists_write
  cases items with
  | nil =>
    rw [writeItems, hwrite]
    exact ⟨c, _, rfl, hc⟩
  | cons next items =>
    rw [writeItems_cons_cons, hwrite]
    exact ⟨c, _, rfl, hc⟩

/-- Written items are read back up to the end of their array. -/
theorem readItems_write {item : Json} {items : List Json}
    (h : ∀ j ∈ item :: items, ReadsBack j) {fuel : Nat}
    (hfuel : 2 * (writeItems (item :: items)).length ≤ fuel) (rest : List Char) :
    readItems fuel (writeItems (item :: items) ++ rest) = some (item :: items, rest) := by
  have hitem : ReadsBack item := h item List.mem_cons_self
  induction items generalizing item fuel with
  | nil =>
    rw [writeItems, List.length_append, List.length_singleton] at hfuel
    obtain ⟨fuel, rfl⟩ : ∃ steps, fuel = steps + 1 := ⟨fuel - 1, by omega⟩
    rw [writeItems, List.append_assoc]
    exact readItems_of_last (hitem fuel _ (by omega) (follows_cons (by simp) rest))
  | cons next items ih =>
    rw [writeItems_cons_cons, List.length_append, List.length_cons] at hfuel
    obtain ⟨fuel, rfl⟩ : ∃ steps, fuel = steps + 1 := ⟨fuel - 1, by omega⟩
    rw [writeItems_cons_cons, List.append_assoc]
    refine readItems_of_next (hitem fuel _ (by omega) (follows_cons (by simp) _)) ?_
    exact ih (fun j hj => h j (List.mem_cons_of_mem _ hj)) (by omega)
      (h next (List.mem_cons_of_mem _ List.mem_cons_self))

/-! ### Objects -/

/-- The last member of an object. -/
theorem readMembers_of_last {fuel : Nat} {cs tail rest : List Char} {key : Option String}
    {value : Json} (hkey : readString cs = some (key, ':' :: tail))
    (hvalue : readValue fuel tail = some (value, '\x7d' :: rest)) :
    readMembers (fuel + 1) ('\"' :: cs) = some ([(key, value)], rest) := by
  rw [readMembers, skipBlanks_cons rfl]
  change (readString cs).bind _ = _
  rw [hkey]
  change (readValue fuel tail).bind _ = _
  rw [hvalue]
  rfl

/-- A member of an object before the next one. -/
theorem readMembers_of_next {fuel : Nat} {cs tail next rest : List Char} {key : Option String}
    {value : Json} {members : List (Option String × Json)}
    (hkey : readString cs = some (key, ':' :: tail))
    (hvalue : readValue fuel tail = some (value, ',' :: next))
    (hmembers : readMembers fuel next = some (members, rest)) :
    readMembers (fuel + 1) ('\"' :: cs) = some ((key, value) :: members, rest) := by
  rw [readMembers, skipBlanks_cons rfl]
  change (readString cs).bind _ = _
  rw [hkey]
  change (readValue fuel tail).bind _ = _
  rw [hvalue]
  change (readMembers fuel next).map _ = _
  rw [hmembers]
  rfl

/-- An object with members. -/
theorem readValue_of_members {fuel : Nat} {cs rest : List Char}
    {members : List (Option String × Json)}
    (hmembers : readMembers fuel ('\"' :: cs) = some (members, rest)) :
    readValue (fuel + 1) ('\x7b' :: '\"' :: cs) = some (.obj members, rest) := by
  rw [readValue, skipBlanks_cons rfl]
  change (readMembers fuel ('\"' :: cs)).map _ = _
  rw [hmembers]
  rfl

/-- A member is written with a comma behind it, unless it is the last one. -/
theorem writeMembers_cons_cons (key : Option String) (value : Json)
    (next : Option String × Json) (members : List (Option String × Json)) :
    writeMembers ((key, value) :: next :: members) =
      writeString key ++ ':' :: (write value ++ ',' :: writeMembers (next :: members)) := by
  rw [writeMembers]
  exact fun h => by cases h

/-- Written members start with a quote. -/
theorem exists_writeMembers (member : Option String × Json)
    (members : List (Option String × Json)) :
    ∃ cs, writeMembers (member :: members) = '\"' :: cs := by
  obtain ⟨key, value⟩ := member
  obtain ⟨body, hwrite, -⟩ := exists_readString key
  cases members with
  | nil =>
    rw [writeMembers, hwrite]
    exact ⟨_, rfl⟩
  | cons next members =>
    rw [writeMembers_cons_cons, hwrite]
    exact ⟨_, rfl⟩

/-- Written members are read back up to the end of their object. -/
theorem readMembers_write {member : Option String × Json}
    {members : List (Option String × Json)} (h : ∀ m ∈ member :: members, ReadsBack m.2)
    {fuel : Nat} (hfuel : 2 * (writeMembers (member :: members)).length ≤ fuel)
    (rest : List Char) :
    readMembers fuel (writeMembers (member :: members) ++ rest) =
      some (member :: members, rest) := by
  obtain ⟨key, value⟩ := member
  have hvalue : ReadsBack value := h _ List.mem_cons_self
  obtain ⟨body, hwrite, hkey⟩ := exists_readString key
  induction members generalizing key value fuel body with
  | nil =>
    rw [writeMembers, hwrite] at hfuel ⊢
    simp only [List.cons_append, List.append_assoc, List.length_cons, List.length_append] at hfuel ⊢
    obtain ⟨fuel, rfl⟩ : ∃ steps, fuel = steps + 1 := ⟨fuel - 1, by omega⟩
    exact readMembers_of_last (hkey _) (hvalue fuel _ (by omega) (follows_cons (by simp) rest))
  | cons next members ih =>
    obtain ⟨key', value'⟩ := next
    obtain ⟨body', hwrite', hkey'⟩ := exists_readString key'
    rw [writeMembers_cons_cons, hwrite] at hfuel ⊢
    simp only [List.cons_append, List.append_assoc, List.length_cons, List.length_append] at hfuel ⊢
    obtain ⟨fuel, rfl⟩ : ∃ steps, fuel = steps + 1 := ⟨fuel - 1, by omega⟩
    refine readMembers_of_next (hkey _) (hvalue fuel _ (by omega) (follows_cons (by simp) _)) ?_
    exact ih key' value' (fun m hm => h m (List.mem_cons_of_mem _ hm)) (by omega)
      (h _ (List.mem_cons_of_mem _ List.mem_cons_self)) body' hwrite' hkey'

/-! ### Documents -/

/-- Something is written, so there is a first step. -/
theorem IsWhole.readsBack_of_step {j : Json} (h : j.IsWhole)
    (hstep : ∀ (fuel : Nat) (rest : List Char), 2 * (write j).length ≤ fuel + 1 → Follows rest →
      readValue (fuel + 1) (write j ++ rest) = some (j, rest)) : ReadsBack j := by
  intro fuel rest hfuel hrest
  obtain ⟨_, _, hwrite, -⟩ := h.exists_write
  have hlength : 0 < (write j).length := by
    rw [hwrite]
    exact Nat.succ_pos _
  obtain ⟨fuel, rfl⟩ : ∃ steps, fuel = steps + 1 := ⟨fuel - 1, by omega⟩
  exact hstep fuel rest hfuel hrest

/-- Every document without fractional numbers is read back. -/
theorem IsWhole.readsBack {j : Json} (h : j.IsWhole) : ReadsBack j := by
  induction h with
  | null => exact IsWhole.null.readsBack_of_step fun _ _ _ _ => rfl
  | bool value =>
    refine (IsWhole.bool value).readsBack_of_step fun fuel rest _ _ => ?_
    cases value <;> rfl
  | int value =>
    refine (IsWhole.int value).readsBack_of_step fun fuel rest _ hrest => ?_
    obtain ⟨c, cs, hwrite, hc⟩ := exists_signed value
    rw [write, hwrite, List.cons_append, readValue_of_numeral hc, ← List.cons_append, ← hwrite,
      readNumber_signed value hrest]
  | str text =>
    refine (IsWhole.str text).readsBack_of_step fun fuel rest _ _ => ?_
    obtain ⟨body, hwrite, hread⟩ := exists_readString text
    rw [write, hwrite, List.cons_append, readValue, skipBlanks_cons rfl]
    change (readString (body ++ rest)).map _ = _
    rw [hread]
    rfl
  | @arr items h ih =>
    -- The opening bracket takes one step of the fuel, and the items take the others.
    refine (IsWhole.arr h).readsBack_of_step fun fuel rest hfuel _ => ?_
    rw [write, List.length_cons] at hfuel
    rw [write, List.cons_append]
    cases items with
    | nil => rfl
    | cons item items =>
      obtain ⟨c, cs, hwrite, hblank, hc⟩ := exists_writeItems (h item List.mem_cons_self) items
      have hsteps : 2 * (writeItems (item :: items)).length ≤ fuel := by omega
      have hitems := readItems_write ih hsteps rest
      rw [hwrite, List.cons_append] at hitems ⊢
      exact readValue_of_items hblank hc hitems
  | @obj members h ih =>
    refine (IsWhole.obj h).readsBack_of_step fun fuel rest hfuel _ => ?_
    rw [write, List.length_cons] at hfuel
    rw [write, List.cons_append]
    cases members with
    | nil => rfl
    | cons member members =>
      obtain ⟨cs, hwrite⟩ := exists_writeMembers member members
      have hsteps : 2 * (writeMembers (member :: members)).length ≤ fuel := by omega
      have hmembers := readMembers_write ih hsteps rest
      rw [hwrite, List.cons_append] at hmembers ⊢
      exact readValue_of_members hmembers

/-- A written document without fractional numbers is read back. -/
theorem read_render {j : Json} (h : j.IsWhole) : read j.render = some j := by
  have hread := h.readsBack (2 * (write j).length + 2) [] (by omega) follows_nil
  rw [List.append_nil] at hread
  rw [read, render, String.toList_ofList, readChars, hread]
  rfl

end TrackedFields.Json
