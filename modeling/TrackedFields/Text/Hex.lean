/-!
# Hexadecimal digits

Lower-case hexadecimal numerals and the value of one digit in either case.
-/

namespace TrackedFields.Text.Hex

/-- The lower-case hexadecimal numeral of a natural number. -/
def digits (n : Nat) : List Char := Nat.toDigits 16 n

/-- The lower-case hexadecimal numeral filled up with zeros to at least `width` digits. -/
def padded (width n : Nat) : List Char :=
  List.replicate (width - (digits n).length) '0' ++ digits n

/-- The value of a hexadecimal digit of either case. -/
def digit? (c : Char) : Option Nat :=
  if '0' ≤ c ∧ c ≤ '9' then some (c.toNat - 48)
  else if 'a' ≤ c ∧ c ≤ 'f' then some (c.toNat - 87)
  else if 'A' ≤ c ∧ c ≤ 'F' then some (c.toNat - 55)
  else none

/-- The value of a list of hexadecimal digits, most significant first. -/
def value? (ds : List Char) : Option Nat :=
  ds.foldlM (fun acc c => (digit? c).map (16 * acc + ·)) 0

end TrackedFields.Text.Hex
