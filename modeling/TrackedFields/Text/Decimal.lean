/-!
# Decimal digits

Decimal numerals as lists of ASCII digits: writing with and without zero padding, and the
value of a run of digits. Reading accepts leading zeros and any length.
-/

namespace TrackedFields.Text.Decimal

/-- The shortest decimal numeral of a natural number. -/
def digits (n : Nat) : List Char := Nat.toDigits 10 n

/-- The decimal numeral filled up with leading zeros to at least `width` digits. -/
def padded (width n : Nat) : List Char :=
  List.replicate (width - (digits n).length) '0' ++ digits n

/-- The decimal numeral of an integer, with a minus sign only below zero. -/
def signed (n : Int) : List Char :=
  if n < 0 then '-' :: digits n.natAbs else digits n.natAbs

/-- The number that a run of digits denotes; the empty run denotes zero. -/
def value (ds : List Char) : Nat := Nat.ofDigitChars 10 ds 0

/-- The maximal runs of ASCII digits of a text, in order. -/
def runs : List Char → List (List Char)
  | [] => []
  | c :: cs =>
    if c.isDigit then
      match cs, runs cs with
      | d :: _, run :: rest => if d.isDigit then (c :: run) :: rest else [c] :: run :: rest
      | _, rest => [c] :: rest
    else runs cs

end TrackedFields.Text.Decimal
