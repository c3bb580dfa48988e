/-!
# Bounded machine arithmetic

Timestamps count in signed 64-bit words and stores count in unsigned 64-bit words.
Arithmetic is done on unbounded integers and checked afterwards; a result that leaves
its word is an `Overflow`, never a wrapped number.
-/

namespace TrackedFields

/-- The arithmetic step whose result left its 64-bit word. -/
inductive Overflow where
  | multiply
  | add
  deriving DecidableEq

namespace Overflow

/-- The text reported for an overflow. -/
def message : Overflow → String
  | multiply => "attempt to multiply with overflow"
  | add => "attempt to add with overflow"

end Overflow

namespace Word

/-- One more than the largest signed 64-bit value. -/
def signedLimit : Int := 9223372036854775808

/-- One more than the largest unsigned 64-bit value. -/
def sizeLimit : Nat := 18446744073709551616

/-- Whether an integer is a signed 64-bit value. -/
def IsSigned (n : Int) : Prop := -signedLimit ≤ n ∧ n < signedLimit

instance (n : Int) : Decidable (IsSigned n) := inferInstanceAs (Decidable (_ ∧ _))

/-- The integer itself if it is a signed 64-bit value, the given overflow otherwise. -/
def signed (step : Overflow) (n : Int) : Except Overflow Int :=
  if IsSigned n then .ok n else .error step

/-- The sum of two sizes if it is an unsigned 64-bit value. -/
def addSizes (a b : Nat) : Except Overflow Nat :=
  if a + b < sizeLimit then .ok (a + b) else .error .add

end Word

end TrackedFields
