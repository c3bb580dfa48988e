/-!
# JSON values

JSON documents as trees. Numbers written without fraction and exponent are integers, all other
numbers keep their numeral. A string or key whose escapes name half of a surrogate pair denotes
no text: it is `none`, so a reader can pass over it but not take it for a text. Objects keep
their members in written order, repeated keys included.
-/

namespace TrackedFields

/-- A JSON document. -/
inductive Json where
  | null
  | bool (value : Bool)
  | int (value : Int)
  | real (numeral : String)
  | str (text : Option String)
  | arr (items : List Json)
  | obj (members : List (Option String × Json))

namespace Json

/-- A string that denotes the given text. -/
def text (s : String) : Json := .str (some s)

/-- An object with the given members. -/
def object (members : List (String × Json)) : Json :=
  .obj (members.map fun member => (some member.1, member.2))

/-- A size or count. -/
def nat (n : Nat) : Json := .int n

/-- A value that may be absent; its absence is written as null. -/
def option {α : Type} (write : α → Json) : Option α → Json
  | none => .null
  | some a => write a

/-- The text that a string denotes. -/
def text? : Json → Option String
  | .str s => s
  | _ => none

/-- The truth value of a Boolean. -/
def bool? : Json → Option Bool
  | .bool b => some b
  | _ => none

/-- An integer between two bounds, both included. -/
def intIn? (low high : Int) : Json → Option Int
  | .int n => if low ≤ n ∧ n ≤ high then some n else none
  | _ => none

/-- A natural number below a bound. -/
def natBelow? (bound : Nat) : Json → Option Nat
  | .int n => if 0 ≤ n ∧ n < bound then some n.toNat else none
  | _ => none

/-- The items of an array. -/
def items? : Json → Option (List Json)
  | .arr items => some items
  | _ => none

/-- The value of the first member with the given key. -/
def member? (key : String) : Json → Option Json
  | .obj members => (members.find? fun member => member.1 == some key).map (·.2)
  | _ => none

/-- A null as absence, every other value through the given reader. -/
def optional? {α : Type} (read : Json → Option α) : Json → Option (Option α)
  | .null => some none
  | j => (read j).map some

end Json

end TrackedFields
