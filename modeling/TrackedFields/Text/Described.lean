import TrackedFields.Text.Decimal
import TrackedFields.Text.Quoted

/-!
# Diagnostic descriptions

The one-line descriptions of values in diagnostics: numbers as numerals, texts quoted, lists in
square brackets, absent and present values as `None` and `Some(x)`, and records as a name
followed by their fields between braces.
-/

namespace TrackedFields

/-- Values that have a one-line description. -/
class Described (α : Type) where
  describe : α → String

export Described (describe)

namespace Text

/-- Descriptions separated by a comma and a space. -/
def commaSeparated (items : List String) : String := ", ".intercalate items

/-- A list of descriptions between square brackets. -/
def bracketed (items : List String) : String := "[" ++ commaSeparated items ++ "]"

/-- A named value, with its content between parentheses. -/
def applied (name content : String) : String := name ++ "(" ++ content ++ ")"

/-- A named record, with each field's name and description between braces. -/
def record (name : String) (fields : List (String × String)) : String :=
  match fields with
  | [] => name
  | fields =>
    name ++ " \x7b " ++ commaSeparated (fields.map fun field => field.1 ++ ": " ++ field.2)
      ++ " \x7d"

end Text

instance : Described Bool where
  describe b := if b then "true" else "false"

instance : Described Nat where
  describe n := String.ofList (Text.Decimal.digits n)

instance : Described Int where
  describe n := String.ofList (Text.Decimal.signed n)

instance : Described Int32 where
  describe n := describe n.toInt

instance : Described String where
  describe := Text.Quoted.quote

instance {α : Type} [Described α] : Described (Option α) where
  describe
    | none => "None"
    | some a => Text.applied "Some" (describe a)

instance {α : Type} [Described α] : Described (List α) where
  describe items := Text.bracketed (items.map describe)

end TrackedFields
