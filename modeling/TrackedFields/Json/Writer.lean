import TrackedFields.Json.Basic
import TrackedFields.Text.Decimal
import TrackedFields.Text.Hex

/-!
# Writing JSON

The compact written form of a JSON document: no space between tokens, and in strings only the
quote, the backslash and the control characters are escaped.
-/

namespace TrackedFields.Json

/-- The written form of one character of a string. -/
def escape (c : Char) : List Char :=
  match c with
  | '\"' => ['\\', '\"']
  | '\\' => ['\\', '\\']
  | '\x08' => ['\\', 'b']
  | '\x0c' => ['\\', 'f']
  | '\n' => ['\\', 'n']
  | '\r' => ['\\', 'r']
  | '\t' => ['\\', 't']
  | c => if c.toNat < 0x20 then '\\' :: 'u' :: Text.Hex.padded 4 c.toNat else [c]

/-- The written form of a string; one that denotes no text is written as half a surrogate pair. -/
def writeString : Option String → List Char
  | some s => '\"' :: (s.toList.flatMap escape ++ ['\"'])
  | none => "\"\\ud800\"".toList

mutual

/-- The compact written form of a document. -/
def write : Json → List Char
  | .null => "null".toList
  | .bool true => "true".toList
  | .bool false => "false".toList
  | .int n => Text.Decimal.signed n
  | .real numeral => numeral.toList
  | .str s => writeString s
  | .arr items => '[' :: writeItems items
  | .obj members => '\x7b' :: writeMembers members

/-- The items of an array, up to and including the closing bracket. -/
def writeItems : List Json → List Char
  | [] => [']']
  | [item] => write item ++ [']']
  | item :: items => write item ++ ',' :: writeItems items

/-- The members of an object, up to and including the closing brace. -/
def writeMembers : List (Option String × Json) → List Char
  | [] => ['\x7d']
  | [(key, value)] => writeString key ++ ':' :: (write value ++ ['\x7d'])
  | (key, value) :: members =>
    writeString key ++ ':' :: (write value ++ ',' :: writeMembers members)

end

/-- The compact text of a document. -/
def render (j : Json) : String := String.ofList (write j)

end TrackedFields.Json
