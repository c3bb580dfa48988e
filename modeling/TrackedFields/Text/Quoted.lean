import TrackedFields.Text.Extending
import TrackedFields.Text.Hex
import TrackedFields.Text.Unprintable

/-!
# Quoted text for diagnostics

Text in double quotes, fit for one line of a message: quotes, backslashes and the usual
control characters have short escapes, every other character that would be invisible or would
merge with its neighbour is written by its hexadecimal code point.
-/

namespace TrackedFields.Text.Quoted

/-- The escape that names a character by its code point. -/
def codePoint (c : Char) : List Char :=
  '\\' :: 'u' :: '\x7b' :: (Hex.digits c.toNat ++ ['\x7d'])

/-- Whether a character is written by its code point. -/
def isHidden (c : Char) : Bool :=
  if c.toNat < 0x20 then true
  else if c.toNat < 0x7f then false
  else isExtending c || isUnprintable c

/-- The written form of one character inside quotes. -/
def escape (c : Char) : List Char :=
  match c with
  | '\x00' => ['\\', '0']
  | '\t' => ['\\', 't']
  | '\r' => ['\\', 'r']
  | '\n' => ['\\', 'n']
  | '\"' => ['\\', '\"']
  | '\\' => ['\\', '\\']
  | c => if isHidden c then codePoint c else [c]

/-- The text between double quotes, with its characters escaped. -/
def quote (s : String) : String :=
  String.ofList ('\"' :: (s.toList.flatMap escape ++ ['\"']))

end TrackedFields.Text.Quoted
