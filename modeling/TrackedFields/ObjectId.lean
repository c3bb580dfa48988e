import TrackedFields.Json.Basic
import TrackedFields.Text.Described
import TrackedFields.Text.Hex

/-!
# Object identities

The identity of a persistent object: 128 bits, ordered as a number. It is written as 32
hexadecimal digits in five groups; it is read from that form in either case, also between braces
or after `urn:uuid:` in either case, and from the 32 digits without hyphens.
-/

namespace TrackedFields

/-- The identity of a persistent object. -/
structure ObjectId where
  bits : BitVec 128
  deriving DecidableEq

namespace ObjectId

/-- The identity with the given number, taken modulo the number of identities. -/
def ofNat (n : Nat) : ObjectId := ⟨BitVec.ofNat 128 n⟩

/-- The order of identities is that of their numbers. -/
instance : Ord ObjectId where
  compare a b := compare a.bits.toNat b.bits.toNat

/-- The 32 lower-case hexadecimal digits. -/
def digits (id : ObjectId) : List Char := Text.Hex.padded 32 id.bits.toNat

/-- Hexadecimal digits with hyphens after the 8th, 12th, 16th and 20th. -/
def hyphenate (ds : List Char) : List Char :=
  ds.take 8 ++ '-' :: ((ds.drop 8).take 4 ++ '-' :: ((ds.drop 12).take 4 ++
    '-' :: ((ds.drop 16).take 4 ++ '-' :: ds.drop 20)))

/-- The hyphenated form. -/
def text (id : ObjectId) : String := String.ofList (hyphenate id.digits)

/-- The first eight digits. -/
def short (id : ObjectId) : String := String.ofList (id.digits.take 8)

instance : Described ObjectId where
  describe id := Text.applied "ObjectId" id.short

/-- The identity with the given 32 hexadecimal digits. -/
def ofDigits? (ds : List Char) : Option ObjectId :=
  if ds.length = 32 then (Text.Hex.value? ds).map ofNat else none

/-- The 32 digits of a hyphenated form. -/
def ofHyphenated? (cs : List Char) : Option ObjectId :=
  let ds := cs.filter (· ≠ '-')
  if cs = hyphenate ds then ofDigits? ds else none

/-- The identity that a text names, in any of the four written forms. -/
def ofText? (s : String) : Option ObjectId :=
  let cs := s.toList
  if cs.length = 32 then ofDigits? cs
  else if cs.length = 36 then ofHyphenated? cs
  else if cs.length = 38 ∧ cs.head? = some '\x7b' ∧ cs.getLast? = some '\x7d' then
    ofHyphenated? (cs.drop 1).dropLast
  else if cs.length = 45 ∧ (cs.take 9).map Char.toLower = "urn:uuid:".toList then
    ofHyphenated? (cs.drop 9)
  else none

/-- The JSON form: the hyphenated text. -/
def toJson (id : ObjectId) : Json := .text id.text

/-- The identity named by a JSON string. -/
def ofJson? (j : Json) : Option ObjectId := j.text?.bind ofText?

end ObjectId

end TrackedFields
