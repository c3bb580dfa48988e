import TrackedFields.Json.Basic
import TrackedFields.Text.Described

/-!
# Field ordinals

The position of a field within its owning class.
-/

namespace TrackedFields

/-- The absolute position of a field within its owning class. -/
structure FieldOrdinal where
  number : UInt16
  deriving DecidableEq

namespace FieldOrdinal

/-- The ordinal as it appears in messages. -/
def text (field : FieldOrdinal) : String :=
  String.ofList ('#' :: Text.Decimal.digits field.number.toNat)

instance : Described FieldOrdinal where
  describe field := Text.applied "FieldOrdinal" (describe field.number.toNat)

/-- The JSON form: the bare number. -/
def toJson (field : FieldOrdinal) : Json := .nat field.number.toNat

/-- The ordinal given by a JSON number below 65536. -/
def ofJson? (j : Json) : Option FieldOrdinal :=
  (j.natBelow? 65536).map fun n => ⟨n.toUInt16⟩

end FieldOrdinal

end TrackedFields
