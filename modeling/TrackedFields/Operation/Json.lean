import TrackedFields.Operation.Basic

/-!
# Operations in JSON

The JSON form of a change of a container: an array of its name and its parts, positions before
elements before flags.
-/

namespace TrackedFields.OperationKind

variable {E : Type}

/-- The parts of an operation after its name. -/
def parts (encode : E → Json) : OperationKind E → List Json
  | collectionAdd e => [encode e]
  | collectionRemove e cascade => [encode e, .bool cascade]
  | collectionClear => []
  | listAddAt i e => [.nat i, encode e]
  | listRemoveAt i => [.nat i]
  | listSet i e cascade => [.nat i, encode e, .bool cascade]

/-- The JSON form of an operation. -/
def toJson (encode : E → Json) (kind : OperationKind E) : Json :=
  .arr (.text kind.name :: kind.parts encode)

/-- A position: any unsigned 64-bit value. -/
def position? (j : Json) : Option Nat := j.natBelow? Word.sizeLimit

/-- The operation with a name and parts. -/
def ofParts? (decode : Json → Option E) (name : String) (parts : List Json) :
    Option (OperationKind E) :=
  match name, parts with
  | "collection-add", [e] => return collectionAdd (← decode e)
  | "collection-remove", [e, cascade] => return collectionRemove (← decode e) (← cascade.bool?)
  | "collection-clear", [] => return collectionClear
  | "list-add-at", [i, e] => return listAddAt (← position? i) (← decode e)
  | "list-remove-at", [i] => return listRemoveAt (← position? i)
  | "list-set", [i, e, cascade] =>
    return listSet (← position? i) (← decode e) (← cascade.bool?)
  | _, _ => none

/-- The operation that a JSON document describes. -/
def ofJson? (decode : Json → Option E) : Json → Option (OperationKind E)
  | .arr (.str (some name) :: parts) => ofParts? decode name parts
  | _ => none

end TrackedFields.OperationKind
