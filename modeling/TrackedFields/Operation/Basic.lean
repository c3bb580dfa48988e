import TrackedFields.Store.Basic

/-!
# Queued operations

A change of one owner's container as an operation that can be kept and replayed against a store
later. Positions count in the container as it is when the operation is replayed.
-/

namespace TrackedFields

/-- A change of a container. -/
inductive OperationKind (E : Type) where
  /-- Append an element. -/
  | collectionAdd (element : E)
  /-- Remove the first occurrence of an element, if there is one. -/
  | collectionRemove (element : E) (cascade : Bool)
  /-- Remove all elements. -/
  | collectionClear
  /-- Insert an element at a position. -/
  | listAddAt (index : Nat) (element : E)
  /-- Remove the element at a position. -/
  | listRemoveAt (index : Nat)
  /-- Replace the element at a position. -/
  | listSet (index : Nat) (element : E) (cascade : Bool)
  deriving DecidableEq

namespace OperationKind

variable {E : Type}

/-- The name of an operation in messages. -/
def name : OperationKind E → String
  | collectionAdd _ => "collection-add"
  | collectionRemove _ _ => "collection-remove"
  | collectionClear => "collection-clear"
  | listAddAt _ _ => "list-add-at"
  | listRemoveAt _ => "list-remove-at"
  | listSet _ _ _ => "list-set"

/-- The element that an operation carries. -/
def element? : OperationKind E → Option E
  | collectionAdd e => some e
  | collectionRemove e _ => some e
  | collectionClear => none
  | listAddAt _ e => some e
  | listRemoveAt _ => none
  | listSet _ e _ => some e

instance [Described E] : Described (OperationKind E) where
  describe
    | collectionAdd e => Text.record "CollectionAdd" [("element", describe e)]
    | collectionRemove e cascade => Text.record "CollectionRemove" [
        ("element", describe e), ("allow_cascade_delete", describe cascade)]
    | collectionClear => Text.record "CollectionClear" []
    | listAddAt i e => Text.record "ListAddAt" [("index", describe i), ("element", describe e)]
    | listRemoveAt i => Text.record "ListRemoveAt" [("index", describe i)]
    | listSet i e cascade => Text.record "ListSet" [
        ("index", describe i), ("element", describe e), ("allow_cascade_delete", describe cascade)]

variable [DecidableEq E]

/-- Carry the change out on the container of an owner. A position to remove must exist; removing
an absent element is no failure. -/
def perform (kind : OperationKind E) (owner : ObjectId) : StoreAction E Unit :=
  match kind with
  | collectionAdd e => discard (Store.add owner e none)
  | collectionRemove e cascade => discard (Store.remove owner e none cascade)
  | collectionClear => Store.clear owner
  | listAddAt i e => Store.insert owner i e
  | listRemoveAt i => do
    if (← Store.removeAt owner i none).isNone then
      throw (.positionOutOfRange i (← Store.size owner))
  | listSet i e cascade => discard (Store.set owner i e cascade)

end OperationKind

/-- The name under which a session knows a store. -/
abbrev StoreName := String

/-- A change of the container in one field of an owner. -/
structure Operation (E : Type) where
  owner : ObjectId
  field : FieldOrdinal
  /-- The store to replay against; without one, the flush supplies it. -/
  store : Option StoreName := none
  kind : OperationKind E
  deriving DecidableEq

instance {E : Type} [Described E] : Described (Operation E) where
  describe operation := Text.record "Operation" [
    ("owner", describe operation.owner),
    ("field", describe operation.field),
    ("has_store", describe operation.store.isSome),
    ("kind", describe operation.kind)]

end TrackedFields
