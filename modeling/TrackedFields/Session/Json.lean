import TrackedFields.Operation.Json
import TrackedFields.Session.Basic

/-!
# The journal of a session in JSON

The JSON form of an effect: an array of its tag and its parts. The tag of a store call is the name
of the store.
-/

namespace TrackedFields

variable {E : Type}

/-- The JSON form of a store call. -/
def StoreCall.toJson (encode : E → Json) (call : StoreCall E) : List Json :=
  let hint := Json.option Json.nat
  match call with
  | .size => [.text "size"]
  | .contains e => [.text "contains", encode e]
  | .elements => [.text "elements"]
  | .get i => [.text "get", .nat i]
  | .add e h => [.text "add", encode e, hint h]
  | .insert i e => [.text "insert", .nat i, encode e]
  | .remove e h cascade => [.text "remove", encode e, hint h, .bool cascade]
  | .removeAt i h => [.text "remove_at", .nat i, hint h]
  | .set i e cascade => [.text "set", .nat i, encode e, .bool cascade]
  | .clear => [.text "clear"]
  | .updateEmbedded e field => [.text "update_embedded", encode e, field.toJson]

/-- The JSON form of a change of the relation behind a field. -/
def RelationChange.toJson (encode : E → Json) (field : FieldOrdinal) : RelationChange E → Json
  | .added e => .arr [.text "rel+", field.toJson, encode e]
  | .removed e => .arr [.text "rel-", field.toJson, encode e]

/-- The JSON form of an effect. -/
def Effect.toJson (encode : E → Json) : Effect E → Json
  | .dirtied _ field => .arr [.text "dirty", field.toJson]
  | .updated => .arr [.text "nontx"]
  | .related _ field change => change.toJson encode field
  | .enqueued operation => .arr [.text "enqueue", operation.field.toJson,
      .bool operation.store.isSome, operation.kind.toJson encode]
  | .deleted e => .arr [.text "delete", encode e]
  | .detached e => .arr [.text "detach", encode e]
  | .attached e withoutIdentity => .arr [.text "attach", encode e, .bool withoutIdentity]
  | .called store call => .arr (.text store :: call.toJson encode)
  | .warned operation place error =>
    .arr [.text "warn", .text operation, .text place, .text error.message]

end TrackedFields
