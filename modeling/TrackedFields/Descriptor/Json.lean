import TrackedFields.Descriptor.Basic
import TrackedFields.Json.Reader
import TrackedFields.Json.Record
import TrackedFields.Json.Writer

/-!
# Descriptors in JSON

The JSON form of field descriptors. Writing leaves out an absent container and absent key and
value types; reading fills in the defaults of absent fields, of which only the names of fields
and types, the ordinal and a container's element are mandatory.
-/

namespace TrackedFields

namespace Persistence

/-- The written name of a persistence kind. -/
def text : Persistence → String
  | persistent => "persistent"
  | transactional => "transactional"
  | unmanaged => "none"

/-- The persistence kind with the given written name. -/
def ofText? : String → Option Persistence
  | "persistent" => some persistent
  | "transactional" => some transactional
  | "none" => some unmanaged
  | _ => none

/-- A persistence kind: its name, or an object that maps its name to null. -/
def ofJson? : Json → Option Persistence
  | .str (some s) => ofText? s
  | .obj [(some s, .null)] => ofText? s
  | _ => none

end Persistence

namespace Component

/-- The JSON form of a component. -/
def toJson (c : Component) : Json :=
  .object [("type_name", .text c.typeName), ("has_identity", .bool c.hasIdentity),
    ("dependent", .bool c.dependent), ("serialized", .bool c.serialized),
    ("embedded", .bool c.embedded)]

/-- The component that a JSON document describes. -/
def ofJson? (j : Json) : Option Component := do
  match ← j.fields ["type_name", "has_identity", "dependent", "serialized", "embedded"] with
  | [typeName, hasIdentity, dependent, serialized, embedded] =>
    some {
      typeName := ← Json.required Json.text? typeName
      hasIdentity := ← Json.defaulted false Json.bool? hasIdentity
      dependent := ← Json.defaulted false Json.bool? dependent
      serialized := ← Json.defaulted false Json.bool? serialized
      embedded := ← Json.defaulted false Json.bool? embedded }
  | _ => none

end Component

namespace Contents

/-- The JSON form of a container description. -/
def toJson (c : Contents) : Json :=
  .object (("element", c.element.toJson) :: ((c.key.map (("key", ·.toJson))).toList ++
    (c.value.map (("value", ·.toJson))).toList))

/-- The container that a JSON document describes. -/
def ofJson? (j : Json) : Option Contents := do
  match ← j.fields ["element", "key", "value"] with
  | [element, key, value] =>
    some {
      element := ← Json.required Component.ofJson? element
      key := ← Json.nullable Component.ofJson? key
      value := ← Json.nullable Component.ofJson? value }
  | _ => none

end Contents

namespace Extensions

/-- The JSON form of extensions: an object of strings. -/
def toJson (x : Extensions) : Json :=
  .object (x.entries.map fun entry => (entry.1, .text entry.2))

/-- The extensions that a JSON object describes. -/
def ofJson? : Json → Option Extensions
  | .obj members => do
    let entries ← members.mapM fun member => do
      let key ← member.1
      let value ← member.2.text?
      some (key, value)
    some (ofList entries)
  | _ => none

end Extensions

namespace Descriptor

/-- The JSON form of a descriptor. -/
def toJson (d : Descriptor) : Json :=
  .object ([("name", .text d.name), ("absolute_field_number", d.ordinal.toJson),
    ("persistence_modifier", .text d.persistence.text),
    ("default_fetch_group", .bool d.defaultFetchGroup)] ++
    (d.contents.map (("container", ·.toJson))).toList ++ [("extensions", d.extensions.toJson)])

/-- The descriptor that a JSON document describes. -/
def ofJson? (j : Json) : Option Descriptor := do
  match ← j.fields ["name", "absolute_field_number", "persistence_modifier",
    "default_fetch_group", "container", "extensions"] with
  | [name, ordinal, persistence, defaultFetchGroup, contents, extensions] =>
    some {
      name := ← Json.required Json.text? name
      ordinal := ← Json.required FieldOrdinal.ofJson? ordinal
      persistence := ← Json.defaulted .persistent Persistence.ofJson? persistence
      defaultFetchGroup := ← Json.defaulted false Json.bool? defaultFetchGroup
      contents := ← Json.nullable Contents.ofJson? contents
      extensions := ← Json.defaulted .empty Extensions.ofJson? extensions }
  | _ => none

/-- The JSON text of a descriptor. -/
def render (d : Descriptor) : String := d.toJson.render

/-- The descriptor that a JSON text describes. -/
def parse? (s : String) : Option Descriptor := (Json.read s).bind ofJson?

end Descriptor

end TrackedFields
