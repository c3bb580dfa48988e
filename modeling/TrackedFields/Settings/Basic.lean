import TrackedFields.Descriptor.Basic
import TrackedFields.Json.Record

/-!
# Settings

The switches that tracked containers and sessions consult: whether containers keep their content
in memory, whether they load it lazily, whether inverse relations are maintained and whether store
operations wait for a flush. A field's descriptor may override the first two.
-/

namespace TrackedFields

/-- Runtime switches of a session. -/
structure Settings where
  /-- Containers keep their full content in memory. -/
  cacheCollections : Bool := true
  /-- Cached containers load lazily; left open, the field decides. -/
  cacheCollectionsLazy : Option Bool := none
  /-- The inverse side of relations is maintained. -/
  manageRelationships : Bool := true
  /-- Store operations are queued and replayed at a flush. -/
  delayDatastoreOperations : Bool := false
  deriving DecidableEq

namespace Settings

/-- The default switches with every store operation queued until a flush. -/
def queued : Settings := { delayDatastoreOperations := true }

/-- Whether a container field keeps its content in memory. -/
def usesCache (s : Settings) (d : Descriptor) : Bool := d.cache?.getD s.cacheCollections

/-- Whether a cached container field is loaded at its first use only. -/
def loadsLazily (s : Settings) (d : Descriptor) : Bool :=
  (d.cacheLazyLoading?.or s.cacheCollectionsLazy).getD (!d.defaultFetchGroup)

/-- The names of the switches in configuration files. -/
def names : List String :=
  ["cache_collections", "cache_collections_lazy", "manage_relationships",
    "delay_datastore_operations"]

instance : Described Settings where
  describe s := Text.record "ScoConfig" [
    ("cache_collections", describe s.cacheCollections),
    ("cache_collections_lazy", describe s.cacheCollectionsLazy),
    ("manage_relationships", describe s.manageRelationships),
    ("delay_datastore_operations", describe s.delayDatastoreOperations)]

/-- The JSON form of settings. -/
def toJson (s : Settings) : Json :=
  .object [("cache_collections", .bool s.cacheCollections),
    ("cache_collections_lazy", .option .bool s.cacheCollectionsLazy),
    ("manage_relationships", .bool s.manageRelationships),
    ("delay_datastore_operations", .bool s.delayDatastoreOperations)]

/-- The settings that a JSON document describes; absent switches keep their defaults. -/
def ofJson? (j : Json) : Option Settings := do
  match ← j.fields names with
  | [cache, lazily, relationships, delay] =>
    some {
      cacheCollections := ← Json.defaulted true Json.bool? cache
      cacheCollectionsLazy := ← Json.nullable Json.bool? lazily
      manageRelationships := ← Json.defaulted true Json.bool? relationships
      delayDatastoreOperations := ← Json.defaulted false Json.bool? delay }
  | _ => none

end Settings

end TrackedFields
