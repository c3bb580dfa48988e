import TrackedFields.Settings.Basic
import TrackedFields.Toml.Document

/-!
# Settings files

Settings are kept in TOML files. Absent switches keep their defaults, unknown keys are passed
over, and a switch that is not a Boolean is refused.
-/

namespace TrackedFields

/-- Why settings cannot be loaded. -/
inductive SettingsError where
  /-- There is no such file, or it is not text. -/
  | unreadable
  /-- The text is not a document, or a switch is not a Boolean. -/
  | malformed
  deriving DecidableEq

namespace Settings

/-- The value of a switch, if the document has it. -/
def switch (root : Toml.Entries) (name : String) : Option (Option Bool) :=
  match root.find name with
  | none => some none
  | some (.value (.bool b)) => some (some b)
  | some _ => none

/-- The settings given by the root table of a document. -/
def ofEntries? (root : Toml.Entries) : Option Settings := do
  let default : Settings := {}
  some {
    cacheCollections := (← switch root "cache_collections").getD default.cacheCollections
    cacheCollectionsLazy := ← switch root "cache_collections_lazy"
    manageRelationships :=
      (← switch root "manage_relationships").getD default.manageRelationships
    delayDatastoreOperations :=
      (← switch root "delay_datastore_operations").getD default.delayDatastoreOperations }

/-- The settings given by the text of a settings file. -/
def parse (text : String) : Except SettingsError Settings :=
  match (Toml.read text).bind ofEntries? with
  | some settings => .ok settings
  | none => .error .malformed

/-- The settings given by the bytes of a settings file, or by their absence. -/
def load (bytes : Option ByteArray) : Except SettingsError Settings :=
  match bytes.bind String.fromUTF8? with
  | some text => parse text
  | none => .error .unreadable

end Settings

end TrackedFields
