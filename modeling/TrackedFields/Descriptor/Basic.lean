import TrackedFields.FieldOrdinal

/-!
# Field descriptors

Read-only descriptions of the fields that own tracked values: the field's name and ordinal, how
it is persisted, what its container holds, and its extensions, a map from text to text whose keys
ascend. The derived questions (does removal delete the element, may elements be null, …) are
answered here.
-/

namespace TrackedFields

/-- How a field takes part in persistence. -/
inductive Persistence where
  /-- Stored in the datastore. -/
  | persistent
  /-- Tracked in transactions but never stored. -/
  | transactional
  /-- Not managed at all. -/
  | unmanaged
  deriving DecidableEq

/-- One component of a container: its element, key or value. -/
structure Component where
  typeName : String
  /-- Whether the component is a persistent object with its own identity. -/
  hasIdentity : Bool := false
  /-- Whether removing the component deletes its persisted record. -/
  dependent : Bool := false
  /-- Whether the component is serialized into the owner's row. -/
  serialized : Bool := false
  /-- Whether the component is embedded into the container's table. -/
  embedded : Bool := false
  deriving DecidableEq

/-- What a container holds: an element type and, for maps, key and value types. -/
structure Contents where
  element : Component
  key : Option Component := none
  value : Option Component := none
  deriving DecidableEq

namespace Contents

/-- A container of elements. -/
def ofElement (element : Component) : Contents := { element }

/-- A map; its element type is left blank. -/
def ofMap (key value : Component) : Contents :=
  { element := { typeName := "" }, key, value }

/-- The components that count: key and value, or the element if there is neither. -/
def components (c : Contents) : List Component :=
  let element := if c.key.isNone ∧ c.value.isNone then [c.element] else []
  element ++ c.key.toList ++ c.value.toList

end Contents

/-- The extensions of a field: entries with strictly ascending keys. -/
structure Extensions where
  entries : List (String × String)
  ascending : entries.Pairwise (·.1 < ·.1)
  deriving DecidableEq

namespace Extensions

/-- No extensions. -/
def empty : Extensions := ⟨[], .nil⟩

/-- The value of an extension. -/
def get? (x : Extensions) (key : String) : Option String :=
  (x.entries.find? (·.1 == key)).map (·.2)

/-- The entries before a key, the new entry, and the entries after the key. -/
def insert (x : Extensions) (key value : String) : Extensions where
  entries := x.entries.filter (·.1 < key) ++ (key, value) :: x.entries.filter (key < ·.1)
  ascending := by
    rw [List.pairwise_append]
    refine ⟨x.ascending.filter _, ?_, ?_⟩
    · rw [List.pairwise_cons]
      exact ⟨fun entry h => by simpa using (List.mem_filter.mp h).2, x.ascending.filter _⟩
    · intro a ha b hb
      have hak : a.1 < key := by simpa using (List.mem_filter.mp ha).2
      rcases List.mem_cons.mp hb with rfl | hb
      · exact hak
      · have hkb : key < b.1 := by simpa using (List.mem_filter.mp hb).2
        exact String.lt_trans hak hkb

/-- The extensions given by a list of entries; a later entry replaces an earlier one. -/
def ofList (entries : List (String × String)) : Extensions :=
  entries.foldl (fun x entry => x.insert entry.1 entry.2) empty

end Extensions

/-- The description of a field that owns a tracked value. -/
structure Descriptor where
  name : String
  ordinal : FieldOrdinal
  persistence : Persistence := .persistent
  /-- Whether the field is loaded with the default fetch group. -/
  defaultFetchGroup : Bool := false
  contents : Option Contents := none
  extensions : Extensions := .empty
  deriving DecidableEq

namespace Descriptor

/-- Space characters at the ends of a flag's text, which do not count. -/
def isSpace (c : Char) : Bool :=
  [0x9, 0xa, 0xb, 0xc, 0xd, 0x20, 0x85, 0xa0, 0x1680, 0x2028, 0x2029, 0x202f, 0x205f,
    0x3000].contains c.toNat || (0x2000 ≤ c.toNat && c.toNat ≤ 0x200a)

/-- Whether a flag's text says yes: `true` in any case, between spaces. -/
def isYes (s : String) : Bool :=
  let trimmed := ((s.toList.dropWhile isSpace).reverse.dropWhile isSpace).reverse
  trimmed.map Char.toLower == "true".toList

/-- The extension that permits null elements. -/
def allowNullsKey : String := "allow-nulls"

/-- The extension that overrides the container cache switch. -/
def cacheKey : String := "cache"

/-- The extension that overrides lazy loading of a cached container. -/
def cacheLazyLoadingKey : String := "cache-lazy-loading"

/-- The value of an extension. -/
def extension? (d : Descriptor) (key : String) : Option String := d.extensions.get? key

/-- The value of an extension that is read as a flag. -/
def flag? (d : Descriptor) (key : String) : Option Bool := (d.extension? key).map isYes

/-- Whether the field is stored in the datastore. -/
def isPersistent (d : Descriptor) : Bool := d.persistence == .persistent

/-- Whether null elements may be stored in the container. -/
def allowsNulls (d : Descriptor) : Bool := (d.flag? allowNullsKey).getD false

/-- The components of the container, none if the field holds no container. -/
def components (d : Descriptor) : List Component :=
  (d.contents.map Contents.components).getD []

/-- Whether removing an element deletes the element's persisted record. -/
def hasDependentElement (d : Descriptor) : Bool :=
  d.components.any fun c => c.dependent && c.hasIdentity

/-- Whether some component of the container lacks an independent identity. -/
def hasElementsWithoutIdentity (d : Descriptor) : Bool :=
  d.components.any fun c => !c.hasIdentity || c.embedded || c.serialized

/-- Whether some component of the container is serialized into the owner. -/
def hasSerializedElements (d : Descriptor) : Bool := d.components.any (·.serialized)

/-- The field's own setting of the container cache switch. -/
def cache? (d : Descriptor) : Option Bool := d.flag? cacheKey

/-- The field's own setting of lazy loading for a cached container. -/
def cacheLazyLoading? (d : Descriptor) : Option Bool := d.flag? cacheLazyLoadingKey

/-- The descriptor with one more extension. -/
def withExtension (d : Descriptor) (key value : String) : Descriptor :=
  { d with extensions := d.extensions.insert key value }

end Descriptor

end TrackedFields
