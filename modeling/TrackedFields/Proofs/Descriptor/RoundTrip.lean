import TrackedFields.Descriptor.Json
import TrackedFields.Proofs.Json.Record
import TrackedFields.Proofs.Json.RoundTrip

/-!
# Descriptors survive serialization

The JSON form of a descriptor leaves out what is absent, and reading fills in defaults. The two fit
together: what is read from the written text of a descriptor is that descriptor, on all levels, so a
descriptor that was read from any text is read again from its own, and different descriptors have
different texts.
-/

namespace TrackedFields

/-! ### Extensions -/

namespace Extensions

/-- An entry whose key comes after all others is inserted at the end. -/
theorem entries_insert_of_last {x : Extensions} {key : String}
    (hlast : ∀ entry ∈ x.entries, entry.1 < key) (value : String) :
    (x.insert key value).entries = x.entries ++ [(key, value)] := by
  have hbefore : x.entries.filter (·.1 < key) = x.entries :=
    List.filter_eq_self.mpr fun entry hentry => decide_eq_true (hlast entry hentry)
  have hafter : x.entries.filter (key < ·.1) = [] :=
    List.filter_eq_nil_iff.mpr fun entry hentry => by
      simpa using String.lt_asymm (hlast entry hentry)
  change x.entries.filter _ ++ (key, value) :: x.entries.filter _ = _
  rw [hbefore, hafter]

/-- Entries that come in ascending order are kept as they come. -/
theorem entries_foldl_insert {entries : List (String × String)} {x : Extensions}
    (h : (x.entries ++ entries).Pairwise (·.1 < ·.1)) :
    (entries.foldl (fun x entry => x.insert entry.1 entry.2) x).entries = x.entries ++ entries := by
  induction entries generalizing x with
  | nil => rw [List.foldl_nil, List.append_nil]
  | cons entry entries ih =>
    have hinsert : (x.insert entry.1 entry.2).entries = x.entries ++ [entry] :=
      entries_insert_of_last (fun other hother =>
        (List.pairwise_append.mp h).2.2 other hother entry List.mem_cons_self) entry.2
    have hrest : ((x.insert entry.1 entry.2).entries ++ entries).Pairwise (·.1 < ·.1) := by
      rw [hinsert, List.append_assoc]
      exact h
    rw [List.foldl_cons, ih hrest, hinsert, List.append_assoc, List.singleton_append]

/-- Extensions are what their entries give. -/
theorem ofList_entries (x : Extensions) : ofList x.entries = x := by
  obtain ⟨entries, hascending⟩ := x
  have hentries : (ofList entries).entries = entries :=
    entries_foldl_insert (x := empty) hascending
  generalize ofList entries = y at hentries
  subst hentries
  rfl

/-- Written extensions are read back. -/
theorem ofJson?_toJson (x : Extensions) : ofJson? x.toJson = some x := by
  have hentries : (x.entries.map fun entry => (some entry.1, Json.text entry.2)).mapM
      (fun member => do
        let key ← member.1
        let value ← member.2.text?
        some (key, value)) = some x.entries := by
    rw [List.mapM_map]
    exact List.mapM_pure.trans (congrArg some (List.map_id x.entries))
  rw [toJson, Json.object, List.map_map, ofJson?]
  refine (congrArg (Option.bind · fun entries => some (ofList entries)) hentries).trans ?_
  exact congrArg some x.ofList_entries

/-- The JSON form of extensions has no numbers. -/
theorem isWhole_toJson (x : Extensions) : x.toJson.IsWhole :=
  Json.isWhole_object (List.forall_mem_map.mpr fun entry _ => Json.isWhole_text entry.2)

end Extensions

/-! ### Parts of a descriptor -/

/-- A written ordinal is read back. -/
theorem FieldOrdinal.ofJson?_toJson (field : FieldOrdinal) : ofJson? field.toJson = some field := by
  have hnumber : field.number.toNat < 65536 := field.number.toNat_lt
  rw [ofJson?, toJson, Json.natBelow?_nat hnumber, Option.map_some, Nat.toUInt16_eq,
    UInt16.ofNat_toNat]

/-- A persistence kind is read back from its written name. -/
theorem Persistence.ofJson?_text (p : Persistence) : ofJson? (.text p.text) = some p := by
  cases p <;> rfl

/-- A written component is read back. -/
theorem Component.ofJson?_toJson (c : Component) : ofJson? c.toJson = some c := by
  rw [ofJson?, toJson, Json.fields_object (by simp)]
  rfl

/-- The JSON form of a component has no fractional numbers. -/
theorem Component.isWhole_toJson (c : Component) : c.toJson.IsWhole := by
  refine Json.isWhole_object ?_
  simp only [List.forall_mem_cons]
  exact ⟨Json.isWhole_text _, .bool _, .bool _, .bool _, .bool _, nofun⟩

/-- A component is not written as null. -/
theorem Component.toJson_ne_null (c : Component) : c.toJson ≠ .null := nofun

namespace Contents

/-- The fields of a written container: the element, and the key and value types that are there. -/
theorem fields_toJson (c : Contents) : c.toJson.fields ["element", "key", "value"] =
    some [some c.element.toJson, c.key.map Component.toJson, c.value.map Component.toJson] := by
  obtain ⟨element, key, value⟩ := c
  rw [toJson, Json.fields_object (by cases key <;> cases value <;> simp)]
  cases key <;> cases value <;> rfl

/-- A written container is read back. -/
theorem ofJson?_toJson (c : Contents) : ofJson? c.toJson = some c := by
  have helement : Json.required Component.ofJson? (some c.element.toJson) = some c.element :=
    c.element.ofJson?_toJson
  have hkey := Json.nullable_map Component.ofJson?_toJson Component.toJson_ne_null c.key
  have hvalue := Json.nullable_map Component.ofJson?_toJson Component.toJson_ne_null c.value
  rw [ofJson?, fields_toJson]
  simp only [Option.bind_eq_bind, Option.bind_some, helement, hkey, hvalue]

/-- The JSON form of a container has no fractional numbers. -/
theorem isWhole_toJson (c : Contents) : c.toJson.IsWhole := by
  refine Json.isWhole_object ?_
  simp only [List.forall_mem_cons, List.forall_mem_append, Option.mem_toList,
    Option.map_eq_some_iff]
  refine ⟨c.element.isWhole_toJson, ?_, ?_⟩
  · rintro _ ⟨key, -, rfl⟩
    exact key.isWhole_toJson
  · rintro _ ⟨value, -, rfl⟩
    exact value.isWhole_toJson

/-- A container is not written as null. -/
theorem toJson_ne_null (c : Contents) : c.toJson ≠ .null := nofun

end Contents

/-! ### Descriptors -/

namespace Descriptor

/-- The fields of a written descriptor: all of them, but for a container that is not there. -/
theorem fields_toJson (d : Descriptor) :
    d.toJson.fields ["name", "absolute_field_number", "persistence_modifier",
      "default_fetch_group", "container", "extensions"] =
        some [some (.text d.name), some d.ordinal.toJson, some (.text d.persistence.text),
          some (.bool d.defaultFetchGroup), d.contents.map Contents.toJson,
          some d.extensions.toJson] := by
  obtain ⟨name, ordinal, persistence, defaultFetchGroup, contents, extensions⟩ := d
  rw [toJson, Json.fields_object (by cases contents <;> simp)]
  cases contents <;> rfl

/-- A record with the fields of a descriptor is read as the descriptor. -/
theorem ofJson?_of_fields {j : Json} {d : Descriptor}
    {name ordinal persistence defaultFetchGroup contents extensions : Option Json}
    (hfields : j.fields ["name", "absolute_field_number", "persistence_modifier",
      "default_fetch_group", "container", "extensions"] =
        some [name, ordinal, persistence, defaultFetchGroup, contents, extensions])
    (hname : Json.required Json.text? name = some d.name)
    (hordinal : Json.required FieldOrdinal.ofJson? ordinal = some d.ordinal)
    (hpersistence :
      Json.defaulted .persistent Persistence.ofJson? persistence = some d.persistence)
    (hdefaultFetchGroup :
      Json.defaulted false Json.bool? defaultFetchGroup = some d.defaultFetchGroup)
    (hcontents : Json.nullable Contents.ofJson? contents = some d.contents)
    (hextensions : Json.defaulted .empty Extensions.ofJson? extensions = some d.extensions) :
    ofJson? j = some d := by
  rw [ofJson?, hfields]
  simp only [Option.bind_eq_bind, Option.bind_some, hname, hordinal, hpersistence,
    hdefaultFetchGroup, hcontents, hextensions]

/-- The JSON form of a descriptor is read back. -/
theorem ofJson?_toJson (d : Descriptor) : ofJson? d.toJson = some d := by
  refine ofJson?_of_fields d.fields_toJson rfl ?_ d.persistence.ofJson?_text rfl ?_
    d.extensions.ofJson?_toJson
  · -- The bound of an ordinal would be counted down if this were left to unfolding.
    rw [Json.required, Option.bind_some, FieldOrdinal.ofJson?_toJson]
  · exact Json.nullable_map Contents.ofJson?_toJson Contents.toJson_ne_null d.contents

/-- The JSON form of a descriptor has no fractional numbers. -/
theorem isWhole_toJson (d : Descriptor) : d.toJson.IsWhole := by
  refine Json.isWhole_object ?_
  simp only [List.forall_mem_cons, List.forall_mem_append, Option.mem_toList,
    Option.map_eq_some_iff]
  refine ⟨⟨⟨Json.isWhole_text _, .int _, Json.isWhole_text _, .bool _, nofun⟩, ?_⟩,
    d.extensions.isWhole_toJson, nofun⟩
  rintro _ ⟨contents, -, rfl⟩
  exact contents.isWhole_toJson

/-- The text of a descriptor holds its JSON form. -/
theorem read_render (d : Descriptor) : Json.read d.render = some d.toJson :=
  Json.read_render d.isWhole_toJson

/-- The text of a descriptor describes the descriptor. -/
theorem parse?_render (d : Descriptor) : parse? d.render = some d := by
  rw [parse?, read_render, Option.bind_some, ofJson?_toJson]

/-- Different descriptors have different texts. -/
theorem render_injective {d d' : Descriptor} (h : d.render = d'.render) : d = d' := by
  have hparse := parse?_render d
  rw [h, parse?_render] at hparse
  exact (Option.some.inj hparse).symm

/-- Two descriptors answer every question about the field alike. -/
structure AnswersLike (d d' : Descriptor) : Prop where
  isPersistent : d.isPersistent = d'.isPersistent
  allowsNulls : d.allowsNulls = d'.allowsNulls
  hasDependentElement : d.hasDependentElement = d'.hasDependentElement
  hasElementsWithoutIdentity : d.hasElementsWithoutIdentity = d'.hasElementsWithoutIdentity
  hasSerializedElements : d.hasSerializedElements = d'.hasSerializedElements
  cache : d.cache? = d'.cache?
  cacheLazyLoading : d.cacheLazyLoading? = d'.cacheLazyLoading?
  extension : ∀ key, d.extension? key = d'.extension? key

/-- A descriptor answers like itself. -/
theorem AnswersLike.refl (d : Descriptor) : AnswersLike d d :=
  ⟨rfl, rfl, rfl, rfl, rfl, rfl, rfl, fun _ => rfl⟩

/-- Serialization loses nothing. The text of a descriptor holds exactly its JSON form and describes
the descriptor, which answers every question as before; so different descriptors have different
texts. What any text describes is written as a text that describes the same and is written again for
itself. -/
theorem serialization_lossless :
    (∀ d : Descriptor, Json.read d.render = some d.toJson ∧
      ∃ back, parse? d.render = some back ∧ back = d ∧ AnswersLike back d) ∧
    (∀ d d' : Descriptor, d.render = d'.render ↔ d = d') ∧
    ∀ s t : String, (parse? s).map render = some t →
      parse? t = parse? s ∧ (parse? t).map render = some t := by
  refine ⟨fun d => ⟨d.read_render, d, d.parse?_render, rfl, .refl d⟩, fun d d' => ?_, ?_⟩
  · exact ⟨render_injective, congrArg render⟩
  · intro s t ht
    obtain ⟨d, hparse, rfl⟩ := Option.map_eq_some_iff.mp ht
    rw [d.parse?_render, hparse]
    exact ⟨rfl, rfl⟩

/-- A text in which everything is written in an unusual way is understood, and written as usual. -/
theorem serialization_lossless_of_unusual_text :
    let s := "\x7b\"name\":\"\\u0041\",\"absolute_field_number\":9,\"x\":\"\\ud800\",\"container\":
      [[\"E\",true],null,[\"V\"]],\"extensions\":
      \x7b\"b\":\"1\",\"\\ud835\\udd4f\":\"\",\"b\":\"\\n\"\x7d\x7d"
    let d : Descriptor :=
      { name := "A"
        ordinal := ⟨9⟩
        contents := some
          { element := { typeName := "E", hasIdentity := true }
            value := some { typeName := "V" } }
        extensions := .ofList [("𝕏", ""), ("b", "\n")] }
    parse? s = some d ∧ (parse? s).map render = some d.render ∧
      parse? d.render = parse? s ∧ (parse? d.render).map render = some d.render := by
  intro s d
  have hparse : parse? s = some d := by decide +kernel
  have hwritten : (parse? s).map render = some d.render := by rw [hparse, Option.map_some]
  exact ⟨hparse, hwritten, serialization_lossless.2.2 s d.render hwritten⟩

end Descriptor

end TrackedFields
