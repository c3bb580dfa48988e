/-!
# Finite maps

Finite maps as lists of entries with distinct keys, in the order in which the keys came. Setting
a key that is present keeps its place, and changes the value of that key only.
-/

namespace TrackedFields

/-- A finite map from keys to values. -/
structure Table (K V : Type) where
  entries : List (K × V)
  distinct : (entries.map (·.1)).Nodup

namespace Table

variable {K V : Type} [DecidableEq K]

/-- The map without keys. -/
def empty : Table K V := ⟨[], List.nodup_nil⟩

/-- The value of the first entry with a key. -/
def find? (key : K) : List (K × V) → Option V
  | [] => none
  | entry :: rest => if entry.1 = key then some entry.2 else find? key rest

/-- The value of a key. -/
def get? (t : Table K V) (key : K) : Option V := find? key t.entries

/-- The value of a key, or the default where the key is absent. -/
def getD (t : Table K V) (key : K) (default : V) : V := (t.get? key).getD default

/-- The number of keys. -/
def size (t : Table K V) : Nat := t.entries.length

/-- The entries with one key set. -/
def setEntries (key : K) (value : V) : List (K × V) → List (K × V)
  | [] => [(key, value)]
  | entry :: rest =>
    if entry.1 = key then (key, value) :: rest else entry :: setEntries key value rest

/-- Setting a key adds no other key. -/
theorem mem_keys_setEntries (key other : K) (value : V) (entries : List (K × V)) :
    other ∈ (setEntries key value entries).map (·.1) ↔
      other = key ∨ other ∈ entries.map (·.1) := by
  induction entries with
  | nil => simp [setEntries]
  | cons entry rest ih => grind [setEntries]

private theorem nodup_setEntries (key : K) (value : V) {entries : List (K × V)}
    (h : (entries.map (·.1)).Nodup) : ((setEntries key value entries).map (·.1)).Nodup := by
  induction entries with
  | nil => simp [setEntries]
  | cons entry rest ih =>
    rw [List.map_cons, List.nodup_cons] at h
    unfold setEntries
    split
    · next hkey => simpa [← hkey] using h
    · next hkey =>
      rw [List.map_cons, List.nodup_cons, mem_keys_setEntries]
      exact ⟨fun hmem => hmem.elim hkey h.1, ih h.2⟩

/-- The map with one key set. -/
def set (t : Table K V) (key : K) (value : V) : Table K V :=
  ⟨setEntries key value t.entries, nodup_setEntries key value t.distinct⟩

private theorem find?_setEntries (entries : List (K × V)) (key other : K) (value : V) :
    find? other (setEntries key value entries) =
      if other = key then some value else find? other entries := by
  induction entries with
  | nil => simp [setEntries, find?, eq_comm]
  | cons entry rest ih => grind [setEntries, find?]

/-- The empty map has no values. -/
@[simp] theorem get?_empty (key : K) : (empty : Table K V).get? key = none := rfl

/-- Setting a key changes the value of that key only. -/
theorem get?_set (t : Table K V) (key other : K) (value : V) :
    (t.set key value).get? other = if other = key then some value else t.get? other :=
  find?_setEntries t.entries key other value

/-- A key that was set has its value. -/
@[simp] theorem get?_set_self (t : Table K V) (key : K) (value : V) :
    (t.set key value).get? key = some value := by simp [get?_set]

/-- Setting a key changes the value of that key only, defaults included. -/
theorem getD_set (t : Table K V) (key other : K) (value default : V) :
    (t.set key value).getD other default =
      if other = key then value else t.getD other default := by
  unfold getD
  rw [get?_set]
  split <;> rfl

end Table

end TrackedFields
