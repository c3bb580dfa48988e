/-!
# Sets in order of arrival

Finite sets as lists without repetition, in the order in which the members came. Order is for
listing only: two sets are the same if they have the same members. Each operation is described by
its effect on membership.
-/

namespace TrackedFields

/-- A finite set, listed without repetition. -/
structure ElementSet (E : Type) where
  toList : List E
  nodup : toList.Nodup

namespace ElementSet

variable {E : Type}

/-- The members of a set are the elements of its listing. -/
instance : Membership E (ElementSet E) := ⟨fun s e => e ∈ s.toList⟩

/-- The set without members. -/
def empty : ElementSet E := ⟨[], .nil⟩

/-- The number of members. -/
def size (s : ElementSet E) : Nat := s.toList.length

/-- The members that satisfy a condition. -/
def filter (s : ElementSet E) (p : E → Bool) : ElementSet E :=
  ⟨s.toList.filter p, s.nodup.sublist List.filter_sublist⟩

/-- Membership is membership in the listing. -/
theorem mem_toList (s : ElementSet E) (e : E) : e ∈ s.toList ↔ e ∈ s := .rfl

/-- The empty set has no members. -/
@[simp] theorem not_mem_empty (e : E) : e ∉ (empty : ElementSet E) := List.not_mem_nil

/-- A filter keeps the members that satisfy its condition. -/
@[simp] theorem mem_filter (s : ElementSet E) (p : E → Bool) (e : E) :
    e ∈ s.filter p ↔ e ∈ s ∧ p e := List.mem_filter

variable [DecidableEq E]

instance (e : E) (s : ElementSet E) : Decidable (e ∈ s) :=
  inferInstanceAs (Decidable (e ∈ s.toList))

/-- Whether an element is a member. -/
def contains (s : ElementSet E) (e : E) : Bool := s.toList.contains e

/-- The set with one more member, unless it already has it. -/
def insert (s : ElementSet E) (e : E) : ElementSet E :=
  if h : e ∈ s.toList then s
  else ⟨s.toList ++ [e], by
    rw [List.nodup_append]
    exact ⟨s.nodup, by simp, by rintro a ha b hb rfl; simp_all⟩⟩

/-- The set of the elements of a list. -/
def ofList (es : List E) : ElementSet E := es.foldl insert empty

/-- Whether two sets have the same members. -/
def same (s t : ElementSet E) : Bool := s.size == t.size && s.toList.all t.contains

/-- The test for membership decides it. -/
@[simp] theorem contains_iff (s : ElementSet E) (e : E) : s.contains e ↔ e ∈ s :=
  List.contains_iff_mem

/-- Insertion adds one member. -/
@[simp] theorem mem_insert (s : ElementSet E) (e a : E) : a ∈ s.insert e ↔ a = e ∨ a ∈ s := by
  unfold insert
  split
  · next h => exact ⟨.inr, fun h' => h'.elim (fun he => he ▸ h) id⟩
  · simp [← mem_toList, or_comm]

/-- Insertion of several elements adds them as members. -/
theorem mem_foldl_insert (es : List E) (s : ElementSet E) (e : E) :
    e ∈ es.foldl insert s ↔ e ∈ es ∨ e ∈ s := by
  induction es generalizing s with
  | nil => simp
  | cons a es ih => simp [ih, or_assoc, or_left_comm]

/-- The set of a list has the elements of the list as members. -/
@[simp] theorem mem_ofList (es : List E) (e : E) : e ∈ ofList es ↔ e ∈ es := by
  simp [ofList, mem_foldl_insert]

/-- Two sets are the same exactly if they have the same members: a set of the same size with
a further member would have to lack one. -/
theorem same_iff (s t : ElementSet E) : s.same t ↔ ∀ e, e ∈ s ↔ e ∈ t := by
  simp only [same, size, Bool.and_eq_true, beq_iff_eq, List.all_eq_true, contains_iff, mem_toList]
  constructor
  · rintro ⟨hsize, hst⟩ e
    refine ⟨hst e, fun he => Decidable.byContradiction fun hes => ?_⟩
    have hsub : ∀ a ∈ e :: s.toList, a ∈ t.toList := fun a ha =>
      (List.mem_cons.mp ha).elim (fun h => h ▸ he) (hst a)
    have hlen := List.Nodup.length_le_of_subset (List.nodup_cons.mpr ⟨hes, s.nodup⟩) hsub
    rw [List.length_cons] at hlen
    omega
  · intro h
    exact ⟨Nat.le_antisymm
      (List.Nodup.length_le_of_subset s.nodup fun e he => (h e).mp he)
      (List.Nodup.length_le_of_subset t.nodup fun e he => (h e).mpr he), fun e => (h e).mp⟩

end ElementSet

end TrackedFields
