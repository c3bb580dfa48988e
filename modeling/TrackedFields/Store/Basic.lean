import TrackedFields.Comparator
import TrackedFields.Element
import TrackedFields.FieldOrdinal
import TrackedFields.Store.Error
import TrackedFields.Store.Outage
import TrackedFields.Table

/-!
# Backing stores

A backing store holds one container of elements per owner, in memory. It keeps the containers
sorted if it has an order, so that position 0 is the head. It records what happens to it: the
calls in order, how often a whole container was read, how many writes were attempted, and which
dependent elements lost their last place in a container and were deleted.

Every call runs through `reading` or `writing`; these two alone decide what a call that the
datastore rejects leaves behind: the record of the call, and nothing else. The main statements say
which containers a write changes, if it succeeds and if it fails.
-/

namespace TrackedFields

/-- A call of a backing store. Size hints are the size of the container before the call, where
the caller knows it. -/
inductive StoreCall (E : Type) where
  | size
  | contains (element : E)
  | elements
  | get (position : Nat)
  | add (element : E) (hint : Option Nat)
  | insert (position : Nat) (element : E)
  | remove (element : E) (hint : Option Nat) (cascade : Bool)
  | removeAt (position : Nat) (hint : Option Nat)
  | set (position : Nat) (element : E) (cascade : Bool)
  | clear
  | updateEmbedded (element : E) (field : FieldOrdinal)
  deriving DecidableEq

/-- A backing store in memory. -/
structure Store (E : Type) where
  /-- The order that the containers are kept in; none keeps the order of arrival. -/
  order : Option (Comparator E) := none
  /-- Whether an element that leaves its container is deleted with its record. -/
  dependent : Bool := false
  containers : Table ObjectId (List E) := .empty
  /-- The dependent elements deleted so far. -/
  deleted : List E := []
  /-- How many times a whole container was read. -/
  iterations : Nat := 0
  /-- How many writes were attempted. -/
  mutations : Nat := 0
  reads : Outage := .never
  writes : Outage := .never
  /-- The calls so far. -/
  calls : List (StoreCall E) := []

/-- A call of a store: it answers or fails, and leaves a store either way. -/
abbrev StoreAction (E α : Type) := EStateM StoreError (Store E) α

namespace Store

variable {E : Type}

/-- The container of an owner, empty if there is none. -/
def contents (st : Store E) (owner : ObjectId) : List E := st.containers.getD owner []

/-- The elements in the order of the store. -/
def arrange (st : Store E) (es : List E) : List E :=
  match st.order with
  | some cmp => cmp.sort es
  | none => es

/-- The store with the container of one owner replaced. -/
def put (st : Store E) (owner : ObjectId) (es : List E) : Store E :=
  { st with containers := st.containers.set owner es }

/-- Replace the container of an owner from outside, without a call. -/
def seed (st : Store E) (owner : ObjectId) (es : List E) : Store E :=
  st.put owner (st.arrange es)

/-- Replacing a container changes that container only. -/
@[simp] theorem contents_put (st : Store E) (owner other : ObjectId) (es : List E) :
    (st.put owner es).contents other = if other = owner then es else st.contents other :=
  st.containers.getD_set owner other es []

/-- Seeding a container changes that container only. -/
@[simp] theorem contents_seed (st : Store E) (owner other : ObjectId) (es : List E) :
    (st.seed owner es).contents other =
      if other = owner then st.arrange es else st.contents other :=
  st.contents_put owner other (st.arrange es)

/-- Arranging a container keeps its elements. -/
theorem arrange_perm (st : Store E) (es : List E) : (st.arrange es).Perm es := by
  unfold arrange
  split
  · exact Comparator.sort_perm _ es
  · exact .refl es

/-- A read. A rejected one leaves only its record. -/
def reading {α : Type} (call : StoreCall E) (answer : Store E → α) : StoreAction E α :=
  fun st =>
    let rejected := st.reads.now
    let st := { st with calls := st.calls ++ [call], reads := st.reads.next }
    if rejected then .error .readRejected st else .ok (answer st) st

/-- A write: the change computes the answer and the new content from the old content. A rejected
one leaves only its record; one that the change refuses also leaves the owner's container
behind, as it was. -/
def writing {α : Type} (call : StoreCall E) (owner : ObjectId)
    (change : List E → Except StoreError (α × List E)) : StoreAction E α :=
  fun st =>
    let rejected := st.writes.now
    let st := { st with
      calls := st.calls ++ [call]
      mutations := st.mutations + 1
      writes := st.writes.next }
    if rejected then .error (.writeRejected owner) st
    else
      match change (st.contents owner) with
      | .error e => .error e (st.put owner (st.contents owner))
      | .ok (a, es) => .ok a (st.put owner (st.arrange es))

/-- A failed write leaves every container as it was. -/
theorem contents_of_writing_error {α : Type} {call : StoreCall E} {owner : ObjectId}
    {change : List E → Except StoreError (α × List E)} {st after : Store E} {e : StoreError}
    (h : writing call owner change st = .error e after) (other : ObjectId) :
    after.contents other = st.contents other := by
  unfold writing at h
  dsimp only at h
  split at h
  · cases h
    rfl
  · split at h
    · cases h
      rw [contents_put]
      split
      · next hother => rw [hother]; rfl
      · rfl
    · cases h

/-- A write that succeeds replaces the owner's container by the arranged result of the change. -/
theorem contents_of_writing_ok {α : Type} {call : StoreCall E} {owner : ObjectId}
    {change : List E → Except StoreError (α × List E)} {st after : Store E} {a : α}
    (h : writing call owner change st = .ok a after) :
    ∃ es, change (st.contents owner) = .ok (a, es) ∧ ∀ other,
      after.contents other = if other = owner then st.arrange es else st.contents other := by
  unfold writing at h
  dsimp only at h
  split at h
  · cases h
  · split at h
    · cases h
    · next es hchange =>
      cases h
      exact ⟨es, hchange, fun other => contents_put _ owner other _⟩

variable [DecidableEq E]

/-- Record the deletion of those removed elements that the container no longer holds. -/
def deleteOrphans (owner : ObjectId) (cascade : Bool) (removed : List E) : StoreAction E Unit :=
  modify fun st =>
    if st.dependent && cascade then
      { st with
        deleted := st.deleted ++ removed.filter fun e => !(st.contents owner).contains e }
    else st

/-- The size of a container. -/
def size (owner : ObjectId) : StoreAction E Nat :=
  reading .size fun st => (st.contents owner).length

/-- Whether a container holds an element. -/
def contains (owner : ObjectId) (e : E) : StoreAction E Bool :=
  reading (.contains e) fun st => (st.contents owner).contains e

/-- The whole container, in the order of the store. -/
def elements (owner : ObjectId) : StoreAction E (List E) := do
  let es ← reading .elements fun st => st.contents owner
  modify fun st => { st with iterations := st.iterations + 1 }
  return es

/-- The element at a position, none past the end. -/
def get (owner : ObjectId) (position : Nat) : StoreAction E (Option E) :=
  reading (.get position) fun st => (st.contents owner)[position]?

/-- Append an element. The container always changes. -/
def add (owner : ObjectId) (e : E) (hint : Option Nat) : StoreAction E Bool :=
  writing (.add e hint) owner fun es => .ok (true, es ++ [e])

/-- Insert an element at a position, shifting later ones. -/
def insert (owner : ObjectId) (position : Nat) (e : E) : StoreAction E Unit :=
  writing (.insert position e) owner fun es =>
    if es.length < position then .error (.positionOutOfRange position es.length)
    else .ok ((), es.insertIdx position e)

/-- Remove the first occurrence of an element; tells whether there was one. -/
def remove (owner : ObjectId) (e : E) (hint : Option Nat) (cascade : Bool) :
    StoreAction E Bool := do
  let found ← writing (.remove e hint cascade) owner fun es => .ok (es.contains e, es.erase e)
  deleteOrphans owner cascade (if found then [e] else [])
  return found

/-- Remove the element at a position; none past the end. -/
def removeAt (owner : ObjectId) (position : Nat) (hint : Option Nat) :
    StoreAction E (Option E) := do
  let removed ← writing (.removeAt position hint) owner fun es =>
    .ok (es[position]?, es.eraseIdx position)
  deleteOrphans owner true removed.toList
  return removed

/-- Replace the element at a position; gives the one before. -/
def set (owner : ObjectId) (position : Nat) (e : E) (cascade : Bool) : StoreAction E E := do
  let previous ← writing (.set position e cascade) owner fun es =>
    match es[position]? with
    | some previous => .ok (previous, es.set position e)
    | none => .error (.positionOutOfRange position es.length)
  deleteOrphans owner cascade [previous]
  return previous

/-- Remove all elements. -/
def clear (owner : ObjectId) : StoreAction E Unit := do
  let removed ← writing .clear owner fun es => .ok (es, [])
  deleteOrphans owner true removed

/-- Write a change to one field of an embedded element through. Elements in memory are not
embedded, so nothing is updated. -/
def updateEmbedded (_ : ObjectId) (e : E) (field : FieldOrdinal) : StoreAction E Bool :=
  reading (.updateEmbedded e field) fun _ => false

instance : Described (Store E) where
  describe st := Text.record "InMemoryBackingStore" [
    ("owners", describe st.containers.size),
    ("ordered", describe st.order.isSome),
    ("dependent", describe st.dependent)]

end Store

end TrackedFields
