import TrackedFields.Proofs.Session.Frame

/-!
# What an owner hears

Of all that a session is asked to do, three things concern the owner of a field: the changes of the
relation behind the field, the dirty marks and the updates persisted outside a transaction. A change
of a tracked container lets its owner hear the same whatever becomes of it in queue or store: it
depends on the relation changes reported, and on whether relations are managed, the owner is in
memory and a transaction is active. No request of a container changes these three.
-/

namespace TrackedFields

/-- What an owner hears, in order. -/
structure News (E : Type) where
  relations : List (FieldOrdinal × RelationChange E) := []
  marks : List FieldOrdinal := []
  updates : Nat := 0

namespace News

variable {E : Type}

/-- News one after the other. -/
instance : Append (News E) where
  append first second := {
    relations := first.relations ++ second.relations
    marks := first.marks ++ second.marks
    updates := first.updates + second.updates }

/-- News are put together part by part. -/
theorem append_eq (first second : News E) : first ++ second = {
    relations := first.relations ++ second.relations
    marks := first.marks ++ second.marks
    updates := first.updates + second.updates } := rfl

/-- News come one after the other. -/
theorem append_assoc (first second third : News E) :
    first ++ second ++ third = first ++ (second ++ third) := by
  simp only [append_eq, List.append_assoc, Nat.add_assoc]

end News

/-- What decides who hears of a change. -/
structure Hearing where
  /-- Whether relations are managed. -/
  managed : Bool
  /-- Whether the owner is in memory. -/
  alive : Bool
  inTransaction : Bool

/-- What an owner hears of the changes of a field: every relation change, and every end of a
change. -/
def Hearing.news {E : Type} (hearing : Hearing) (field : FieldOrdinal)
    (relations : List (RelationChange E)) (changes : Nat) : News E where
  relations := if hearing.managed then relations.map (field, ·) else []
  marks := if hearing.alive then List.replicate changes field else []
  updates := if hearing.alive && !hearing.inTransaction then changes else 0

/-- News of changes come one after the other. -/
theorem Hearing.news_append {E : Type} (hearing : Hearing) (field : FieldOrdinal)
    (relations more : List (RelationChange E)) (changes others : Nat) :
    hearing.news field relations changes ++ hearing.news field more others =
      hearing.news field (relations ++ more) (changes + others) := by
  obtain ⟨managed, alive, inTransaction⟩ := hearing
  cases managed <;> cases alive <;> cases inTransaction <;>
    simp [news, News.append_eq]

/-- Without changes there are no news. -/
theorem Hearing.append_news_nil {E : Type} (hearing : Hearing) (field : FieldOrdinal)
    (first : News E) : first ++ hearing.news field [] 0 = first := by
  simp [news, News.append_eq]

namespace Session

variable {E : Type} (s : Session E)

/-- The dirty marks of an entity. -/
def marksOf (id : ObjectId) : List FieldOrdinal :=
  match s.entity? id with
  | some entity => entity.dirty
  | none => []

/-- What an owner has heard so far. -/
def heard (id : ObjectId) : News E where
  relations := s.relationsOf id
  marks := s.marksOf id
  updates := s.updates

/-- What decides who hears of a change of a field of some owner. -/
def hearing (id : ObjectId) : Hearing where
  managed := s.settings.manageRelationships
  alive := s.isAlive id
  inTransaction := s.transactionActive

/-! ### Single requests -/

/-- Whether an owner hears anything does not depend on the journal. -/
@[simp] theorem hearing_record (effects : List (Effect E)) (id : ObjectId) :
    (s.record effects).hearing id = s.hearing id := rfl

/-- Effects that are neither relation changes nor updates tell an owner nothing. -/
theorem heard_record {effects : List (Effect E)} (id : ObjectId)
    (hquiet : ∀ effect ∈ effects, effect ≠ .updated ∧
      ∀ owner field change, effect ≠ .related owner field change) :
    (s.record effects).heard id = s.heard id := by
  have hrelations : (s.record effects).relationsOf id = s.relationsOf id := by
    unfold relationsOf record
    rw [List.filterMap_append, List.append_right_eq_self, List.filterMap_eq_nil_iff]
    intro effect hmem
    cases effect with
    | related owner field change => exact absurd rfl ((hquiet _ hmem).2 owner field change)
    | _ => rfl
  have hupdates : (s.record effects).updates = s.updates := by
    unfold updates record
    rw [List.countP_append, Nat.add_eq_left, List.countP_eq_zero]
    intro effect hmem
    cases effect with
    | updated => exact absurd rfl (hquiet _ hmem).1
    | _ => simp
  unfold heard
  rw [hrelations, hupdates]
  rfl

/-- What an owner hears of relation changes that are managed. -/
theorem heard_record_related (field : FieldOrdinal) (changes : List (RelationChange E))
    (id : ObjectId) :
    (s.record (changes.map (.related id field))).heard id =
      s.heard id ++ { relations := changes.map (field, ·) } := by
  have hrelations : (s.record (changes.map (.related id field))).relationsOf id =
      s.relationsOf id ++ changes.map (field, ·) := by
    unfold relationsOf record
    rw [List.filterMap_append, List.filterMap_map, ← List.filterMap_eq_map]
    exact congrArg (_ ++ List.filterMap · changes) (funext fun change => if_pos rfl)
  have hupdates : (s.record (changes.map (.related id field))).updates = s.updates := by
    unfold updates record
    rw [List.countP_append, Nat.add_eq_left, List.countP_eq_zero]
    intro effect hmem
    obtain ⟨change, -, rfl⟩ := List.mem_map.mp hmem
    simp
  unfold heard
  rw [hrelations, hupdates, News.append_eq, List.append_nil]
  rfl

/-- Telling relations keeps who is heard. -/
@[simp] theorem hearing_relate (owner : ObjectId) (field : FieldOrdinal)
    (changes : List (RelationChange E)) (id : ObjectId) :
    (s.relate owner field changes).hearing id = s.hearing id := by
  unfold relate
  split <;> rfl

/-- An owner hears of changes of its relations, if relations are managed. -/
theorem heard_relate (field : FieldOrdinal) (changes : List (RelationChange E)) (id : ObjectId) :
    (s.relate id field changes).heard id =
      s.heard id ++ (s.hearing id).news field changes 0 := by
  unfold relate
  by_cases hmanaged : s.settings.manageRelationships = true
  · rw [if_pos hmanaged, heard_record_related]
    simp [Hearing.news, hearing, hmanaged]
  · rw [if_neg hmanaged]
    simp [Hearing.news, hearing, hmanaged, News.append_eq]

/-- A queued operation keeps who is heard. -/
@[simp] theorem hearing_enqueue (operation : Operation E) (id : ObjectId) :
    (s.enqueue operation).hearing id = s.hearing id := rfl

/-- A queued operation is no news to any owner. -/
@[simp] theorem heard_enqueue (operation : Operation E) (id : ObjectId) :
    (s.enqueue operation).heard id = s.heard id :=
  heard_record { s with pending := s.pending ++ [operation] } id (by simp)

/-- Queued operations keep who is heard. -/
@[simp] theorem hearing_enqueueAll (operations : List (Operation E)) (id : ObjectId) :
    (s.enqueueAll operations).hearing id = s.hearing id := by
  unfold enqueueAll
  induction operations generalizing s with
  | nil => rfl
  | cons operation operations ih => simp [ih]

/-- Queued operations are no news to any owner. -/
@[simp] theorem heard_enqueueAll (operations : List (Operation E)) (id : ObjectId) :
    (s.enqueueAll operations).heard id = s.heard id := by
  unfold enqueueAll
  induction operations generalizing s with
  | nil => rfl
  | cons operation operations ih => simp [ih]

/-- Requests for deletion keep who is heard. -/
@[simp] theorem hearing_deleteAll (es : List E) (id : ObjectId) :
    (s.deleteAll es).hearing id = s.hearing id := rfl

/-- Requests for deletion are no news to any owner. -/
@[simp] theorem heard_deleteAll (es : List E) (id : ObjectId) :
    (s.deleteAll es).heard id = s.heard id := s.heard_record id (by simp)

/-- Attaching elements keeps who is heard. -/
@[simp] theorem hearing_attachAll (es : List E) (withoutIdentity : Bool) (id : ObjectId) :
    (s.attachAll es withoutIdentity).hearing id = s.hearing id := rfl

/-- Attaching elements is no news to any owner. -/
@[simp] theorem heard_attachAll (es : List E) (withoutIdentity : Bool) (id : ObjectId) :
    (s.attachAll es withoutIdentity).heard id = s.heard id := s.heard_record id (by simp)

/-- Store calls keep who is heard. -/
@[simp] theorem hearing_afterCalls (name : StoreName) (store : Store E) (id : ObjectId) :
    (s.afterCalls name store).hearing id = s.hearing id := rfl

/-- Store calls are no news to any owner. -/
@[simp] theorem heard_afterCalls (name : StoreName) (store : Store E) (id : ObjectId) :
    (s.afterCalls name store).heard id = s.heard id := by
  apply (s.putStore name store).heard_record id
  intro effect hmem
  obtain ⟨call, -, rfl⟩ := List.mem_map.mp hmem
  simp

/-- An update that is persisted at once keeps who is heard. -/
@[simp] theorem hearing_persistUpdate (id : ObjectId) :
    s.persistUpdate.hearing id = s.hearing id := rfl

/-- Marking a field leaves the owner in memory. -/
@[simp] theorem hearing_markDirty (owner : ObjectId) (field : FieldOrdinal) (id : ObjectId) :
    (s.markDirty owner field).hearing id = s.hearing id := by
  unfold markDirty
  rw [hearing_record]
  unfold updateEntity
  cases hentity : s.entity? owner with
  | none => rfl
  | some entity =>
    have hfind : (s.entities.set owner { entity with dirty := entity.dirty ++ [field] }).get? id =
        if id = owner then some { entity with dirty := entity.dirty ++ [field] }
        else s.entity? id := s.entities.get?_set owner id _
    unfold hearing isAlive entity?
    dsimp only
    rw [hfind]
    by_cases hid : id = owner
    · subst hid
      unfold entity? at hentity
      simp [hentity]
    · simp [hid, entity?]

/-- An owner in memory hears of its marks. -/
theorem heard_markDirty (field : FieldOrdinal) {id : ObjectId} (halive : s.isAlive id = true) :
    (s.markDirty id field).heard id = s.heard id ++ { marks := [field] } := by
  obtain ⟨entity, hentity, -⟩ : ∃ entity, s.entity? id = some entity ∧ entity.alive = true := by
    simpa [isAlive, Option.any_eq_true] using halive
  have hmarks : (s.markDirty id field).marksOf id = s.marksOf id ++ [field] := by
    have hfind : (s.markDirty id field).entity? id =
        some { entity with dirty := entity.dirty ++ [field] } := by
      unfold markDirty updateEntity
      rw [hentity]
      exact s.entities.get?_set_self id _
    unfold marksOf
    rw [hfind, hentity]
  have hjournal : (s.markDirty id field).journal = s.journal ++ [.dirtied id field] := by
    unfold markDirty updateEntity
    rw [hentity]
    rfl
  unfold heard
  rw [hmarks, relationsOf, updates, hjournal]
  simp [News.append_eq, relationsOf, updates]

/-- An owner hears of persisted updates. -/
theorem heard_persistUpdate (id : ObjectId) :
    s.persistUpdate.heard id = s.heard id ++ { updates := 1 } := by
  have hupdates : s.persistUpdate.updates = s.updates + 1 := by
    simp [updates, persistUpdate, record]
  have hrelations : s.persistUpdate.relationsOf id = s.relationsOf id := by
    simp [relationsOf, persistUpdate, record]
  unfold heard
  rw [hupdates, hrelations, News.append_eq, List.append_nil, List.append_nil]
  rfl

end Session

namespace Owner

variable {E : Type} (o : Owner) (s : Session E)

/-- The end of a change keeps who is heard. -/
@[simp] theorem hearing_changed (id : ObjectId) : (o.changed s).hearing id = s.hearing id := by
  unfold changed
  dsimp only
  split
  · split <;> simp
  · rfl

/-- An owner in memory hears of the end of a change: by a mark and, outside a transaction, by an
update. -/
theorem heard_changed :
    (o.changed s).heard o.id = s.heard o.id ++ (s.hearing o.id).news o.field [] 1 := by
  unfold changed
  dsimp only
  by_cases halive : s.isAlive o.id = true
  · have hmark := s.heard_markDirty o.field halive
    have htransaction : (s.markDirty o.id o.field).transactionActive = s.transactionActive := by
      have hsame := s.hearing_markDirty o.id o.field o.id
      exact congrArg Hearing.inTransaction hsame
    rw [if_pos halive, htransaction]
    by_cases hactive : s.transactionActive = true
    · rw [if_pos hactive, hmark]
      simp [Hearing.news, Session.hearing, halive, hactive]
    · rw [if_neg hactive, Session.heard_persistUpdate, hmark]
      simp [Hearing.news, Session.hearing, halive, hactive, News.append_eq]
  · rw [if_neg halive]
    simp [Hearing.news, Session.hearing, halive, News.append_eq]

end Owner

namespace Tracker

variable {E : Type} {t : Tracker} {o : Owner} (s : Session E)

/-- A container that attaches elements keeps who is heard. -/
@[simp] theorem hearing_attach (t : Tracker) (es : List E) (id : ObjectId) :
    (t.attach es s).hearing id = s.hearing id := by
  unfold attach
  split <;> simp

/-- A container that attaches elements brings no owner any news. -/
@[simp] theorem heard_attach (t : Tracker) (es : List E) (id : ObjectId) :
    (t.attach es s).heard id = s.heard id := by
  unfold attach
  split <;> simp

/-- The end of a container's change keeps who is heard. -/
@[simp] theorem hearing_changed (t : Tracker) (id : ObjectId) :
    (t.changed s).hearing id = s.hearing id := by
  unfold changed
  split <;> simp

/-- A forwarded change does not change who hears of changes, whether the store fails or not. -/
@[simp] theorem hearing_forward {α : Type} (t : Tracker) (operation : String)
    (action : ObjectId → StoreAction E α) (id : ObjectId) :
    (t.forward operation action s).2.hearing id = s.hearing id := by
  rcases t.forward_cases s operation action with
    hskipped | ⟨name, o, -, -, ⟨answer, store, -, happlied⟩ | ⟨error, store, -, hfailed⟩⟩
  · rw [hskipped]
  · rw [happlied]
    exact s.hearing_afterCalls name store id
  · rw [hfailed]
    exact s.hearing_afterCalls name store id

/-- The owner does not hear what becomes of a forwarded change. -/
@[simp] theorem heard_forward {α : Type} (t : Tracker) (operation : String)
    (action : ObjectId → StoreAction E α) (id : ObjectId) :
    (t.forward operation action s).2.heard id = s.heard id := by
  rcases t.forward_cases s operation action with
    hskipped | ⟨name, o, -, -, ⟨answer, store, -, happlied⟩ | ⟨error, store, -, hfailed⟩⟩
  · rw [hskipped]
  · rw [happlied]
    exact s.heard_afterCalls name store id
  · rw [hfailed, Session.heard_record _ id (by simp)]
    exact s.heard_afterCalls name store id

/-- The owner hears of the end of a change. -/
theorem heard_changed (howner : t.owner = some o) :
    (t.changed s).heard o.id = s.heard o.id ++ (s.hearing o.id).news o.field [] 1 := by
  rw [changed, howner]
  exact o.heard_changed s

variable [DecidableEq E]

/-- The report of a change keeps who is heard. -/
@[simp] theorem hearing_announce (t : Tracker) (report : Report E) (id : ObjectId) :
    (t.announce report s).hearing id = s.hearing id := by
  have hrelate : (t.relate report.relations s).hearing id = s.hearing id := by
    unfold relate
    split <;> simp
  have hqueue (s : Session E) : (t.enqueue report.operations s).hearing id = s.hearing id := by
    unfold enqueue
    split <;> simp
  have hcascade (s : Session E) : (t.cascade report.orphans s).hearing id = s.hearing id := by
    unfold cascade
    split
    · split <;> simp
    · rfl
  rw [announce, hcascade, hqueue, hrelate]

/-- Of a whole report, the owner hears the relation changes. -/
theorem heard_announce (howner : t.owner = some o) (report : Report E) :
    (t.announce report s).heard o.id =
      s.heard o.id ++ (s.hearing o.id).news o.field report.relations 0 := by
  have hqueue (s : Session E) :
      (t.enqueue report.operations s).heard o.id = s.heard o.id := by
    unfold enqueue
    split <;> simp
  have hcascade (s : Session E) :
      (t.cascade report.orphans s).heard o.id = s.heard o.id := by
    unfold cascade
    split
    · split <;> simp
    · rfl
  rw [announce, hcascade, hqueue, relate, howner]
  exact s.heard_relate o.field report.relations o.id

end Tracker

end TrackedFields
