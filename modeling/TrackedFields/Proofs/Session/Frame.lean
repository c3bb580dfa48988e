import TrackedFields.Tracker.Forward
import TrackedFields.Tracker.Report

/-!
# What requests leave alone

Requests of tracked fields touch few parts of a session: the journal always, the queue when an
operation joins it, the marks of an entity when it becomes dirty. Stores are reached by store calls
alone, and records are deleted for orphans alone. Each lemma names one part of the session and one
request; together they give the queue, the stores and the deletions after a whole report.
-/

namespace TrackedFields

namespace Session

variable {E : Type} (s : Session E)

/-! ### Single requests -/

/-- Other effects than deletions delete nothing. -/
theorem deletions_record {effects : List (Effect E)} (h : ∀ effect ∈ effects, ∀ e,
    effect ≠ .deleted e) : (s.record effects).deletions = s.deletions := by
  unfold deletions record
  rw [List.filterMap_append, List.append_right_eq_self, List.filterMap_eq_nil_iff]
  intro effect hmem
  cases effect with
  | deleted e => exact absurd rfl (h _ hmem e)
  | _ => rfl

/-- Entities are apart from the queue. -/
@[simp] theorem pending_updateEntity (id : ObjectId) (change : Entity → Entity) :
    (s.updateEntity id change).pending = s.pending := by
  unfold updateEntity
  split <;> rfl

/-- Entities are apart from the stores. -/
@[simp] theorem stores_updateEntity (id : ObjectId) (change : Entity → Entity) :
    (s.updateEntity id change).stores = s.stores := by
  unfold updateEntity
  split <;> rfl

/-- A change of an entity deletes no record. -/
@[simp] theorem deletions_updateEntity (id : ObjectId) (change : Entity → Entity) :
    (s.updateEntity id change).deletions = s.deletions := by
  unfold updateEntity
  split <;> rfl

/-- A dirty mark queues nothing. -/
@[simp] theorem pending_markDirty (id : ObjectId) (field : FieldOrdinal) :
    (s.markDirty id field).pending = s.pending := s.pending_updateEntity id _

/-- A dirty mark reaches no store. -/
@[simp] theorem stores_markDirty (id : ObjectId) (field : FieldOrdinal) :
    (s.markDirty id field).stores = s.stores := s.stores_updateEntity id _

/-- A dirty mark deletes no record. -/
@[simp] theorem deletions_markDirty (id : ObjectId) (field : FieldOrdinal) :
    (s.markDirty id field).deletions = s.deletions := by
  rw [markDirty, deletions_record _ (by simp), deletions_updateEntity]

/-- An update that is persisted at once queues nothing. -/
@[simp] theorem pending_persistUpdate : s.persistUpdate.pending = s.pending := rfl

/-- An update that is persisted at once reaches no container store. -/
@[simp] theorem stores_persistUpdate : s.persistUpdate.stores = s.stores := rfl

/-- An update that is persisted at once deletes no record. -/
@[simp] theorem deletions_persistUpdate : s.persistUpdate.deletions = s.deletions :=
  s.deletions_record (by simp)

/-- Relations are told without queueing anything. -/
@[simp] theorem pending_relate (owner : ObjectId) (field : FieldOrdinal)
    (changes : List (RelationChange E)) :
    (s.relate owner field changes).pending = s.pending := by
  unfold relate
  split <;> rfl

/-- Relations are told without reaching a store. -/
@[simp] theorem stores_relate (owner : ObjectId) (field : FieldOrdinal)
    (changes : List (RelationChange E)) :
    (s.relate owner field changes).stores = s.stores := by
  unfold relate
  split <;> rfl

/-- Relations are told without deleting a record. -/
@[simp] theorem deletions_relate (owner : ObjectId) (field : FieldOrdinal)
    (changes : List (RelationChange E)) :
    (s.relate owner field changes).deletions = s.deletions := by
  unfold relate
  split
  · exact s.deletions_record (by simp)
  · rfl

/-- A queued operation goes to the end of the queue. -/
@[simp] theorem pending_enqueue (operation : Operation E) :
    (s.enqueue operation).pending = s.pending ++ [operation] := rfl

/-- A queued operation does not reach its store yet. -/
@[simp] theorem stores_enqueue (operation : Operation E) :
    (s.enqueue operation).stores = s.stores := rfl

/-- A queued operation deletes no record, even if it removes elements. -/
@[simp] theorem deletions_enqueue (operation : Operation E) :
    (s.enqueue operation).deletions = s.deletions :=
  deletions_record _ (by simp)

/-- Queued operations go to the end of the queue in order. -/
@[simp] theorem pending_enqueueAll (operations : List (Operation E)) :
    (s.enqueueAll operations).pending = s.pending ++ operations := by
  unfold enqueueAll
  induction operations generalizing s with
  | nil => simp
  | cons operation operations ih => simp [ih]

/-- Queued operations do not reach their stores yet. -/
@[simp] theorem stores_enqueueAll (operations : List (Operation E)) :
    (s.enqueueAll operations).stores = s.stores := by
  unfold enqueueAll
  induction operations generalizing s with
  | nil => rfl
  | cons operation operations ih => simp [ih]

/-- Queued operations delete no record. -/
@[simp] theorem deletions_enqueueAll (operations : List (Operation E)) :
    (s.enqueueAll operations).deletions = s.deletions := by
  unfold enqueueAll
  induction operations generalizing s with
  | nil => rfl
  | cons operation operations ih => simp [ih]

/-- Requests for deletion are not queued. -/
@[simp] theorem pending_deleteAll (es : List E) : (s.deleteAll es).pending = s.pending := rfl

/-- Requests for deletion reach no container store. -/
@[simp] theorem stores_deleteAll (es : List E) : (s.deleteAll es).stores = s.stores := rfl

/-- Requests for deletion are recorded one for each element, in order. -/
@[simp] theorem deletions_deleteAll (es : List E) :
    (s.deleteAll es).deletions = s.deletions ++ es := by
  unfold deletions deleteAll record
  rw [List.filterMap_append, List.filterMap_map]
  exact congrArg _ (List.filterMap_some ..)

/-- Elements are attached without queueing anything. -/
@[simp] theorem pending_attachAll (es : List E) (withoutIdentity : Bool) :
    (s.attachAll es withoutIdentity).pending = s.pending := rfl

/-- Elements are attached without reaching a store. -/
@[simp] theorem stores_attachAll (es : List E) (withoutIdentity : Bool) :
    (s.attachAll es withoutIdentity).stores = s.stores := rfl

/-- Elements are attached without deleting a record. -/
@[simp] theorem deletions_attachAll (es : List E) (withoutIdentity : Bool) :
    (s.attachAll es withoutIdentity).deletions = s.deletions :=
  s.deletions_record (by simp)

/-! ### Store calls -/

/-- Sessions with the same stores have the same store of every name. -/
theorem store_of_stores_eq {before after : Session E} (h : after.stores = before.stores)
    (name : StoreName) : after.store name = before.store name := by
  rw [store, h, store]

/-- A store call changes the store that is called, and no other. -/
theorem store_afterCalls (name other : StoreName) (store : Store E) :
    (s.afterCalls name store).store other = if other = name then store else s.store other :=
  s.stores.getD_set name other store {}

/-- The session records no deletion for a store call; what the store deletes is the store's own. -/
@[simp] theorem deletions_afterCalls (name : StoreName) (store : Store E) :
    (s.afterCalls name store).deletions = s.deletions := by
  apply (s.putStore name store).deletions_record
  intro effect hmem e
  obtain ⟨call, -, rfl⟩ := List.mem_map.mp hmem
  simp

/-- A store call that answers, from the session's side. -/
theorem access_ok {α : Type} {name : StoreName} {action : StoreAction E α} {s : Session E} {a : α}
    {store : Store E} (h : action (s.store name) = .ok a store) :
    access name action s = .ok a (s.afterCalls name store) := by
  rw [access, h]

/-- A store call that fails, from the session's side. -/
theorem access_error {α : Type} {name : StoreName} {action : StoreAction E α} {s : Session E}
    {e : StoreError} {store : Store E} (h : action (s.store name) = .error e store) :
    access name action s = .error e (s.afterCalls name store) := by
  rw [access, h]

end Session

namespace Owner

variable {E : Type} (o : Owner) (s : Session E)

/-- An owner marks its entity without queueing anything. -/
@[simp] theorem pending_markDirty : (o.markDirty s).pending = s.pending := by
  unfold markDirty
  split <;> simp

/-- An owner marks its entity without reaching a store. -/
@[simp] theorem stores_markDirty : (o.markDirty s).stores = s.stores := by
  unfold markDirty
  split <;> simp

/-- The end of a change is told to the entity, not to the queue. -/
@[simp] theorem pending_changed : (o.changed s).pending = s.pending := by
  unfold changed
  dsimp only
  split
  · split <;> simp
  · rfl

/-- The end of a change is told to the entity, not to a store. -/
@[simp] theorem stores_changed : (o.changed s).stores = s.stores := by
  unfold changed
  dsimp only
  split
  · split <;> simp
  · rfl

/-- The end of a change deletes no record. -/
@[simp] theorem deletions_changed : (o.changed s).deletions = s.deletions := by
  unfold changed
  dsimp only
  split
  · split <;> simp
  · rfl

end Owner

namespace Tracker

variable {E : Type} (t : Tracker) (s : Session E)

/-- A tracker with a store has an owner, and queues its changes or makes them right away. -/
theorem exists_owner_of_channel {t : Tracker} {name : StoreName} {id : ObjectId}
    (h : t.channel = some (name, id)) :
    ∃ o, t.owner = some o ∧ o.id = id ∧
      (t.dispatch = .queued (some name) ∨ t.dispatch = .immediate name) := by
  unfold channel at h
  split at h
  · next store owner hdispatch howner =>
    cases h
    exact ⟨owner, howner, rfl, .inl hdispatch⟩
  · next store owner hdispatch howner =>
    cases h
    exact ⟨owner, howner, rfl, .inr hdispatch⟩
  · cases h

/-! ### Reports -/

/-- The operations that join the queue for some changes of the container. -/
def queued (kinds : List (OperationKind E)) : List (Operation E) :=
  match t.dispatch, t.owner with
  | .queued store, some owner =>
    kinds.map fun kind => { owner := owner.id, field := owner.field, store, kind }
  | _, _ => []

/-- A field that queues its changes queues every one of them. -/
theorem queued_eq_map {t : Tracker} {o : Owner} {store : Option StoreName}
    (howner : t.owner = some o) (hdispatch : t.dispatch = .queued store)
    (kinds : List (OperationKind E)) :
    t.queued kinds =
      kinds.map fun kind => { owner := o.id, field := o.field, store, kind } := by
  rw [queued, hdispatch, howner]

/-- What a field queues are the given changes, in order. -/
theorem map_kind_queued {t : Tracker} {o : Owner} {store : Option StoreName}
    (howner : t.owner = some o) (hdispatch : t.dispatch = .queued store)
    (kinds : List (OperationKind E)) : (t.queued kinds).map Operation.kind = kinds := by
  rw [queued_eq_map howner hdispatch, List.map_map]
  exact List.map_id kinds

/-- Changes are queued one after the other. -/
theorem queued_append (kinds more : List (OperationKind E)) :
    t.queued (kinds ++ more) = t.queued kinds ++ t.queued more := by
  unfold queued
  split <;> simp

/-- Without changes, nothing is queued. -/
@[simp] theorem queued_nil : t.queued ([] : List (OperationKind E)) = [] := by
  unfold queued
  split <;> rfl

/-- A container that does not queue its changes adds nothing to the queue. -/
theorem queued_of_not_isQueued {t : Tracker} (h : t.isQueued = false)
    (kinds : List (OperationKind E)) : t.queued kinds = [] := by
  unfold queued
  unfold isQueued at h
  cases hdispatch : t.dispatch with
  | queued store =>
    rw [hdispatch] at h
    cases h
  | _ => rfl

/-- What joins the queue are the given changes. -/
theorem kind_mem_of_queued {t : Tracker} {kinds : List (OperationKind E)}
    {operation : Operation E} (h : operation ∈ t.queued kinds) : operation.kind ∈ kinds := by
  unfold queued at h
  split at h
  · obtain ⟨kind, hkind, rfl⟩ := List.mem_map.mp h
    exact hkind
  · cases h

/-- A container marks its entity without queueing anything. -/
@[simp] theorem pending_markDirty : (t.markDirty s).pending = s.pending := by
  unfold markDirty
  split <;> simp

/-- A container marks its entity without reaching a store. -/
@[simp] theorem stores_markDirty : (t.markDirty s).stores = s.stores := by
  unfold markDirty
  split <;> simp

/-- The end of a container's change queues nothing. -/
@[simp] theorem pending_changed : (t.changed s).pending = s.pending := by
  unfold changed
  split <;> simp

/-- The end of a container's change reaches no store. -/
@[simp] theorem stores_changed : (t.changed s).stores = s.stores := by
  unfold changed
  split <;> simp

/-- The end of a container's change deletes no record. -/
@[simp] theorem deletions_changed : (t.changed s).deletions = s.deletions := by
  unfold changed
  split <;> simp

/-- A container tells relations without queueing anything. -/
@[simp] theorem pending_relate (changes : List (RelationChange E)) :
    (t.relate changes s).pending = s.pending := by
  unfold relate
  split <;> simp

/-- A container tells relations without reaching a store. -/
@[simp] theorem stores_relate (changes : List (RelationChange E)) :
    (t.relate changes s).stores = s.stores := by
  unfold relate
  split <;> simp

/-- A container tells relations without deleting a record. -/
@[simp] theorem deletions_relate (changes : List (RelationChange E)) :
    (t.relate changes s).deletions = s.deletions := by
  unfold relate
  split <;> simp

/-- What a container adds to the queue is `queued`. -/
@[simp] theorem pending_enqueue (kinds : List (OperationKind E)) :
    (t.enqueue kinds s).pending = s.pending ++ t.queued kinds := by
  unfold enqueue queued
  cases t.dispatch <;> cases t.owner <;> simp

/-- What a container queues does not reach its store yet. -/
@[simp] theorem stores_enqueue (kinds : List (OperationKind E)) :
    (t.enqueue kinds s).stores = s.stores := by
  unfold enqueue
  split <;> simp

/-- What a container queues deletes no record yet. -/
@[simp] theorem deletions_enqueue (kinds : List (OperationKind E)) :
    (t.enqueue kinds s).deletions = s.deletions := by
  unfold enqueue
  split <;> simp

/-- A container attaches elements without queueing anything. -/
@[simp] theorem pending_attach (es : List E) : (t.attach es s).pending = s.pending := by
  unfold attach
  split <;> simp

/-- A container attaches elements without reaching a store. -/
@[simp] theorem stores_attach (es : List E) : (t.attach es s).stores = s.stores := by
  unfold attach
  split <;> simp

/-- A container attaches elements without deleting a record. -/
@[simp] theorem deletions_attach (es : List E) :
    (t.attach es s).deletions = s.deletions := by
  unfold attach
  split <;> simp

/-- A change that is forwarded is skipped, unless changes are made in the store right away; then the
store is called for the owner, and a failure is noted in the journal. -/
theorem forward_cases {α : Type} (operation : String) (action : ObjectId → StoreAction E α) :
    t.forward operation action s = (.skipped, s) ∨
      ∃ name o, t.dispatch = .immediate name ∧ t.owner = some o ∧
        ((∃ answer store, action o.id (s.store name) = .ok answer store ∧
          t.forward operation action s = (.applied answer, s.afterCalls name store)) ∨
        ∃ error store, action o.id (s.store name) = .error error store ∧
          t.forward operation action s = (.failed, (s.afterCalls name store).record
            [.warned operation (t.place (s.afterCalls name store)) error])) := by
  unfold forward
  cases hdispatch : t.dispatch with
  | memory => exact .inl rfl
  | queued store => exact .inl rfl
  | immediate name =>
    dsimp only
    unfold call channel
    rw [hdispatch]
    cases howner : t.owner with
    | none => exact .inl rfl
    | some o =>
      refine .inr ⟨name, o, rfl, rfl, ?_⟩
      dsimp only
      cases haction : action o.id (s.store name) with
      | ok answer store =>
        rw [Session.access_ok haction]
        exact .inl ⟨answer, store, rfl, rfl⟩
      | error error store =>
        rw [Session.access_error haction]
        exact .inr ⟨error, store, rfl, rfl⟩

variable [DecidableEq E]

/-- Orphans are deleted where changes stay in memory only, so their deletion is never queued. -/
@[simp] theorem pending_cascade (es : List E) : (t.cascade es s).pending = s.pending := by
  unfold cascade
  split
  · split <;> simp
  · rfl

/-- Orphans are deleted by the session, not by a container store. -/
@[simp] theorem stores_cascade (es : List E) : (t.cascade es s).stores = s.stores := by
  unfold cascade
  split
  · split <;> simp
  · rfl

/-- Of a whole report, the queue hears the operations. -/
@[simp] theorem pending_announce (report : Report E) :
    (t.announce report s).pending = s.pending ++ t.queued report.operations := by
  simp [announce]

/-- A report never reaches a store. -/
@[simp] theorem stores_announce (report : Report E) :
    (t.announce report s).stores = s.stores := by
  simp [announce]

/-- Of a report and the end of the change, the queue hears the operations. -/
theorem pending_reported (report : Report E) :
    (t.changed (t.announce report s)).pending = s.pending ++ t.queued report.operations := by
  rw [pending_changed, pending_announce]

/-- Reporting a change and its end leaves the stores alone. -/
theorem stores_reported (report : Report E) :
    (t.changed (t.announce report s)).stores = s.stores := by
  rw [stores_changed, stores_announce]

/-- Reporting a change and its end reaches no store. -/
theorem store_reported (report : Report E) (name : StoreName) :
    (t.changed (t.announce report s)).store name = s.store name :=
  Session.store_of_stores_eq (stores_reported t s report) name

/-- Deleting nothing deletes no record. -/
theorem deletions_cascade_nil : (t.cascade [] s).deletions = s.deletions := by
  unfold cascade
  split
  · split
    · exact s.deletions_record (by simp [ElementSet.ofList, ElementSet.empty])
    · rfl
  · rfl

/-- A report without orphans deletes no record. -/
theorem deletions_announce {report : Report E} (h : report.orphans = []) :
    (t.announce report s).deletions = s.deletions := by
  rw [announce, h, deletions_cascade_nil, deletions_enqueue, deletions_relate]

/-- A container of dependent elements in memory deletes the orphans of a report, each once. -/
theorem deletions_announce_memory {t : Tracker} {o : Owner} (howner : t.owner = some o)
    (hdispatch : t.dispatch = .memory) (hdependent : o.descriptor.hasDependentElement = true)
    (report : Report E) :
    (t.announce report s).deletions =
      s.deletions ++ (ElementSet.ofList report.orphans).toList := by
  unfold announce cascade
  rw [hdispatch, howner]
  dsimp only
  rw [if_pos hdependent, Session.deletions_deleteAll, deletions_enqueue, deletions_relate]

end Tracker

end TrackedFields
