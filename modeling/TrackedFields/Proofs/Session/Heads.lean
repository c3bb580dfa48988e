import TrackedFields.Proofs.Session.Dedicated

/-!
# Heads that a flush takes

Operations that remove the head of a container are the only ones in a queue that name a position, as
long as all others add or remove by value. Those always find what they need, and take no head. So
whether a flush passes, and which elements it takes from the head, depends on the removals of heads
alone: each takes the head of what is left by all operations before it, and the flush stops at the
first one that finds an empty container.
-/

namespace TrackedFields

open Store (Rules)

namespace OperationKind

variable {E : Type}

/-- An operation that names no position. -/
def ByValue : OperationKind E → Prop
  | collectionAdd _ | collectionRemove _ _ | collectionClear => True
  | listAddAt _ _ | listRemoveAt _ | listSet _ _ _ => False

/-- What an operation takes from the head of a container. -/
def headTaken (es : List E) : OperationKind E → List E
  | listRemoveAt 0 => es.head?.toList
  | _ => []

variable [DecidableEq E]

/-- What operations take from the head of a container, as far as they can be carried out. -/
def headsTaken (rules : Rules E) : List E → List (OperationKind E) → List E
  | _, [] => []
  | es, kind :: kinds =>
    match carryOut rules es kind with
    | none => []
    | some next => kind.headTaken es ++ headsTaken rules next kinds

/-- Operations by value can always be carried out. -/
theorem exists_carryOutAll_of_byValue {rules : Rules E} {kinds : List (OperationKind E)}
    (h : ∀ kind ∈ kinds, kind.ByValue) (es : List E) :
    ∃ next, carryOutAll rules es kinds = some next := by
  induction kinds generalizing es with
  | nil => exact ⟨es, rfl⟩
  | cons kind kinds ih =>
    obtain ⟨mid, hmid⟩ : ∃ mid, carryOut rules es kind = some mid := by
      have hkind := h kind List.mem_cons_self
      cases kind with
      | collectionAdd e => exact ⟨_, rfl⟩
      | collectionRemove e cascade => exact ⟨_, rfl⟩
      | collectionClear => exact ⟨_, rfl⟩
      | listAddAt i e => exact hkind.elim
      | listRemoveAt i => exact hkind.elim
      | listSet i e cascade => exact hkind.elim
    rw [carryOutAll_cons, hmid, Option.bind_some]
    exact ih (fun kind hmem => h kind (List.mem_cons_of_mem _ hmem)) mid

/-- Operations by value take no head. -/
theorem headsTaken_of_byValue {rules : Rules E} {kinds : List (OperationKind E)}
    (h : ∀ kind ∈ kinds, kind.ByValue) (es : List E) : headsTaken rules es kinds = [] := by
  induction kinds generalizing es with
  | nil => rfl
  | cons kind kinds ih =>
    have hnone : kind.headTaken es = [] := by
      have hkind := h kind List.mem_cons_self
      cases kind with
      | listRemoveAt i => exact hkind.elim
      | _ => rfl
    unfold headsTaken
    split
    · rfl
    · next next _ =>
      rw [hnone, List.nil_append]
      exact ih (fun kind hmem => h kind (List.mem_cons_of_mem _ hmem)) next

/-- The head of a container can be removed if and only if there is one. -/
theorem isSome_carryOut_head (rules : Rules E) (es : List E) :
    (carryOut rules es (listRemoveAt 0)).isSome = es.head?.isSome := by
  cases es <;> rfl

/-- Removing the head of a container takes it, if there is one. -/
theorem headsTaken_head (rules : Rules E) (es : List E) :
    headsTaken rules es [listRemoveAt 0] = es.head?.toList := by
  cases es <;> rfl

/-- Of a shelf, the elements are what an operation makes of the container. -/
theorem map_elements_stock (rules : Rules E) (shelf : Shelf E) (kind : OperationKind E) :
    (stock rules shelf kind).map Shelf.elements = carryOut rules shelf.elements kind := by
  unfold carryOut stock
  rw [Option.map_map]
  rfl

/-- Heads are taken one after the other, until an operation cannot be carried out. -/
theorem headsTaken_append (rules : Rules E) (es : List E) (kinds more : List (OperationKind E)) :
    headsTaken rules es (kinds ++ more) = headsTaken rules es kinds ++
      match carryOutAll rules es kinds with
      | none => []
      | some next => headsTaken rules next more := by
  induction kinds generalizing es with
  | nil => rfl
  | cons kind kinds ih =>
    rw [List.cons_append, headsTaken, headsTaken, carryOutAll_cons]
    cases carryOut rules es kind with
    | none => rfl
    | some next =>
      change kind.headTaken es ++ headsTaken rules next (kinds ++ more) =
        kind.headTaken es ++ headsTaken rules next kinds ++ _
      rw [ih, List.append_assoc]
      rfl

end OperationKind

namespace Session

variable {E : Type} [DecidableEq E]

/-- The elements that are taken from the heads of their containers when operations are replayed, as
far as the replay gets. -/
def headsTaken (default : Option StoreName) : List (Operation E) → Session E → List E
  | [], _ => []
  | operation :: rest, s =>
    match operation.store.or default, replay default operation s with
    | some target, .ok () after =>
      operation.kind.headTaken ((s.store target).contents operation.owner) ++
        headsTaken default rest { after with pending := rest }
    | _, _ => []

/-- What a store would hold for an owner if all that waits was flushed now; none if the flush would
stop. -/
def due (s : Session E) (name : StoreName) (owner : ObjectId) : Option (List E) :=
  match flush none s with
  | .ok _ after => some ((after.store name).contents owner)
  | .error _ _ => none

variable {s : Session E} {name : StoreName} {owner : ObjectId}

private theorem map_elements_shelf (s : Session E) (name : StoreName) (owner : ObjectId)
    (kinds : List (OperationKind E)) :
    (OperationKind.stockAll (s.rules name) ((s.store name).shelf owner) kinds).map
        Shelf.elements =
      OperationKind.carryOutAll (s.rules name) ((s.store name).contents owner) kinds :=
  OperationKind.map_elements_stockAll (s.rules name) ((s.store name).shelf owner) kinds

/-- A flush passes if and only if all that waits can be carried out. -/
theorem Dedicated.flush_passes_iff (h : s.Dedicated name owner) :
    (∃ n after, Session.flush none s = .ok n after ∧ after.pending = []) ↔
      (OperationKind.carryOutAll (s.rules name) ((s.store name).contents owner)
        (s.pending.map Operation.kind)).isSome = true := by
  rw [← s.map_elements_shelf]
  cases hstock : OperationKind.stockAll (s.rules name) ((s.store name).shelf owner)
      (s.pending.map Operation.kind) with
  | none =>
    obtain ⟨e, after, hflush, -⟩ := h.flush_blocked none hstock
    refine iff_of_false ?_ (by simp)
    rintro ⟨n, other, hpasses, -⟩
    rw [hflush] at hpasses
    cases hpasses
  | some shelf =>
    obtain ⟨after, hflush, hnil, -⟩ := h.flush none hstock
    exact iff_of_true ⟨_, after, hflush, hnil⟩ rfl

/-- What is due to a store is what the waiting operations make of its container. -/
theorem Dedicated.due_eq (h : s.Dedicated name owner) :
    s.due name owner =
      OperationKind.carryOutAll (s.rules name) ((s.store name).contents owner)
        (s.pending.map Operation.kind) := by
  rw [← s.map_elements_shelf, due]
  cases hstock : OperationKind.stockAll (s.rules name) ((s.store name).shelf owner)
      (s.pending.map Operation.kind) with
  | none =>
    obtain ⟨e, after, hflush, -⟩ := h.flush_blocked none hstock
    rw [hflush]
    rfl
  | some shelf =>
    obtain ⟨after, hflush, -, hshelf⟩ := h.flush none hstock
    rw [hflush, ← hshelf]
    rfl

/-- The heads that a flush takes are those that the waiting operations take one after the other. -/
theorem Dedicated.headsTaken_eq (h : s.Dedicated name owner) :
    headsTaken none s.pending s =
      OperationKind.headsTaken (s.rules name) ((s.store name).contents owner)
        (s.pending.map Operation.kind) := by
  induction hpending : s.pending generalizing s with
  | nil => rfl
  | cons operation rest ih =>
    have hmem : operation ∈ s.pending := by
      rw [hpending]
      exact List.mem_cons_self
    obtain ⟨howner, hstore⟩ := h.waiting operation hmem
    have htarget : operation.store.or none = some name := by rw [hstore]; rfl
    have hcarry : OperationKind.carryOut (s.rules name) ((s.store name).contents owner)
        operation.kind = (OperationKind.stock (s.rules name) ((s.store name).shelf owner)
          operation.kind).map Shelf.elements :=
      (OperationKind.map_elements_stock (s.rules name) ((s.store name).shelf owner)
        operation.kind).symm
    rw [List.map_cons, OperationKind.headsTaken, headsTaken, htarget, hcarry]
    rcases h.replay_cases none hpending with
      ⟨after, hreplay, hafter⟩ | ⟨e, after, hreplay, -, hnone⟩
    · rw [hreplay, hafter.stock, howner]
      have hrest := ih hafter.dedicated rfl
      have hrules : Session.rules { after with pending := rest } name = s.rules name :=
        hafter.rules
      rw [hrules] at hrest
      exact congrArg (operation.kind.headTaken ((s.store name).contents owner) ++ ·) hrest
    · rw [hreplay, hnone]
      rfl

end Session

end TrackedFields
