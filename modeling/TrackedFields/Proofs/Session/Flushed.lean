import TrackedFields.Proofs.Session.Heads

/-!
# What a flush leaves

A flush carries out what waits as far as it gets, and what it leaves in a container is what the
operations make of it up to the first one that names a position the container does not have. If
only heads are removed by position, that is where the container is empty, and it stays so.
-/

namespace TrackedFields

open Store (Rules)

namespace OperationKind

variable {E : Type}

/-- An operation that names no position, or removes the head. -/
def FromHead (kind : OperationKind E) : Prop := kind.ByValue ∨ kind = .listRemoveAt 0

/-- Operations by value on listed elements. -/
theorem fromHead_map (kind : E → OperationKind E) (h : ∀ e, (kind e).ByValue) (es : List E) :
    ∀ other ∈ es.map kind, other.FromHead := by
  intro other hmem
  obtain ⟨e, -, rfl⟩ := List.mem_map.mp hmem
  exact .inl (h e)

variable [DecidableEq E] {rules : Rules E} {es next : List E} {kinds more : List (OperationKind E)}

/-- What operations make of a container, as far as they can be carried out. -/
def carryOutFar (rules : Rules E) : List E → List (OperationKind E) → List E
  | es, [] => es
  | es, kind :: kinds =>
    match carryOut rules es kind with
    | none => es
    | some next => carryOutFar rules next kinds

/-- Operations that can all be carried out get to the end. -/
theorem carryOutFar_of_some (h : carryOutAll rules es kinds = some next) :
    carryOutFar rules es kinds = next := by
  induction kinds generalizing es with
  | nil => exact Option.some.inj h
  | cons kind kinds ih =>
    rw [carryOutAll_cons] at h
    obtain ⟨mid, hmid, hrest⟩ := Option.bind_eq_some_iff.mp h
    rw [carryOutFar, hmid]
    exact ih hrest

/-- Operations after those that can all be carried out start from what these leave. -/
theorem carryOutFar_append_of_some (h : carryOutAll rules es kinds = some next)
    (more : List (OperationKind E)) :
    carryOutFar rules es (kinds ++ more) = carryOutFar rules next more := by
  induction kinds generalizing es with
  | nil => rw [← Option.some.inj h, List.nil_append]
  | cons kind kinds ih =>
    rw [carryOutAll_cons] at h
    obtain ⟨mid, hmid, hrest⟩ := Option.bind_eq_some_iff.mp h
    rw [List.cons_append, carryOutFar, hmid]
    exact ih hrest

/-- Operations after one that cannot be carried out do not matter. -/
theorem carryOutFar_append_of_none (h : carryOutAll rules es kinds = none)
    (more : List (OperationKind E)) :
    carryOutFar rules es (kinds ++ more) = carryOutFar rules es kinds := by
  induction kinds generalizing es with
  | nil => cases h
  | cons kind kinds ih =>
    rw [carryOutAll_cons] at h
    rw [List.cons_append, carryOutFar, carryOutFar]
    cases hkind : carryOut rules es kind with
    | none => rfl
    | some mid =>
      rw [hkind, Option.bind_some] at h
      exact ih h

/-- Where operations get stuck that remove nothing by position but heads, the container is empty. -/
theorem carryOutFar_of_none (hkinds : ∀ kind ∈ kinds, kind.FromHead)
    (h : carryOutAll rules es kinds = none) : carryOutFar rules es kinds = [] := by
  induction kinds generalizing es with
  | nil => cases h
  | cons kind kinds ih =>
    rw [carryOutAll_cons] at h
    rw [carryOutFar]
    cases hkind : carryOut rules es kind with
    | some mid =>
      rw [hkind, Option.bind_some] at h
      exact ih (fun kind hmem => hkinds kind (List.mem_cons_of_mem _ hmem)) h
    | none =>
      rcases hkinds kind List.mem_cons_self with hvalue | rfl
      · -- An operation by value never gets stuck.
        have hvalues : ∀ other ∈ [kind], other.ByValue := by
          rintro other hother
          rwa [List.mem_singleton.mp hother]
        obtain ⟨mid, hmid⟩ : ∃ mid, carryOutAll rules es [kind] = some mid :=
          exists_carryOutAll_of_byValue hvalues es
        rw [carryOutAll_cons, hkind] at hmid
        cases hmid
      · cases es with
        | nil => rfl
        | cons e es => cases hkind

/-- Operations that leave an empty container empty start from what those before them leave, also
where these get stuck. -/
theorem carryOutFar_append (hkinds : ∀ kind ∈ kinds, kind.FromHead)
    (hmore : carryOutFar rules [] more = []) :
    carryOutFar rules es (kinds ++ more) = carryOutFar rules (carryOutFar rules es kinds) more := by
  cases h : carryOutAll rules es kinds with
  | some next => rw [carryOutFar_append_of_some h, carryOutFar_of_some h]
  | none => rw [carryOutFar_append_of_none h, carryOutFar_of_none hkinds h, hmore]

/-- What operations leave fits where the container did. -/
theorem fits_carryOutFar (hlaws : ∀ cmp, rules.order = some cmp → Std.TransCmp cmp)
    (hfits : rules.Fits es) (hkinds : ∀ kind ∈ kinds, kind.FromHead) :
    rules.Fits (carryOutFar rules es kinds) := by
  cases h : carryOutAll rules es kinds with
  | some next =>
    rw [carryOutFar_of_some h]
    exact fits_carryOutAll hlaws hfits h
  | none =>
    rw [carryOutFar_of_none hkinds h]
    exact hfits.sublist (List.nil_sublist es)

end OperationKind

namespace Session

variable {E : Type} [DecidableEq E]

/-- What a store would hold for an owner after a flush of all that waits. -/
def flushed (s : Session E) (name : StoreName) (owner : ObjectId) : List E :=
  ((stateAfter (flush none) s).store name).contents owner

variable {s after : Session E} {name : StoreName} {owner : ObjectId}

/-- A flush with nothing to replay leaves everything as it is. -/
theorem stateAfter_flush_of_nil (h : s.pending = []) (default : Option StoreName) :
    stateAfter (flush default) s = s := by
  change stateAfter (replayAll default s.pending) s = s
  rw [h]
  rfl

/-- A replay leaves the settings alone. -/
theorem settings_replay (default : Option StoreName) (operation : Operation E) (s : Session E) :
    (stateAfter (replay default operation) s).settings = s.settings := by
  unfold stateAfter replay
  cases operation.store.or default with
  | none => rfl
  | some target =>
    simp only [EStateM.adaptExcept, access]
    cases operation.kind.perform operation.owner (s.store target) <;> rfl

/-- What a flush leaves: the container as the operations make it as far as they can be carried out,
and those that wait still. -/
structure Flushed (s after : Session E) (name : StoreName) (owner : ObjectId) : Prop where
  dedicated : after.Dedicated name owner
  rules : after.rules name = s.rules name
  settings : after.settings = s.settings
  contents : (after.store name).contents owner = OperationKind.carryOutFar (s.rules name)
    ((s.store name).contents owner) (s.pending.map Operation.kind)
  rest : ∃ done, s.pending = done ++ after.pending
  passes : ∀ es, OperationKind.carryOutAll (s.rules name) ((s.store name).contents owner)
    (s.pending.map Operation.kind) = some es → after.pending = []

/-! ### The first waiting operation -/

section First

variable {mid : Session E} {operation : Operation E} {rest : List (Operation E)} {e : ReplayError}
  {default : Option StoreName}

/-- Once the first waiting operation was carried out, a flush goes on with the others. -/
theorem stateAfter_flush_of_carried (hpending : s.pending = operation :: rest)
    (hreplay : replay default operation s = .ok () mid) :
    stateAfter (flush default) s = stateAfter (flush default) { mid with pending := rest } := by
  change stateAfter (replayAll default s.pending) s =
    stateAfter (replayAll default rest) { mid with pending := rest }
  unfold stateAfter
  rw [hpending, replayAll_cons hreplay, bind_apply]
  cases replayAll default rest { mid with pending := rest } <;> rfl

/-- A flush stops at the first waiting operation if that fails. -/
theorem stateAfter_flush_of_refused (hpending : s.pending = operation :: rest)
    (hreplay : replay default operation s = .error e after) :
    stateAfter (flush default) s = after := by
  apply stateAfter_of_error (e := e)
  change replayAll default s.pending s = _
  rw [hpending, replayAll, bind_apply, hreplay]

/-- Where nothing waits, a flush leaves everything. -/
theorem Dedicated.flushed_nil (h : s.Dedicated name owner) (hpending : s.pending = []) :
    Flushed s s name owner := by
  refine ⟨h, rfl, rfl, ?_, ⟨[], rfl⟩, fun _ _ => hpending⟩
  rw [hpending]
  rfl

/-- What is left of the operations behind the first one, once that was carried out, is left of
all. -/
theorem Advanced.flushed (hmid : Advanced s mid name owner operation rest)
    (hpending : s.pending = operation :: rest) (hsettings : mid.settings = s.settings)
    (hrest : Flushed { mid with pending := rest } after name owner) :
    Flushed s after name owner := by
  have hcarry : OperationKind.carryOut (s.rules name) ((s.store name).contents owner)
      operation.kind = some ((mid.store name).contents owner) := by
    have hstock := OperationKind.map_elements_stock (s.rules name) ((s.store name).shelf owner)
      operation.kind
    rw [hmid.stock] at hstock
    exact hstock.symm
  have hrules : Session.rules { mid with pending := rest } name = s.rules name := hmid.rules
  obtain ⟨done, hdone⟩ := hrest.rest
  refine ⟨hrest.dedicated, hrest.rules.trans hrules, hrest.settings.trans hsettings, ?_,
    ⟨operation :: done, ?_⟩, fun es hes => hrest.passes es ?_⟩
  · rw [hrest.contents, hrules, hpending, List.map_cons, OperationKind.carryOutFar, hcarry]
    rfl
  · rw [hpending, List.cons_append, ← hdone]
  · rw [hpending, List.map_cons, OperationKind.carryOutAll_cons, hcarry] at hes
    rw [hrules]
    exact hes

/-- A first operation that fails leaves all waiting, and no store shows it. -/
theorem Dedicated.flushed_refused (h : s.Dedicated name owner)
    (hpending : s.pending = operation :: rest)
    (hreplay : replay default operation s = .error e after)
    (hkept : after.pending = s.pending) (hsettings : after.settings = s.settings)
    (hnone : OperationKind.stock (s.rules name) ((s.store name).shelf owner) operation.kind =
      none) : Flushed s after name owner := by
  obtain ⟨hcontinues, hviews⟩ : s.Continues after ∧ after.views = s.views := by
    have hin : ∀ target, operation.store.or default = some target →
        (s.views target).InOrder (s.rules target) := by
      intro target htarget
      have hmem : operation ∈ s.pending := by
        rw [hpending]
        exact List.mem_cons_self
      rw [(h.waiting operation hmem).2] at htarget
      rw [← Option.some.inj htarget]
      exact h.inOrder
    rcases Session.replay_cases default operation hin with
      ⟨_, _, _, hok, _⟩ | ⟨_, _, herror, -, hcontinues, hviews, -⟩
    · rw [hreplay] at hok
      cases hok
    · rw [hreplay] at herror
      cases herror
      exact ⟨hcontinues, hviews⟩
  have hcarry : OperationKind.carryOut (s.rules name) ((s.store name).contents owner)
      operation.kind = none := by
    have hstock := OperationKind.map_elements_stock (s.rules name) ((s.store name).shelf owner)
      operation.kind
    rw [hnone] at hstock
    exact hstock.symm
  have hview : (after.store name).view = (s.store name).view := congrFun hviews name
  refine ⟨⟨?_, (hcontinues name).reliable h.reliable, ?_⟩, (hcontinues name).rules, hsettings,
    ?_, ⟨[], hkept.symm⟩, fun es hes => ?_⟩
  · change (after.store name).view.InOrder (after.store name).rules
    rw [hview, (hcontinues name).rules]
    exact h.inOrder
  · rw [hkept]
    exact h.waiting
  · rw [hpending, List.map_cons, OperationKind.carryOutFar, hcarry]
    exact congrFun (congrArg Store.View.contents hview) owner
  · rw [hpending, List.map_cons, OperationKind.carryOutAll_cons, hcarry] at hes
    cases hes

end First

/-- How a flush of a session that serves one owner ends. -/
theorem Dedicated.flushed (h : s.Dedicated name owner) (default : Option StoreName) :
    Flushed s (stateAfter (Session.flush default) s) name owner := by
  induction hpending : s.pending generalizing s with
  | nil =>
    rw [stateAfter_flush_of_nil hpending]
    exact h.flushed_nil hpending
  | cons operation rest ih =>
    have hsettings := s.settings_replay default operation
    rcases h.replay_cases default hpending with
      ⟨mid, hreplay, hmid⟩ | ⟨e, after, hreplay, hkept, hnone⟩
    · rw [stateAfter_of_ok hreplay] at hsettings
      rw [stateAfter_flush_of_carried hpending hreplay]
      exact hmid.flushed hpending hsettings (ih hmid.dedicated rfl)
    · rw [stateAfter_of_error hreplay] at hsettings
      rw [stateAfter_flush_of_refused hpending hreplay]
      exact h.flushed_refused hpending hreplay hkept hsettings hnone

end Session

end TrackedFields
