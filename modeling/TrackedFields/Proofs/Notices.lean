import TrackedFields.Proofs.TrackedQueue.Notices
import TrackedFields.TrackedList.Basic
import TrackedFields.TrackedSet

/-!
# One notice per change

A change of a list, a set or a priority queue ends with telling the owner, once, after everything
else that the change takes. A call that changes nothing leaves everything alone. For lists and sets,
the answer of a call says which of the two happened.
-/

namespace TrackedFields

variable {C E α β : Type}

/-- Where a plan leads to a change, and only there, its answer tells of one. -/
def Honest (told : α → Prop) : Except Failure (Change C E α) → Prop
  | .error _ => True
  | .ok (.nothing answer) => ¬ told answer
  | .ok (.made answer _ _) => told answer

/-- A check does not make a plan less honest. -/
theorem Honest.bind {told : α → Prop} {first : Except Failure β}
    {next : β → Except Failure (Change C E α)} (h : ∀ b, Honest told (next b)) :
    Honest told (first >>= next) := by
  cases first with
  | error failure => trivial
  | ok b => exact h b

/-- A choice between honest plans. -/
theorem Honest.ite {told : α → Prop} {c : Prop} [Decidable c]
    {first second : Except Failure (Change C E α)} (h : Honest told first)
    (h' : Honest told second) : Honest told (if c then first else second) := by
  split
  · exact h
  · exact h'

namespace Tracked

variable [DecidableEq E]

/-- An action tells the owner of a change, last of all, where the content before and the answer say
so, and otherwise leaves everything as it is. -/
def NotifiesWhere (told : C → α → Prop) (action : TrackedAction (Tracked C) E α) : Prop :=
  ∀ (o : Owner) (scene : Scene (Tracked C) E), scene.value.tracker.owner = some o →
    scene.session.isAlive o.id = true →
    match action scene with
    | .ok answer after =>
      told scene.value.content answer ∧ scene.session.Concluded o after.session ∨
        ¬ told scene.value.content answer ∧ after = scene
    | .error _ after => after = scene

/-- Carrying out honest plans tells the owner of exactly the changes that the answers tell of. -/
theorem notifiesWhere_mutate {told : C → α → Prop}
    {plan : Tracker → C → Except Failure (Change C E α)}
    (h : ∀ tracker content, Honest (told content) (plan tracker content)) :
    NotifiesWhere told (mutate plan) := by
  intro o scene howner halive
  have honest := h scene.value.tracker scene.value.content
  unfold mutate
  dsimp only
  cases hplan : plan scene.value.tracker scene.value.content with
  | error failure => rfl
  | ok change =>
    rw [hplan] at honest
    cases change with
    | nothing answer => exact .inr ⟨honest, rfl⟩
    | made answer content report =>
      have hunmarked := Tracker.unmarked_announce scene.value.tracker report scene.session
      have hchanged (s : Session E) : scene.value.tracker.changed s = o.changed s := by
        rw [Tracker.changed, howner]
      refine .inl ⟨honest, ?_⟩
      rw [hchanged]
      exact hunmarked.concluded halive

end Tracked

open Tracked (NotifiesWhere notifiesWhere_mutate)

variable [DecidableEq E]

/-! ### Lists -/

namespace TrackedList

/-- A rearrangement moves nothing exactly if it leaves the list as it is. -/
theorem isEmpty_moves_iff {es order : List E} (hlength : es.length = order.length) :
    (moves es order).isEmpty = true ↔ es = order := by
  unfold moves
  rw [List.isEmpty_iff, List.filterMap_eq_nil_iff]
  constructor
  · intro h
    refine List.ext_getElem hlength fun i hi hi' => ?_
    have hmem : ((es[i], order[i]), i) ∈ (es.zip order).zipIdx := by
      rw [List.mk_mem_zipIdx_iff_getElem?, List.getElem?_zip_eq_some]
      exact ⟨List.getElem?_eq_getElem hi, List.getElem?_eq_getElem hi'⟩
    simpa using h _ hmem
  · rintro rfl ⟨⟨old, new⟩, i⟩ hmem
    rw [List.mk_mem_zipIdx_iff_getElem?, List.getElem?_zip_eq_some] at hmem
    have hsame : old = new := Option.some.inj (hmem.1.symm.trans hmem.2)
    exact if_pos hsame

/-- Removing the first occurrence of an element. -/
theorem notifiesWhere_removeWith (e : E) (cascade : Bool) :
    NotifiesWhere (fun _ answer => answer = true) (removeWith e cascade) :=
  notifiesWhere_mutate fun _ _ => .ite rfl Bool.false_ne_true

/-- Removing the element at a position. -/
theorem notifiesWhere_removeAtWith (index : Nat) (cascade : Bool) :
    NotifiesWhere (fun _ _ => True) (removeAtWith (E := E) index cascade) := by
  refine notifiesWhere_mutate fun _ es => ?_
  dsimp only
  split <;> trivial

/-- Removing the elements that satisfy a condition. -/
theorem notifiesWhere_removeWhere (doomed : E → Bool) :
    NotifiesWhere (fun _ answer => answer = true) (removeWhere doomed) :=
  notifiesWhere_mutate fun _ _ => .ite Bool.false_ne_true rfl

/-- A sort that keeps every element in its position is no change. -/
theorem notifiesWhere_sortBy (cmp : Comparator E) :
    NotifiesWhere (fun es _ => ∃ i : Nat, es[i]? ≠ (cmp.sort es)[i]?) (sortBy cmp) := by
  unfold sortBy
  refine notifiesWhere_mutate fun _ es => ?_
  have hmoved : (∃ i : Nat, es[i]? ≠ (cmp.sort es)[i]?) ↔
      ¬ (moves es (cmp.sort es)).isEmpty = true := by
    rw [isEmpty_moves_iff (cmp.length_sort es).symm, ← not_forall, not_iff_not]
    exact ⟨List.ext_getElem?, fun h i => congrArg (fun order : List E => order[i]?) h⟩
  dsimp only
  split
  · next hempty => exact fun h => hmoved.mp h hempty
  · next hmade => exact hmoved.mpr hmade

variable [Element E]

/-- Replacing the element at a position. -/
theorem notifiesWhere_setWith (index : Nat) (e : E) (cascade : Bool) :
    NotifiesWhere (fun _ _ => True) (setWith index e cascade) := by
  refine notifiesWhere_mutate fun _ es => ?_
  dsimp only
  split
  · trivial
  · exact .bind fun _ => trivial

/-- The calls that change a list, each with the answers that tell of a change. -/
inductive Changes : {α : Type} → (List E → α → Prop) → Action E α → Prop where
  | add (e : E) : Changes (fun _ answer => answer = true) (add e)
  | addAll (new : List E) : Changes (fun _ answer => answer = true) (addAll new)
  | insert (index : Nat) (e : E) : Changes (fun _ _ => True) (insert index e)
  | insertAll (index : Nat) (new : List E) :
      Changes (fun _ answer => answer = true) (insertAll index new)
  | remove (e : E) : Changes (fun _ answer => answer = true) (remove e)
  | removeWith (e : E) (cascade : Bool) :
      Changes (fun _ answer => answer = true) (removeWith e cascade)
  | removeAt (index : Nat) : Changes (fun _ _ => True) (removeAt index)
  | set (index : Nat) (e : E) : Changes (fun _ _ => True) (set index e)
  | setWith (index : Nat) (e : E) (cascade : Bool) :
      Changes (fun _ _ => True) (setWith index e cascade)
  | removeAll (es : List E) : Changes (fun _ answer => answer = true) (removeAll es)
  | retainAll (keep : List E) : Changes (fun _ answer => answer = true) (retainAll keep)
  | clear : Changes (fun _ _ => True) clear
  | sortBy (cmp : Comparator E) :
      Changes (fun es _ => ∃ i : Nat, es[i]? ≠ (cmp.sort es)[i]?) (sortBy cmp)

/-- A list tells its owner of a change exactly where the answer tells of one. -/
theorem Changes.notifies {told : List E → α → Prop} {action : Action E α}
    (h : Changes told action) : NotifiesWhere told action := by
  cases h with
  | add e => exact notifiesWhere_mutate fun _ _ => .bind fun _ => rfl
  | addAll new =>
    exact notifiesWhere_mutate fun _ _ => .bind fun _ => .ite Bool.false_ne_true rfl
  | insert index e =>
    refine notifiesWhere_mutate fun _ es => ?_
    split
    · trivial
    · exact .bind fun _ => trivial
  | insertAll index new =>
    refine notifiesWhere_mutate fun _ es => ?_
    by_cases hindex : es.length < index
    · simp only [if_pos hindex]
      trivial
    · simp only [if_neg hindex]
      exact .bind fun _ => .ite Bool.false_ne_true rfl
  | remove e => exact notifiesWhere_removeWith e true
  | removeWith e cascade => exact notifiesWhere_removeWith e cascade
  | removeAt index => exact notifiesWhere_removeAtWith index true
  | set index e => exact notifiesWhere_setWith index e true
  | setWith index e cascade => exact notifiesWhere_setWith index e cascade
  | removeAll es => exact notifiesWhere_removeWhere es.contains
  | retainAll keep => exact notifiesWhere_removeWhere fun e => !keep.contains e
  | clear => exact notifiesWhere_mutate fun _ _ => trivial
  | sortBy cmp => exact notifiesWhere_sortBy cmp

end TrackedList

/-! ### Sets -/

namespace TrackedSet

variable [Element E]

/-- Adding several elements. -/
theorem notifiesWhere_addAll (es : List E) :
    NotifiesWhere (fun _ answer => answer = true) (addAll es) :=
  notifiesWhere_mutate fun _ _ => .bind fun _ => .ite Bool.false_ne_true rfl

omit [Element E] in
/-- Removing those listed elements that the set holds. -/
theorem notifiesWhere_removeListed (es : List E) (cascade : Bool) :
    NotifiesWhere (fun _ answer => answer = true) (removeListed es cascade) :=
  notifiesWhere_mutate fun _ _ => .ite Bool.false_ne_true rfl

/-- The calls that change a set, each with the answers that tell of a change. -/
inductive Changes : {α : Type} → (ElementSet E → α → Prop) → Action E α → Prop where
  | add (e : E) : Changes (fun _ answer => answer = true) (add e)
  | addAll (es : List E) : Changes (fun _ answer => answer = true) (addAll es)
  | remove (e : E) : Changes (fun _ answer => answer = true) (remove e)
  | removeWith (e : E) (cascade : Bool) :
      Changes (fun _ answer => answer = true) (removeWith e cascade)
  | removeAll (es : List E) : Changes (fun _ answer => answer = true) (removeAll es)
  | retainAll (keep : List E) : Changes (fun _ answer => answer = true) (retainAll keep)
  | clear : Changes (fun _ _ => True) clear

/-- A set tells its owner of a change exactly where the answer tells of one. -/
theorem Changes.notifies {told : ElementSet E → α → Prop} {action : Action E α}
    (h : Changes told action) : NotifiesWhere told action := by
  cases h with
  | add e => exact notifiesWhere_addAll [e]
  | addAll es => exact notifiesWhere_addAll es
  | remove e => exact notifiesWhere_removeListed [e] true
  | removeWith e cascade => exact notifiesWhere_removeListed [e] cascade
  | removeAll es => exact notifiesWhere_removeListed es true
  | retainAll keep => exact notifiesWhere_mutate fun _ _ => .ite Bool.false_ne_true rfl
  | clear => exact notifiesWhere_mutate fun _ _ => trivial

end TrackedSet

/-! ### Queues -/

namespace TrackedQueue

variable [Element E]

/-- The calls that change a queue, each with the answers that it may give where it changes
nothing. -/
inductive Changes : {α : Type} → (α → Prop) → Action E α → Prop where
  | add (e : E) : Changes (fun _ => False) (add e)
  | addAll (new : List E) : Changes (fun answer => answer = false) (addAll new)
  | poll : Changes (fun _ => False) poll
  | remove (e : E) : Changes (fun _ => False) (remove e)
  | removeWith (e : E) (cascade : Bool) : Changes (fun _ => False) (removeWith e cascade)
  | removeAll (es : List E) : Changes (fun answer => answer = false) (removeAll es)
  | retainAll (keep : List E) : Changes (fun answer => answer = false) (retainAll keep)
  | clear : Changes (fun _ => False) clear

/-- A call that changes a queue tells its owner and does nothing more, or was idle. -/
theorem Changes.leads {quiet : α → Prop} {action : Action E α} (h : Changes quiet action)
    (start : Scene (TrackedQueue E) E) :
    Leads start (Idle start) action fun answer after =>
      Notified start after ∨ quiet answer ∧ Idle start after := by
  cases h with
  | add e => exact (leads_add e).mono fun _ _ h => .inl h
  | addAll new => exact leads_addAll new
  | poll => exact leads_poll.mono fun _ _ h => .inl h
  | remove e => exact (leads_removeWith e true).mono fun _ _ h => .inl h
  | removeWith e cascade => exact (leads_removeWith e cascade).mono fun _ _ h => .inl h
  | removeAll es => exact leads_removeAll es
  | retainAll keep => exact leads_retainAll keep
  | clear => exact leads_clear.mono fun _ _ h => .inl h

omit [DecidableEq E] [Element E] in
/-- A queue whose owner is in memory and was told has concluded the change. -/
theorem Notified.concluded {o : Owner} {start after : Scene (TrackedQueue E) E}
    (h : Notified start after) (howner : start.value.tracker.owner = some o)
    (halive : start.session.isAlive o.id = true) : start.session.Concluded o after.session := by
  obtain ⟨mid, hunmarked, hafter⟩ := h.session
  rw [hafter, Tracker.changed, howner]
  exact hunmarked.concluded halive

end TrackedQueue

/-- No silent change, and one notice per call. Let the owner of a list, a set or a queue be in
memory, whatever state the container, its session and the stores are in, however changes reach the
datastore, and whichever store calls are rejected. A call that changes the container either asks the
session for whatever the change takes and then, last of all, for one mark of the owning field and,
outside a transaction, one update; or it changes nothing and asks for nothing. Of a list or a set,
the first happens exactly if the answer is that there was a change: if a call answers whether there
was one, if it answers yes; for a sort, if the element in some position is another one than before;
for any other call, if it does not fail. A queue that fails, or that answers a bulk call with no,
may have done the second; by then, it may also have read its store and loaded what it keeps in
memory, which it lists the same as before. -/
theorem one_notice_per_change [Element E] :
    (∀ (α : Type) (told : List E → α → Prop) (action : TrackedList.Action E α),
      TrackedList.Changes told action → NotifiesWhere told action) ∧
    (∀ (α : Type) (told : ElementSet E → α → Prop) (action : TrackedSet.Action E α),
      TrackedSet.Changes told action → NotifiesWhere told action) ∧
    ∀ (α : Type) (quiet : α → Prop) (action : TrackedQueue.Action E α),
      TrackedQueue.Changes quiet action →
      ∀ (o : Owner) (scene : Scene (TrackedQueue E) E), scene.value.tracker.owner = some o →
        scene.session.isAlive o.id = true →
        match action scene with
        | .ok answer after => scene.session.Concluded o after.session ∨
            quiet answer ∧ TrackedQueue.Idle scene after ∧
              TrackedQueue.listed after = TrackedQueue.listed scene
        | .error _ after => TrackedQueue.Idle scene after ∧
            TrackedQueue.listed after = TrackedQueue.listed scene := by
  refine ⟨fun _ _ _ h => h.notifies, fun _ _ _ h => h.notifies, ?_⟩
  intro α quiet action h o scene howner halive
  have hleads := h.leads scene scene (.refl scene)
  cases haction : action scene with
  | error failure after =>
    rw [haction] at hleads
    exact ⟨hleads, hleads.listed_eq⟩
  | ok answer after =>
    rw [haction] at hleads
    rcases hleads with htold | ⟨hquiet, hidle⟩
    · exact .inl (htold.concluded howner halive)
    · exact .inr ⟨hquiet, hidle, hidle.listed_eq⟩

/-- A sorted list is sorted again, and loses an element. A queue adds an element that its store
rejects, and answers no, but tells its owner nevertheless. -/
theorem one_notice_per_change_of_outage :
    let o : Owner := { id := .ofNat 7, descriptor := { name := "scores", ordinal := ⟨2⟩ } }
    let cmp : Comparator Int32 := fun a b => compare a.toInt b.toInt
    let s : Session Int32 := {
      entities := Table.empty.set o.id { typeName := "Game" }
      stores := Table.empty.set "scores" { writes := .always } }
    let l : Scene (TrackedList Int32) Int32 := ⟨⟨.unbacked o {}, [1, 2]⟩, s⟩
    let q : Scene (TrackedQueue Int32) Int32 := {
      value := {
        tracker := { owner := some o, dispatch := .immediate "scores", allowNulls := false }
        content := { order := cmp, useCache := true, lazily := true, loaded := true } }
      session := s }
    let removed := stateAfter (TrackedList.remove 1) l
    let added := stateAfter (TrackedQueue.add 3) q
    stateAfter (TrackedList.sortBy cmp) l = l ∧
      TrackedList.remove 1 l = .ok true removed ∧ l.session.Concluded o removed.session ∧
      TrackedQueue.add 3 q = .ok false added ∧ q.session.Concluded o added.session := by
  intro o cmp s l q removed added
  obtain ⟨hlist, -, hqueue⟩ := one_notice_per_change (E := Int32)
  have hremoved : TrackedList.remove 1 l = .ok true removed := rfl
  have hadded : TrackedQueue.add 3 q = .ok false added := rfl
  refine ⟨?_, hremoved, ?_, hadded, ?_⟩
  · have hnotice := hlist _ _ _ (.sortBy cmp) o l rfl rfl
    have hstays : cmp.sort l.value.content = l.value.content :=
      Comparator.sort_of_sorted (by unfold Comparator.Sorted; decide)
    unfold stateAfter
    cases hsorted : TrackedList.sortBy cmp l with
    | error failure after =>
      rw [hsorted] at hnotice
      exact hnotice
    | ok answer after =>
      rw [hsorted, hstays] at hnotice
      exact (hnotice.resolve_left fun ⟨⟨i, hmoved⟩, _⟩ => hmoved rfl).2
  · have hnotice := hlist _ _ _ (.remove 1) o l rfl rfl
    rw [hremoved] at hnotice
    exact (hnotice.resolve_right fun h => h.1 rfl).2
  · have hnotice := hqueue _ _ _ (.add 3) o q rfl rfl
    rw [hadded] at hnotice
    exact hnotice.resolve_right fun h => h.1

end TrackedFields
