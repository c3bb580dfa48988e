import TrackedFields.Proofs.Keeps

/-!
# Where reconciling begins to change a container

A container is reconciled with a list in two passes, and both skip what stands on either side. So
the passes come to a first removal or, if nothing is to be removed, to a first addition. A null
element that is refused there is refused before anything changed; refused any later, it comes after
changes that stand.
-/

namespace TrackedFields

variable {C E : Type} {scene after : Scene (Tracked C) E} {field : String}

/-- What is so once a change was made, provided that the change does not refuse a null element. -/
def Tracked.Brings {α : Type} (P : Scene (Tracked C) E → Prop) (scene : Scene (Tracked C) E)
    (change : TrackedAction (Tracked C) E α) : Prop :=
  match change scene with
  | .ok _ after => P after
  | .error failure _ => ∀ field, failure ≠ .nullElement field

/-- A change that goes well. -/
theorem Tracked.Brings.of_ok {α : Type} {P : Scene (Tracked C) E → Prop}
    {change : TrackedAction (Tracked C) E α} {a : α} (h : change scene = .ok a after)
    (hafter : P after) : Brings P scene change := by
  unfold Brings
  rwa [h]

/-- What the first change brings, and all later ones keep, is so where a null element is refused. -/
theorem Tracked.Brings.of_refused {α : Type} {P : Scene (Tracked C) E → Prop}
    {change : TrackedAction (Tracked C) E α} {next : α → TrackedAction (Tracked C) E Unit}
    (hbrings : Brings P scene change) (hnext : ∀ a, Keeps P (next a))
    (h : (change >>= next) scene = .error (.nullElement field) after) : P after := by
  unfold Brings at hbrings
  rw [bind_apply] at h
  cases hchange : change scene with
  | error failure mid =>
    rw [hchange] at hbrings h
    cases h
    exact absurd rfl (hbrings field)
  | ok a mid =>
    rw [hchange] at hbrings h
    rw [← stateAfter_of_error h]
    exact hnext a mid hbrings

/-- An answer that is ignored does not matter. -/
theorem Tracked.Brings.discard {α : Type} {P : Scene (Tracked C) E → Prop}
    {change : TrackedAction (Tracked C) E α} (h : Brings P scene change) :
    Brings P scene (Functor.discard change) := by
  unfold Brings at h ⊢
  rw [discard_apply]
  cases hchange : change scene with
  | error failure mid => rwa [hchange] at h
  | ok a mid => rwa [hchange] at h

namespace Container

open Tracked (Brings)

section Passes

variable {skips : E → Bool} {act : E → TrackedAction (Tracked C) E Unit}
  {pass : List E → TrackedAction (Tracked C) E Unit} {es : List E}

/-- A pass that skips all elements does nothing. -/
theorem IsPass.eq_pure (h : IsPass skips act pass)
    (hall : es.find? (fun e => !skips e) = none) : pass es = pure () := by
  induction es with
  | nil => exact h.nil
  | cons a es ih =>
    rw [List.find?_cons] at hall
    rw [h.cons]
    cases ha : skips a with
    | false =>
      rw [ha] at hall
      cases hall
    | true =>
      rw [ha] at hall
      exact (if_pos rfl).trans (ih hall)

/-- A pass begins with the first element that it does not skip. -/
theorem IsPass.begins (h : IsPass skips act pass) {e : E}
    (hfirst : es.find? (fun e => !skips e) = some e) :
    ∃ rest, rest ⊆ es ∧ pass es = act e >>= fun _ => pass rest := by
  induction es with
  | nil => cases hfirst
  | cons a es ih =>
    rw [List.find?_cons] at hfirst
    rw [h.cons]
    cases ha : skips a with
    | false =>
      rw [ha] at hfirst
      cases hfirst
      exact ⟨es, List.subset_cons_self _ es, if_neg Bool.false_ne_true⟩
    | true =>
      rw [ha] at hfirst
      obtain ⟨rest, hsub, hsteps⟩ := ih hfirst
      exact ⟨rest, List.subset_cons_of_subset a hsub, (if_pos rfl).trans hsteps⟩

end Passes

variable [DecidableEq E] [Element E]

/-- A list that takes nothing away from some members, and of which the first element that they lack
is null. -/
def NullFirst (members target : List E) : Prop :=
  (∀ e ∈ members, target.any (Element.same e) = true) ∧
    (target.find? fun e => !members.any (Element.same · e)).any Element.isNull = true

variable [Container C E]

section Refusals

variable {members target : List E}

/-- A null element that comes first is refused before anything changed. -/
theorem unchanged_of_nullFirst (hfirst : NullFirst members target)
    (hrefuse : ∀ e, Element.isNull e = true →
      ∃ failure, (add e : TrackedAction (Tracked C) E Bool) scene = .error failure scene)
    (h : (removeMissing target members >>= fun _ => addMissing members target) scene =
      .error (.nullElement field) after) : after = scene := by
  obtain ⟨hstays, hnull⟩ := hfirst
  cases hfind : target.find? fun e => !members.any (Element.same · e) with
  | none =>
    rw [hfind] at hnull
    cases hnull
  | some e =>
    rw [hfind] at hnull
    obtain ⟨failure, hadd⟩ := hrefuse e hnull
    have hnone : members.find? (fun e => !target.any (Element.same e)) = none :=
      List.find?_eq_none.mpr (by simpa using hstays)
    obtain ⟨rest, -, hsteps⟩ := (isPass_addMissing (C := C) members).begins hfind
    rw [(isPass_removeMissing target).eq_pure hnone, pure_bind, hsteps, bind_apply, discard_apply,
      hadd] at h
    cases h
    rfl

/-- If a null element is refused that did not come first, then what the first change brings, and all
later ones keep, is so. -/
theorem changed_of_not_nullFirst {P : Scene (Tracked C) E → Prop}
    (hremove : ∀ e ∈ members, Keeps P (remove e false)) (hadd : ∀ e ∈ target, Keeps P (add e))
    (hremoved : ∀ e ∈ members, target.any (Element.same e) = false →
      Brings P scene (remove e false))
    (hadded : ∀ e ∈ target, members.any (Element.same · e) = false → Element.isNull e = false →
      Brings P scene (add e))
    (hfirst : ¬ NullFirst members target)
    (h : (removeMissing target members >>= fun _ => addMissing members target) scene =
      .error (.nullElement field) after) : P after := by
  cases hunlisted : members.find? fun e => !target.any (Element.same e) with
  | some e =>
    obtain ⟨rest, hsub, hsteps⟩ := (isPass_removeMissing (C := C) target).begins hunlisted
    have hgone : target.any (Element.same e) = false := by simpa using List.find?_some hunlisted
    rw [hsteps, bind_assoc] at h
    have hbrings := hremoved e (List.mem_of_find?_eq_some hunlisted) hgone
    refine hbrings.discard.of_refused (fun _ => ?_) h
    exact (keeps_removeMissing target fun a ha => hremove a (hsub ha)).bind fun _ =>
      keeps_addMissing members hadd
  | none =>
    have hstays : ∀ e ∈ members, target.any (Element.same e) = true := by
      simpa using List.find?_eq_none.mp hunlisted
    rw [(isPass_removeMissing target).eq_pure hunlisted, pure_bind] at h
    cases hnew : target.find? fun e => !members.any (Element.same · e) with
    | none =>
      rw [(isPass_addMissing members).eq_pure hnew] at h
      cases h
    | some e =>
      obtain ⟨rest, hsub, hsteps⟩ := (isPass_addMissing (C := C) members).begins hnew
      have hlacked : members.any (Element.same · e) = false := by simpa using List.find?_some hnew
      have hnull : Element.isNull e = false := by
        cases he : Element.isNull e with
        | false => rfl
        | true => exact absurd ⟨hstays, by rw [hnew]; exact he⟩ hfirst
      rw [hsteps] at h
      have hbrings := hadded e (List.mem_of_find?_eq_some hnew) hlacked hnull
      exact hbrings.discard.of_refused
        (fun _ => keeps_addMissing members fun a ha => hadd a (hsub ha)) h

end Refusals

end Container

end TrackedFields
