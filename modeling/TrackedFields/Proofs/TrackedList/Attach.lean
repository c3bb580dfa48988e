import TrackedFields.Proofs.TrackedList.Plans
import TrackedFields.TrackedList.Attach

/-!
# The passes of attaching a list

Attaching a list is made of removals by position, insertions and one rearrangement that keeps the
length. It keeps whatever these keep.
-/

namespace TrackedFields.TrackedList

variable {E : Type} [Element E] [DecidableEq E] {P : Scene (TrackedList E) E → Prop}

/-- Trimming looks at the last position first. -/
theorem trim_succ (target : List E) (n : Nat) (scene : Scene (TrackedList E) E) :
    trim target (n + 1) scene =
      if scene.value.content[n]?.any (fun e =>
          countSame target e < countSame scene.value.content e) then
        (discard (removeAtWith n false) >>= fun _ => trim target n) scene
      else trim target n scene := by
  have hstep : trim target (n + 1) scene =
      (if scene.value.content[n]?.any (fun e =>
          countSame target e < countSame scene.value.content e) = true then
        discard (removeAtWith n false) >>= fun _ => trim target n
      else pure PUnit.unit >>= fun _ => trim target n) scene := rfl
  rw [hstep]
  split <;> rfl

/-- Filling looks at one member of the target after the other. -/
theorem fill_cons (target : List E) (index : Nat) (e : E) (rest : List E)
    (scene : Scene (TrackedList E) E) :
    fill target index (e :: rest) scene =
      if countSame scene.value.content e < countSame target e then
        (insert (min index scene.value.content.length) e >>= fun _ =>
          fill target (index + 1) rest) scene
      else fill target (index + 1) rest scene := by
  by_cases hmissing : countSame scene.value.content e < countSame target e
  · exact (congrFun (if_pos hmissing) scene).trans (if_pos hmissing).symm
  · exact (congrFun (if_neg hmissing) scene).trans (if_neg hmissing).symm

/-- Removing surplus members keeps what every single removal keeps. -/
theorem trim_keeps (hremove : ∀ index, Keeps P (removeAtWith index false)) (target : List E)
    (n : Nat) : Keeps P (trim target n) := by
  induction n with
  | zero => exact Keeps.pure ()
  | succ n ih =>
    refine Keeps.content?.bind fun es => ?_
    dsimp only
    split
    · exact (hremove n).discard.bind fun _ => ih
    · exact ih

/-- Inserting missing members keeps what every single insertion keeps. -/
theorem fill_keeps (hinsert : ∀ index e, Keeps P (insert index e)) (target : List E) (index : Nat)
    (rest : List E) : Keeps P (fill target index rest) := by
  induction rest generalizing index with
  | nil => exact Keeps.pure ()
  | cons e rest ih =>
    refine Keeps.content?.bind fun es => ?_
    dsimp only
    split
    · exact (hinsert _ e).bind fun _ => ih (index + 1)
    · exact ih (index + 1)

/-- Overlaying a list keeps its length. -/
theorem length_overlay (es target : List E) : (overlay es target).length = es.length := by
  induction es generalizing target with
  | nil => cases target <;> rfl
  | cons e es ih =>
    cases target with
    | nil => rfl
    | cons t target => rw [overlay, List.length_cons, List.length_cons, ih]

/-- Attaching keeps what its passes keep. -/
theorem attachCopy_keeps {target : List E} (hattach : Keeps P (Tracked.attach target))
    (hremove : ∀ index, Keeps P (removeAtWith index false))
    (hinsert : ∀ index e, Keeps P (insert index e))
    (hreorder : ∀ arrange : List E → List E, (∀ es, (arrange es).length = es.length) →
      Keeps P (reorder arrange)) :
    Keeps P (attachCopy target) :=
  hattach.bind fun _ => Keeps.content?.bind fun _ => (trim_keeps hremove target _).bind fun _ =>
    (fill_keeps hinsert target 0 target).bind fun _ =>
      hreorder _ fun es => length_overlay es target

end TrackedFields.TrackedList
