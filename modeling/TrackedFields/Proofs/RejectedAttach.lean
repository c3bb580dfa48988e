import TrackedFields.Proofs.TrackedList.RefusedAttach
import TrackedFields.Proofs.TrackedQueue.RefusedAttach
import TrackedFields.Proofs.TrackedSet.RefusedAttach

/-!
# Attachments that are refused

A container that forbids null elements refuses to attach a value with a null element that it does
not hold. The refusal comes only when the null element is to be inserted or added, and whatever was
removed, inserted or added by then stands. So a refused attachment changes nothing only if the null
element is the first thing to be changed: if nothing has to go, and no other element is missing
before it.
-/

namespace TrackedFields

variable {E : Type} [DecidableEq E] [Element E]

/-- When a refused attachment changes nothing. Let a list, a set or a queue forbid null elements, in
any state, and let attaching a value end with a null element being refused. A list and a set show
the same as before, with the same waiting operations, relation changes, dirty marks and stores,
exactly if a null element comes first: if the value takes no member away, and the first element that
is missing from the container is null. A queue is unaltered as well if a null element comes first,
and only then, as long as its owner is in memory. In all other cases, what was removed, inserted or
added before the refusal stands. -/
theorem refused_attach_unaltered_iff :
    (∀ (scene after : Scene (TrackedList E) E) (target : List E) (field : String),
      scene.value.tracker.allowNulls = false →
      TrackedList.attachCopy target scene = .error (.nullElement field) after →
      (Unaltered (fun scene => scene.value.content) scene after ↔
        TrackedList.NullFirst scene.value.content target)) ∧
    (∀ (scene after : Scene (TrackedSet E) E) (target : ElementSet E) (field : String),
      scene.value.tracker.allowNulls = false →
      TrackedSet.attachCopy target scene = .error (.nullElement field) after →
      (Unaltered (fun scene => scene.value.content) scene after ↔
        Container.NullFirst scene.value.content.toList target.toList)) ∧
    ∀ (scene after : Scene (TrackedQueue E) E) (target : List E) (field : String),
      scene.value.tracker.allowNulls = false →
      TrackedQueue.attachCopy target scene = .error (.nullElement field) after →
      (Container.NullFirst (TrackedQueue.listed scene) target →
        Unaltered TrackedQueue.listed scene after) ∧
      ∀ o : Owner, scene.value.tracker.owner = some o → scene.session.isAlive o.id = true →
        Unaltered TrackedQueue.listed scene after →
        Container.NullFirst (TrackedQueue.listed scene) target := by
  refine ⟨fun _ _ _ _ hnulls h => TrackedList.unaltered_iff hnulls h,
    fun _ _ _ _ hnulls h => TrackedSet.unaltered_iff hnulls h, fun _ _ _ _ hnulls h => ⟨?_, ?_⟩⟩
  · exact TrackedQueue.unaltered_of_nullFirst h hnulls
  · exact fun o howner halive => TrackedQueue.nullFirst_of_unaltered h howner halive

/-- A list and a queue are asked to take over what they hold and an absent value behind it. -/
theorem refused_attach_unaltered_of_null_first :
    let o : Owner := { id := .ofNat 7, descriptor := { name := "scores", ordinal := ⟨2⟩ } }
    let s : Session (Option Int32) := {
      entities := Table.empty.set o.id { typeName := "Game" }
      stores := Table.empty.set "scores" (Store.seed {} o.id [some 1]) }
    let l : Scene (TrackedList (Option Int32)) (Option Int32) := ⟨⟨.unbacked o {}, [some 1]⟩, s⟩
    let q : Scene (TrackedQueue (Option Int32)) (Option Int32) := {
      value := {
        tracker := { owner := some o, dispatch := .immediate "scores", allowNulls := false }
        content := {
          order := fun a b => compare (a.getD 0).toInt (b.getD 0).toInt
          useCache := true
          lazily := true
          elements := [some 1]
          loaded := true } }
      session := s }
    let kept := stateAfter (TrackedList.attachCopy [some 1, none]) l
    let loaded := stateAfter (TrackedQueue.attachCopy [some 1, none]) q
    TrackedList.attachCopy [some 1, none] l = .error (.nullElement "scores") kept ∧
      Unaltered (fun scene => scene.value.content) l kept ∧
      TrackedQueue.attachCopy [some 1, none] q = .error (.nullElement "scores") loaded ∧
      Unaltered TrackedQueue.listed q loaded := by
  intro o s l q kept loaded
  obtain ⟨hlist, -, hqueue⟩ := refused_attach_unaltered_iff (E := Option Int32)
  have hkept : TrackedList.attachCopy [some 1, none] l = .error (.nullElement "scores") kept := rfl
  have hloaded : TrackedQueue.attachCopy [some 1, none] q =
      .error (.nullElement "scores") loaded := rfl
  refine ⟨hkept, ?_, hloaded, ?_⟩
  · refine (hlist l kept _ _ rfl hkept).mpr ⟨fun e he => ?_, rfl⟩
    obtain rfl : e = some 1 := List.mem_singleton.mp he
    exact Nat.le_refl 1
  · refine (hqueue q loaded _ _ rfl hloaded).1 ⟨fun e he => ?_, rfl⟩
    obtain rfl : e = some 1 := List.mem_singleton.mp he
    rfl

/-- A list and a set hold one value and are asked to take over an absent one instead, and so is a
queue, with a second value before the absent one. All three refuse, but the value that they held is
gone, and the second one is in the store. -/
theorem refused_attach_alters :
    let o : Owner := { id := .ofNat 7, descriptor := { name := "scores", ordinal := ⟨2⟩ } }
    let s : Session (Option Int32) := {
      entities := Table.empty.set o.id { typeName := "Game" }
      stores := Table.empty.set "scores" (Store.seed {} o.id [some 1]) }
    let l : Scene (TrackedList (Option Int32)) (Option Int32) := ⟨⟨.unbacked o {}, [some 1]⟩, s⟩
    let c : Scene (TrackedSet (Option Int32)) (Option Int32) :=
      ⟨⟨.unbacked o {}, .ofList [some 1]⟩, s⟩
    let q : Scene (TrackedQueue (Option Int32)) (Option Int32) := {
      value := {
        tracker := { owner := some o, dispatch := .immediate "scores", allowNulls := false }
        content := {
          order := fun a b => compare (a.getD 0).toInt (b.getD 0).toInt
          useCache := true
          lazily := true
          elements := [some 1]
          loaded := true } }
      session := s }
    (∃ after, TrackedList.attachCopy [none] l = .error (.nullElement "scores") after ∧
        after.value.content = [] ∧ after.session.marksOf o.id = [o.field]) ∧
      (∃ after, TrackedSet.attachCopy (.ofList [none]) c = .error (.nullElement "scores") after ∧
        after.value.content.toList = [] ∧
        after.session.relationsOf o.id = [(o.field, .removed (some 1))] ∧
        after.session.marksOf o.id = [o.field]) ∧
      ∃ after, TrackedQueue.attachCopy [some 2, none] q =
          .error (.nullElement "scores") after ∧
        (after.session.store "scores").contents o.id = [some 2] := by
  intro o s l c q
  exact ⟨⟨_, rfl, rfl, rfl⟩, ⟨_, rfl, rfl, rfl, rfl⟩, ⟨_, rfl, rfl⟩⟩

end TrackedFields
