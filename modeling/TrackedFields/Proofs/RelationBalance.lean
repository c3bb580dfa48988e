import TrackedFields.Proofs.TrackedList.Balance
import TrackedFields.Proofs.TrackedSet.Mirrors

/-!
# The balance of relations

The owner of a list or a set is told of every element that joins the relation behind its field and
of every one that leaves it. Over any run of changes, refused ones included, what joined less what
left is what the container grew by: of every kind of member, and, as long as no list is attached, of
every single element.
-/

namespace TrackedFields

open Tracked (Accounts GrowsAsTold Managed)

variable {E : Type} [DecidableEq E]

namespace TrackedSet

variable {p : E → Bool} {o : Owner} {start : Scene (TrackedSet E) E}

omit [DecidableEq E] in
private theorem perm_append {first second whole : ElementSet E}
    (hdisjoint : ∀ e ∈ first, e ∉ second) (hmem : ∀ e, e ∈ whole ↔ e ∈ first ∨ e ∈ second) :
    (first.toList ++ second.toList).Perm whole.toList := by
  have hnodup : (first.toList ++ second.toList).Nodup := by
    refine List.nodup_append.mpr ⟨first.nodup, second.nodup, ?_⟩
    rintro a ha b hb rfl
    exact hdisjoint a ha hb
  refine (List.perm_ext_iff_of_nodup hnodup whole.nodup).mpr fun e => ?_
  rw [List.mem_append]
  exact (hmem e).symm

private theorem perm_of_removed {members next removed : ElementSet E}
    (hremoved : ∀ e ∈ removed, e ∈ members) (hnext : ∀ e, e ∈ next ↔ e ∈ members ∧ e ∉ removed) :
    (removed.toList ++ next.toList).Perm members.toList := by
  refine perm_append (fun e he hkept => ((hnext e).mp hkept).2 he) fun e => ?_
  rw [hnext e]
  by_cases he : e ∈ removed
  · exact iff_of_true (hremoved e he) (.inl he)
  · exact ⟨fun hmem => .inr ⟨hmem, he⟩, fun h => (h.resolve_left he).1⟩

/-- Removing listed elements tells which of them left. -/
theorem accounts_removeListed (es : List E) (cascade : Bool) :
    Keeps (Accounts p ElementSet.toList o start) (removeListed es cascade) := by
  apply Tracked.accounts_mutate
  intro tracker members answer next report hplan
  obtain ⟨removed, hremoved, hnext, rfl⟩ := made_of_removeListed hplan
  exact .removed (perm_of_removed (fun e he => ((hremoved e).mp he).2) hnext)

/-- Keeping listed elements tells which ones left. -/
theorem accounts_retainAll (keep : List E) :
    Keeps (Accounts p ElementSet.toList o start) (retainAll keep) := by
  apply Tracked.accounts_mutate
  intro tracker members answer next report hplan
  obtain ⟨removed, hremoved, hnext, rfl⟩ := made_of_retainAll hplan
  exact .removed (perm_of_removed (fun e he => ((hremoved e).mp he).1) hnext)

/-- Removing everything tells all of it. -/
theorem accounts_clear : Keeps (Accounts p ElementSet.toList o start) (clear (E := E)) := by
  apply Tracked.accounts_mutate
  intro tracker members answer next report hplan
  cases hplan
  by_cases hnone : members.toList.isEmpty = true
  · rw [if_pos hnone]
    exact .nil (by rw [List.isEmpty_iff.mp hnone]; rfl)
  · rw [if_neg hnone]
    have hleft : (members.toList ++ []).Perm members.toList := by rw [List.append_nil]
    exact .removed hleft

variable [Element E]

/-- Adding several elements tells which of them joined. -/
theorem accounts_addAll (es : List E) :
    Keeps (Accounts p ElementSet.toList o start) (addAll es) := by
  apply Tracked.accounts_mutate
  intro tracker members answer next report hplan
  obtain ⟨-, new, hnew, hnext, rfl⟩ := made_of_addAll hplan
  exact .added (perm_append (fun e he => ((hnew e).mp he).2) hnext).symm

/-- Every change of a set tells what it does to the set, whatever is counted. -/
theorem Mutator.accounts (m : Mutator E) : Keeps (Accounts p ElementSet.toList o start) m.run := by
  cases m with
  | add e => exact (accounts_addAll [e]).discard
  | addAll es => exact (accounts_addAll es).discard
  | remove e => exact (accounts_removeListed [e] true).discard
  | removeWith e cascade => exact (accounts_removeListed [e] cascade).discard
  | removeAll es => exact (accounts_removeListed es true).discard
  | retainAll keep => exact (accounts_retainAll keep).discard
  | clear => exact accounts_clear
  | attachCopy target =>
    exact (Tracked.accounts_attach target.toList).bind fun _ =>
      Container.keeps_reconcile (fun _ h => h) (fun e => accounts_removeListed [e] false)
        (fun e => accounts_addAll [e]) target.toList

end TrackedSet

variable [Element E]

/-- Relations balance. Let a list or a set be the content of a field whose relations are managed,
and let any run of changes follow any start. Of every kind of member, the additions recorded for the
field since the start exceed the removals by as much as the list or the set grew. Of every single
element they do so too for a set, and for a list to which none is attached. -/
theorem relations_balance (o : Owner) :
    (∀ (start : Scene (TrackedList E) E) (ms : List (TrackedList.Mutator E)), Managed o start →
      let scene := ms.foldl (fun scene m => stateAfter m.run scene) start
      (∀ x, GrowsAsTold (Element.same · x) id o start scene) ∧
        ((∀ m ∈ ms, ∀ target, m ≠ .attachCopy target) →
          ∀ e, GrowsAsTold (· == e) id o start scene)) ∧
    ∀ (start : Scene (TrackedSet E) E) (ms : List (TrackedSet.Mutator E)), Managed o start →
      let scene := ms.foldl (fun scene m => stateAfter m.run scene) start
      (∀ x, GrowsAsTold (Element.same · x) ElementSet.toList o start scene) ∧
        ∀ e, GrowsAsTold (· == e) ElementSet.toList o start scene := by
  refine ⟨fun start ms h => ⟨fun x => ?_, fun hms e => ?_⟩,
    fun start ms h => ⟨fun x => ?_, fun e => ?_⟩⟩
  · exact Tracked.growsAsTold_run ms h fun m _ => m.accounts_same x
  · exact Tracked.growsAsTold_run ms h fun m hm => m.accounts (hms m hm)
  · exact Tracked.growsAsTold_run ms h fun m _ => m.accounts
  · exact Tracked.growsAsTold_run ms h fun m _ => m.accounts

/-- A list of objects in two forms each takes over the other forms of two of its three members. One
removal is told, the member of the second kind that is gone; that the two others have changed their
forms is not told, so that kinds balance and single elements do not. -/
theorem relations_balance_of_forms :
    letI : Element (ObjectId × Bool) := { isNull := fun _ => false, objectId? := fun e => some e.1 }
    let o : Owner := { id := .ofNat 7, descriptor := { name := "books", ordinal := ⟨3⟩ } }
    let start : Scene (TrackedList (ObjectId × Bool)) (ObjectId × Bool) :=
      ⟨⟨.unbacked o {}, [(.ofNat 1, false), (.ofNat 2, false), (.ofNat 2, false)]⟩, {}⟩
    let ms : List (TrackedList.Mutator (ObjectId × Bool)) :=
      [.attachCopy [(.ofNat 2, true), (.ofNat 1, true)]]
    let scene := ms.foldl (fun scene m => stateAfter m.run scene) start
    Managed o start ∧ scene.value.content = [(.ofNat 2, true), (.ofNat 1, true)] ∧
      scene.session.changesOf o = [.removed (.ofNat 2, false)] ∧
      ∀ x, GrowsAsTold (Element.same · x) id o start scene := by
  let : Element (ObjectId × Bool) := { isNull := fun _ => false, objectId? := fun e => some e.1 }
  intro o start ms scene
  have hstart : Managed o start := ⟨rfl, rfl⟩
  exact ⟨hstart, by decide, by decide, ((relations_balance o).1 start ms hstart).1⟩

end TrackedFields
