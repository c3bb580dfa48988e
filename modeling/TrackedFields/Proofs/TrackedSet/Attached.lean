import TrackedFields.Proofs.Tracked.Relates
import TrackedFields.Proofs.TrackedSet.Plans

/-!
# What attaching a set reaches

Attaching compares members by what they denote, while the set itself tells them apart by equality.
So of a kind that occurs on both sides the members of the set stay in their own form, members of a
kind that the other set lacks leave, each of them once, and all members of a kind that the set
lacks join. The order in which either side is listed does not matter for this. Attached to once
more, the set finds nothing to do.
-/

namespace TrackedFields

open RelationChange (added removed)

variable {E : Type} [DecidableEq E] [Element E]

/-- A set has a member that denotes the same as an element. -/
def ElementSet.Denotes (s : ElementSet E) (e : E) : Prop := ∃ a ∈ s, Element.same a e

/-- A listing tells whether the set has a member that denotes the same as an element. -/
theorem ElementSet.any_same_iff (s : ElementSet E) (e : E) :
    s.toList.any (Element.same · e) = true ↔ s.Denotes e := List.any_eq_true

/-- What an element denotes may be compared the other way round. -/
theorem ElementSet.any_same_iff' (s : ElementSet E) (e : E) :
    s.toList.any (Element.same e) = true ↔ s.Denotes e := by
  rw [← s.any_same_iff e, funext (Element.same_comm e)]

/-- A member denotes itself. -/
theorem ElementSet.Denotes.of_mem {s : ElementSet E} {e : E} (h : e ∈ s) : s.Denotes e :=
  ⟨e, h, Element.same_refl e⟩

/-- What denotes the same as an element, denotes the same as all that denote the same. -/
theorem ElementSet.Denotes.congr {s : ElementSet E} {a e : E} (h : s.Denotes a)
    (hsame : Element.same a e = true) : s.Denotes e := by
  obtain ⟨b, hb, hba⟩ := h
  exact ⟨b, hb, (Element.same_congr hsame b).symm.trans hba⟩

/-- What sets denote depends on their members only. -/
theorem ElementSet.denotes_congr {s t : ElementSet E} (h : ∀ e, e ∈ s ↔ e ∈ t) (e : E) :
    s.Denotes e ↔ t.Denotes e := by
  simp only [Denotes, h]

namespace TrackedSet

open Tracked (Managed Relates TookIn attached changedTo)

variable {scene mid after : Scene (TrackedSet E) E} {gone new : List E} {e : E}

/-- Since a start, some members have left a set and others have joined it, each of them once, and
the relation of the field was told exactly that. -/
structure Exchanged (start : Scene (TrackedSet E) E) (gone new : List E)
    (scene : Scene (TrackedSet E) E) : Prop where
  tracker : scene.value.tracker = start.value.tracker
  members : ∀ a, a ∈ scene.value.content ↔ a ∈ start.value.content ∧ a ∉ gone ∨ a ∈ new
  told : ∀ o, Managed o start → Relates o (gone.map removed ++ new.map added) start scene

omit [DecidableEq E] in
/-- Taking in elements exchanges nothing. -/
theorem exchanged_attached (target : List E) (scene : Scene (TrackedSet E) E) :
    Exchanged scene [] [] (attached target scene) :=
  ⟨rfl, fun a => by simp [attached], fun _ h => (Relates.refl h).attached target⟩

omit [Element E] in
/-- Removing a member makes the set lose it, and tells so. -/
theorem Exchanged.removeWith {start : Scene (TrackedSet E) E} (h : Exchanged start gone [] scene)
    (he : e ∈ start.value.content) (hstays : e ∉ gone) :
    ∃ after, TrackedSet.removeWith e false scene = .ok true after ∧
      Exchanged start (gone ++ [e]) [] after := by
  have hmem : e ∈ scene.value.content := (h.members e).mpr (.inl ⟨he, hstays⟩)
  let doomed : ElementSet E := (ElementSet.ofList [e]).filter scene.value.content.contains
  have hdoomed : doomed.toList = [e] := by
    have hcontains : scene.value.content.contains e = true := by simpa using hmem
    exact List.filter_cons_of_pos hcontains
  have hremove : TrackedSet.removeWith e false scene = .ok true
      (changedTo (scene.value.content.filter fun a => !doomed.contains a)
        (.removed [e] false) scene) := by
    unfold TrackedSet.removeWith removeListed
    apply Tracked.mutate_of_made
    change (if doomed.toList.isEmpty then _ else Except.ok (Change.made true
      (scene.value.content.filter fun a => !doomed.contains a)
      (Report.removed doomed.toList false))) = _
    rw [hdoomed]
    rfl
  refine ⟨_, hremove, h.tracker, fun a => ?_, fun o ho => ?_⟩
  · have hkept := mem_removeWith e a false scene
    rw [stateAfter_of_ok hremove, h.members a] at hkept
    rw [hkept, List.mem_append, List.mem_singleton]
    simp only [List.not_mem_nil, or_false]
    tauto
  · have htold := (h.told o ho).changedTo
      (scene.value.content.filter fun a => !doomed.contains a) (.removed [e] false)
    rw [List.map_nil, List.append_nil] at htold ⊢
    rwa [List.map_append]

/-- Adding an element that is not a member makes it one, and tells so. -/
theorem Exchanged.add {start : Scene (TrackedSet E) E} (h : Exchanged start gone new scene)
    (he : e ∉ start.value.content) (hnew : e ∉ new)
    (hcheck : start.value.tracker.check e = .ok ()) :
    ∃ after, TrackedSet.add e scene = .ok true after ∧ Exchanged start gone (new ++ [e]) after := by
  have hmem : e ∉ scene.value.content := fun hmem =>
    ((h.members e).mp hmem).elim (fun hold => he hold.1) hnew
  let joining : ElementSet E :=
    (ElementSet.ofList [e]).filter fun a => !scene.value.content.contains a
  have hjoining : joining.toList = [e] := by
    have hcontains : (!scene.value.content.contains e) = true := by
      rw [Bool.not_eq_true', ← Bool.not_eq_true, ElementSet.contains_iff]
      exact hmem
    exact List.filter_cons_of_pos (p := fun a => !scene.value.content.contains a) hcontains
  have hadd : TrackedSet.add e scene = .ok true
      (changedTo (scene.value.content.insert e) (.added [e]) scene) := by
    unfold TrackedSet.add addAll
    apply Tracked.mutate_of_made
    rw [← Tracker.check_eq_checkAll, h.tracker, hcheck]
    change (if joining.toList.isEmpty then _ else Except.ok (Change.made true
      (joining.toList.foldl ElementSet.insert scene.value.content)
      (Report.added joining.toList))) = _
    rw [hjoining]
    rfl
  refine ⟨_, hadd, h.tracker, fun a => ?_, fun o ho => ?_⟩
  · rw [mem_of_add hadd a, h.members a, List.mem_append, List.mem_singleton]
    tauto
  · have htold := (h.told o ho).changedTo (scene.value.content.insert e) (.added [e])
    rwa [List.append_assoc, Report.added, ← List.map_append] at htold

omit [DecidableEq E] [Element E] in
private theorem next_of_prefix {done es : List E} (hnodup : es.Nodup) (h : done ++ [e] <+: es) :
    e ∈ es ∧ e ∉ done := by
  refine ⟨h.subset (by simp), fun hmem => ?_⟩
  exact (List.nodup_append.mp (h.sublist.nodup hnodup)).2.2 e hmem e (by simp) rfl

/-- Attaching goes through: the members of kinds that the other set lacks leave, and its members of
kinds that the set lacks join. -/
theorem exchanged_attachCopy (scene : Scene (TrackedSet E) E) (target : ElementSet E)
    (hnulls : scene.value.tracker.Accepts target.toList) :
    ∃ after, attachCopy target scene = .ok () after ∧ Exchanged scene
      (scene.value.content.toList.filter fun e => !target.toList.any (Element.same e))
      (target.toList.filter fun e => !scene.value.content.toList.any (Element.same · e)) after := by
  have helements : Container.elements (attached target.toList scene) =
      .ok scene.value.content.toList (attached target.toList scene) := rfl
  refine Container.reconcile_reaches helements (Exchanged scene)
    (exchanged_attached target.toList scene) ?_ ?_
  -- Both sides are listed without repetition, so no step comes twice.
  · intro done e hinit mid hmid
    obtain ⟨he, hfirst⟩ := next_of_prefix (scene.value.content.nodup.filter _) hinit
    exact ⟨true, hmid.removeWith (List.mem_filter.mp he).1 hfirst⟩
  · intro done e hinit mid hmid
    obtain ⟨he, hfirst⟩ := next_of_prefix (target.nodup.filter _) hinit
    obtain ⟨hmem, hlacks⟩ := List.mem_filter.mp he
    have hnot : e ∉ scene.value.content := fun hold => by
      rw [(scene.value.content.any_same_iff e).mpr (.of_mem hold)] at hlacks
      cases hlacks
    exact ⟨true, hmid.add hnot hfirst (hnulls.check hmem)⟩

/-- Attaching by difference. Let a set be asked to take over another one, and let its field allow
null elements unless there are none among the members of the other set. That goes well. Then a kind
of members occurs in the set exactly if it occurs in the other set, and of the members of both sets
there are those of the set itself, of the kinds that occur on both sides, and those of the other
set, of the kinds that are new. If relations are managed, the owner is told that the members of the
kinds which vanished were removed and that the members of the new kinds were added, each of them
once and nothing else. When the same members are attached once more, in whatever order they are
listed, no more happens than that they are taken in. -/
theorem attached_by_difference (scene : Scene (TrackedSet E) E) (target : ElementSet E)
    (hnulls : scene.value.tracker.Accepts target.toList) :
    ∃ after, attachCopy target scene = .ok () after ∧
      (∀ e, after.value.content.Denotes e ↔ target.Denotes e) ∧
      (∀ e, e ∈ after.value.content ↔
        e ∈ scene.value.content ∧ target.Denotes e ∨
          e ∈ target ∧ ¬ scene.value.content.Denotes e) ∧
      (∀ o, Managed o scene → ∃ gone new : List E,
        after.session.changesOf o =
          scene.session.changesOf o ++ (gone.map removed ++ new.map added) ∧
        gone.Nodup ∧ (∀ e, e ∈ gone ↔ e ∈ scene.value.content ∧ ¬ target.Denotes e) ∧
        new.Nodup ∧ ∀ e, e ∈ new ↔ e ∈ target ∧ ¬ scene.value.content.Denotes e) ∧
      ∀ same : ElementSet E, (∀ e, e ∈ same ↔ e ∈ target) →
        ∃ again, attachCopy same after = .ok () again ∧ TookIn after again := by
  obtain ⟨after, hattach, hafter⟩ := exchanged_attachCopy scene target hnulls
  have hgone (e : E) : e ∈ (scene.value.content.toList.filter fun e =>
      !target.toList.any (Element.same e)) ↔ e ∈ scene.value.content ∧ ¬ target.Denotes e := by
    rw [List.mem_filter, ElementSet.mem_toList, Bool.not_eq_true', ← Bool.not_eq_true,
      target.any_same_iff']
  have hnew (e : E) : e ∈ (target.toList.filter fun e =>
      !scene.value.content.toList.any (Element.same · e)) ↔
        e ∈ target ∧ ¬ scene.value.content.Denotes e := by
    rw [List.mem_filter, ElementSet.mem_toList, Bool.not_eq_true', ← Bool.not_eq_true,
      scene.value.content.any_same_iff]
  have hmem (e : E) : e ∈ after.value.content ↔ e ∈ scene.value.content ∧ target.Denotes e ∨
      e ∈ target ∧ ¬ scene.value.content.Denotes e := by
    rw [hafter.members e, hgone, hnew]
    tauto
  have hdenotes (e : E) : after.value.content.Denotes e ↔ target.Denotes e := by
    constructor
    · rintro ⟨a, ha, hae⟩
      rcases (hmem a).mp ha with ⟨-, hboth⟩ | ⟨ha, -⟩
      · exact hboth.congr hae
      · exact ⟨a, ha, hae⟩
    · rintro ⟨t, ht, hte⟩
      by_cases hboth : scene.value.content.Denotes t
      · -- The set keeps a member of this kind in its own form.
        obtain ⟨a, ha, hat⟩ := hboth
        have hdenoted : target.Denotes a := ⟨t, ht, (Element.same_comm t a).trans hat⟩
        exact ⟨a, (hmem a).mpr (.inl ⟨ha, hdenoted⟩),
          (Element.same_congr hte a).symm.trans hat⟩
      · exact ⟨t, (hmem t).mpr (.inr ⟨ht, hboth⟩), hte⟩
  refine ⟨after, hattach, hdenotes, hmem, fun o ho => ?_, fun same hsame => ?_⟩
  · exact ⟨_, _, (hafter.told o ho).told, scene.value.content.nodup.filter _, hgone,
      target.nodup.filter _, hnew⟩
  · have hdenotes' (e : E) : after.value.content.Denotes e ↔ same.Denotes e := by
      rw [hdenotes, ElementSet.denotes_congr hsame]
    have helements : Container.elements (attached same.toList after) =
        .ok after.value.content.toList (attached same.toList after) := rfl
    refine ⟨attached same.toList after, ?_, Tracked.tookIn_attached same.toList after⟩
    refine Container.reconcile_of_matched helements (fun e he => ?_) fun e he => ?_
    · rw [same.any_same_iff', ← hdenotes']
      exact .of_mem he
    · exact (after.value.content.any_same_iff e).mpr ((hdenotes' e).mpr (.of_mem he))

/-- A set of objects in two forms each, which queues its changes, takes over a set with one of its
members in the other form and a new object in both forms, and then the same in another order. The
first object keeps the form that it had. -/
theorem attached_by_difference_of_forms :
    letI : Element (ObjectId × Bool) := { isNull := fun _ => false, objectId? := fun e => some e.1 }
    let o : Owner := { id := .ofNat 7, descriptor := { name := "books", ordinal := ⟨3⟩ } }
    let scene : Scene (TrackedSet (ObjectId × Bool)) (ObjectId × Bool) :=
      ⟨⟨.unbacked o .queued, .ofList [(.ofNat 1, false), (.ofNat 2, false)]⟩, {}⟩
    let target : ElementSet (ObjectId × Bool) :=
      .ofList [(.ofNat 3, false), (.ofNat 1, true), (.ofNat 3, true)]
    let same : ElementSet (ObjectId × Bool) :=
      .ofList [(.ofNat 3, true), (.ofNat 3, false), (.ofNat 1, true)]
    let after := stateAfter (attachCopy target) scene
    after.value.content.toList = [(.ofNat 1, false), (.ofNat 3, false), (.ofNat 3, true)] ∧
      after.session.pending.map (·.kind) = [.collectionRemove (.ofNat 2, false) false,
        .collectionAdd (.ofNat 3, false), .collectionAdd (.ofNat 3, true)] ∧
      scene.value.tracker.Accepts target.toList ∧ Managed o scene ∧
      (∀ e, after.value.content.Denotes e ↔ target.Denotes e) ∧ (∀ e, e ∈ same ↔ e ∈ target) ∧
      ∃ again, attachCopy same after = .ok () again ∧ TookIn after again := by
  let : Element (ObjectId × Bool) := { isNull := fun _ => false, objectId? := fun e => some e.1 }
  intro o scene target same after
  have hnulls : scene.value.tracker.Accepts target.toList := .inr fun _ _ => rfl
  have hsame (e : ObjectId × Bool) : e ∈ same ↔ e ∈ target := by
    simp only [same, target, ElementSet.mem_ofList, List.mem_cons, List.not_mem_nil]
    tauto
  obtain ⟨reached, hattach, hdenotes, -, -, hagain⟩ := attached_by_difference scene target hnulls
  obtain rfl : after = reached := stateAfter_of_ok hattach
  exact ⟨by decide, by decide, hnulls, ⟨rfl, rfl⟩, hdenotes, hsame, hagain same hsame⟩

end TrackedSet

end TrackedFields
