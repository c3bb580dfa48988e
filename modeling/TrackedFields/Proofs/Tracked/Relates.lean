import TrackedFields.Proofs.Tracked.Balance
import TrackedFields.Proofs.Tracked.Reconcile
import TrackedFields.Proofs.Tracked.TrackerIndependence
import TrackedFields.Proofs.Tracked.Unaltered

/-!
# What attaching does step by step

A container takes over a value from outside in steps, each of which is a removal or an addition. A
pass over a list whose steps all go well goes well, and what becomes of the container is known from
what becomes of it step by step. Alongside, the owner of a container whose relations are managed is
told every step: the changes that it was told since some moment add up.
-/

namespace TrackedFields

variable {C E α : Type}

/-- A container allows null elements, or there are none among some elements. -/
def Tracker.Accepts [Element E] (t : Tracker) (es : List E) : Prop :=
  t.allowNulls = true ∨ ∀ e ∈ es, Element.isNull e = false

/-- Elements that are accepted pass the check. -/
theorem Tracker.Accepts.check [Element E] {t : Tracker} {es : List E} {e : E} (h : t.Accepts es)
    (he : e ∈ es) : t.check e = .ok () := by
  rcases h with hnulls | hpresent
  · rw [Tracker.check, hnulls, Bool.not_true, Bool.and_false]
    rfl
  · exact t.check_of_not_null (hpresent e he)

namespace Tracked

/-! ### Steps that do nothing -/

/-- An action left a container as it was, and asked its session for nothing but to take in elements
from outside. -/
structure TookIn (scene after : Scene (Tracked C) E) : Prop where
  value : after.value = scene.value
  session : scene.session.OnlyAttached after.session

/-- Taking in elements does no more than that. -/
theorem tookIn_attached [Element E] (es : List E) (scene : Scene (Tracked C) E) :
    TookIn scene (attached es scene) :=
  ⟨rfl, scene.value.tracker.onlyAttached_attach es scene.session⟩

/-- Taking in elements does not change whether relations are managed. -/
theorem managed_attached [Element E] (es : List E) (scene : Scene (Tracked C) E) :
    (attached es scene).session.settings.manageRelationships =
      scene.session.settings.manageRelationships :=
  congrArg Settings.manageRelationships (tookIn_attached es scene).session.unmarked.settings

/-- Taking in elements tells nobody of changes. -/
theorem changesOf_attached [Element E] (o : Owner) (es : List E) (scene : Scene (Tracked C) E) :
    (attached es scene).session.changesOf o = scene.session.changesOf o := by
  have hrelations : (attached es scene).session.relationsOf o.id =
      scene.session.relationsOf o.id :=
    congrArg News.relations ((tookIn_attached es scene).session.heard_eq o.id)
  rw [Session.changesOf, hrelations, ← Session.changesOf]

/-! ### Changes that are reported -/

variable {o : Owner} {start scene : Scene (Tracked C) E} {changes : List (RelationChange E)}

/-- Since a start, the container of a managed field has told its relation these changes and no
others. -/
structure Relates (o : Owner) (changes : List (RelationChange E))
    (start scene : Scene (Tracked C) E) : Prop extends Managed o scene where
  told : scene.session.changesOf o = start.session.changesOf o ++ changes

/-- At the start nothing was told. -/
theorem Relates.refl (h : Managed o start) : Relates o [] start start :=
  ⟨h, (List.append_nil _).symm⟩

/-- Taking in elements from outside tells the relation nothing. -/
theorem Relates.attached [Element E] (h : Relates o changes start scene) (es : List E) :
    Relates o changes start (Tracked.attached es scene) :=
  ⟨⟨h.owner, (managed_attached es scene).trans h.managed⟩,
    (changesOf_attached o es scene).trans h.told⟩

variable [DecidableEq E]

/-- The scene once a change was made and reported. -/
def changedTo (content : C) (report : Report E) (scene : Scene (Tracked C) E) :
    Scene (Tracked C) E where
  value := { scene.value with content }
  session := scene.value.tracker.changed (scene.value.tracker.announce report scene.session)

/-- Carrying out a plan that makes no change. -/
theorem mutate_of_nothing {plan : Tracker → C → Except Failure (Change C E α)} {answer : α}
    (h : plan scene.value.tracker scene.value.content = .ok (.nothing answer)) :
    mutate plan scene = .ok answer scene := by
  unfold mutate
  dsimp only
  rw [h]

/-- Carrying out a plan that makes a change. -/
theorem mutate_of_made {plan : Tracker → C → Except Failure (Change C E α)} {answer : α}
    {content : C} {report : Report E}
    (h : plan scene.value.tracker scene.value.content = .ok (.made answer content report)) :
    mutate plan scene = .ok answer (changedTo content report scene) := by
  unfold mutate
  dsimp only
  rw [h]
  rfl

/-- A change tells the relation what it reports. -/
theorem Relates.changedTo (h : Relates o changes start scene) (content : C) (report : Report E) :
    Relates o (changes ++ report.relations) start (Tracked.changedTo content report scene) := by
  let announced := scene.value.tracker.announce report scene.session
  have hhearing : (scene.value.tracker.changed announced).hearing o.id =
      scene.session.hearing o.id := by
    rw [Tracker.hearing_changed, Tracker.hearing_announce]
  have hheard : (scene.value.tracker.changed announced).heard o.id = scene.session.heard o.id ++
      (scene.session.hearing o.id).news o.field report.relations 1 := by
    rw [Tracker.heard_changed _ h.owner, Tracker.heard_announce _ h.owner,
      Tracker.hearing_announce, News.append_assoc, Hearing.news_append, List.append_nil,
      Nat.zero_add]
  refine ⟨⟨h.owner, (congrArg Hearing.managed hhearing).trans h.managed⟩, ?_⟩
  have hchanges := Session.changesOf_of_heard h.managed hheard
  rw [h.told, List.append_assoc] at hchanges
  exact hchanges

end Tracked

/-! ### Passes -/

namespace Container

variable {skips : E → Bool} {act : E → TrackedAction (Tracked C) E Unit}
  {pass : List E → TrackedAction (Tracked C) E Unit}

/-- A pass goes well if each of its actions goes well where the ones before it have led. -/
theorem IsPass.reaches (h : IsPass skips act pass) (Holds : List E → Scene (Tracked C) E → Prop)
    (es : List E)
    (hact : ∀ (done : List E) (e : E), done ++ [e] <+: es.filter (fun e => !skips e) →
      ∀ scene, Holds done scene → ∃ after, act e scene = .ok () after ∧ Holds (done ++ [e]) after)
    {scene : Scene (Tracked C) E} (hstart : Holds [] scene) :
    ∃ after, pass es scene = .ok () after ∧ Holds (es.filter fun e => !skips e) after := by
  -- What was done so far moves from the list to the accumulated part.
  have hrest (done : List E) (rest : List E)
      (hsplit : done ++ rest.filter (fun e => !skips e) = es.filter fun e => !skips e)
      (scene : Scene (Tracked C) E) (hdone : Holds done scene) :
      ∃ after, pass rest scene = .ok () after ∧ Holds (es.filter fun e => !skips e) after := by
    induction rest generalizing done scene with
    | nil =>
      rw [List.filter_nil, List.append_nil] at hsplit
      rw [h.nil, ← hsplit]
      exact ⟨scene, rfl, hdone⟩
    | cons e rest ih =>
      rw [h.cons]
      cases hskips : skips e with
      | true =>
        rw [List.filter_cons_of_neg (by simp [hskips])] at hsplit
        exact ih done hsplit scene hdone
      | false =>
        rw [List.filter_cons_of_pos (by simp [hskips]), List.append_cons] at hsplit
        obtain ⟨mid, hmid, hholds⟩ :=
          hact done e (hsplit ▸ List.prefix_append _ _) scene hdone
        obtain ⟨after, hafter, hall⟩ := ih (done ++ [e]) hsplit mid hholds
        refine ⟨after, ?_, hall⟩
        rw [if_neg Bool.false_ne_true, bind_apply, hmid]
        exact hafter
  exact hrest [] es (List.nil_append _) scene hstart

variable [DecidableEq E] [Element E] [Container C E]

/-- Reconciling a container goes well if every removal and every addition goes well where the ones
before it have led. -/
theorem reconcile_reaches {target current : List E} {scene mid : Scene (Tracked C) E}
    (helements : elements scene = .ok current mid)
    (Holds : List E → List E → Scene (Tracked C) E → Prop) (hstart : Holds [] [] mid) :
    let gone := current.filter fun e => !target.any (Element.same e)
    let new := target.filter fun e => !current.any (Element.same · e)
    (∀ (done : List E) (e : E), done ++ [e] <+: gone → ∀ scene, Holds done [] scene →
      ∃ answer after, remove e false scene = .ok answer after ∧ Holds (done ++ [e]) [] after) →
    (∀ (done : List E) (e : E), done ++ [e] <+: new → ∀ scene, Holds gone done scene →
      ∃ answer after, add e scene = .ok answer after ∧ Holds gone (done ++ [e]) after) →
    ∃ after, reconcile target scene = .ok () after ∧ Holds gone new after := by
  intro gone new hremove hadd
  obtain ⟨between, hremoved, hbetween⟩ := (isPass_removeMissing target).reaches
    (fun done => Holds done []) current (fun done e hinit scene hdone => by
      obtain ⟨answer, after, hok, hafter⟩ := hremove done e hinit scene hdone
      exact ⟨after, by rw [discard_apply, hok], hafter⟩) hstart
  obtain ⟨after, hadded, hafter⟩ := (isPass_addMissing current).reaches (Holds gone) target
    (fun done e hinit scene hdone => by
      obtain ⟨answer, after, hok, hafter⟩ := hadd done e hinit scene hdone
      exact ⟨after, by rw [discard_apply, hok], hafter⟩) hbetween
  refine ⟨after, ?_, hafter⟩
  unfold reconcile
  rw [bind_apply, helements]
  dsimp only
  rw [bind_apply, hremoved]
  exact hadded

/-- A container that has to lose nothing and to gain nothing is reconciled by looking at it. -/
theorem reconcile_of_matched {target current : List E} {scene mid : Scene (Tracked C) E}
    (helements : elements scene = .ok current mid)
    (hstays : ∀ e ∈ current, target.any (Element.same e) = true)
    (hthere : ∀ e ∈ target, current.any (Element.same · e) = true) :
    reconcile target scene = .ok () mid := by
  have hnone : current.find? (fun e => !target.any (Element.same e)) = none :=
    List.find?_eq_none.mpr (by simpa using hstays)
  have hnone' : target.find? (fun e => !current.any (Element.same · e)) = none :=
    List.find?_eq_none.mpr (by simpa using hthere)
  unfold reconcile
  rw [bind_apply, helements]
  dsimp only
  rw [(isPass_removeMissing target).eq_pure hnone, pure_bind,
    (isPass_addMissing current).eq_pure hnone']
  rfl

end Container

end TrackedFields
