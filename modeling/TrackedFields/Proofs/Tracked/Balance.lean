import TrackedFields.Proofs.Keeps
import TrackedFields.Proofs.Session.Heard

/-!
# Relations that keep count

The owner of a container is told which elements join the relation behind its field and which ones
leave it. Changes of a relation balance if what joined and what left account for the difference
between the old and the new content, among the elements that satisfy a condition. Balanced changes
add up, so a container whose plans balance has told, since any moment, exactly how much it grew.
-/

namespace TrackedFields

namespace RelationChange

variable {E : Type}

/-- The elements that join a relation. -/
def joining (changes : List (RelationChange E)) : List E :=
  changes.filterMap fun
    | added e => some e
    | removed _ => none

/-- The elements that leave a relation. -/
def leaving (changes : List (RelationChange E)) : List E :=
  changes.filterMap fun
    | added _ => none
    | removed e => some e

/-- What joins in all changes joins in the first ones or in the others. -/
@[simp] theorem joining_append (changes more : List (RelationChange E)) :
    joining (changes ++ more) = joining changes ++ joining more := List.filterMap_append

/-- What leaves in all changes leaves in the first ones or in the others. -/
@[simp] theorem leaving_append (changes more : List (RelationChange E)) :
    leaving (changes ++ more) = leaving changes ++ leaving more := List.filterMap_append

/-- Elements that are told as added join. -/
@[simp] theorem joining_map_added (es : List E) : joining (es.map added) = es := by
  rw [joining, List.filterMap_map]
  exact List.filterMap_some

/-- No element leaves that is told as added. -/
@[simp] theorem leaving_map_added (es : List E) : leaving (es.map added) = [] := by
  rw [leaving, List.filterMap_map]
  exact List.filterMap_eq_nil_iff.mpr fun _ _ => rfl

/-- No element joins that is told as removed. -/
@[simp] theorem joining_map_removed (es : List E) : joining (es.map removed) = [] := by
  rw [joining, List.filterMap_map]
  exact List.filterMap_eq_nil_iff.mpr fun _ _ => rfl

/-- Elements that are told as removed leave. -/
@[simp] theorem leaving_map_removed (es : List E) : leaving (es.map removed) = es := by
  rw [leaving, List.filterMap_map]
  exact List.filterMap_some

/-- Changes of a relation account for what became of a container, among the elements that satisfy a
condition. -/
def AccountFor (p : E → Bool) (es next : List E) (changes : List (RelationChange E)) : Prop :=
  (leaving changes).countP p + next.countP p = (joining changes).countP p + es.countP p

namespace AccountFor

variable {p : E → Bool} {es mid next : List E} {changes more : List (RelationChange E)}

/-- Without changes, a container holds as much as before. -/
theorem nil (h : next.countP p = es.countP p) : AccountFor p es next [] := by
  change 0 + next.countP p = 0 + es.countP p
  rw [h]

/-- What changes account for adds up. -/
theorem append (h : AccountFor p es mid changes) (h' : AccountFor p mid next more) :
    AccountFor p es next (changes ++ more) := by
  unfold AccountFor at h h' ⊢
  rw [joining_append, leaving_append, List.countP_append, List.countP_append]
  omega

/-- Changes balance if what left and what is there are, together, what joined and what was there.
The condition does not matter then. -/
theorem of_perm (h : (leaving changes ++ next).Perm (joining changes ++ es)) :
    AccountFor p es next changes := by
  unfold AccountFor
  rw [← List.countP_append, h.countP_eq, List.countP_append]

/-- Elements that joined. -/
theorem added {new : List E} (h : next.Perm (new ++ es)) :
    AccountFor p es next (new.map RelationChange.added) := by
  apply of_perm
  rwa [leaving_map_added, joining_map_added, List.nil_append]

/-- Elements that left. -/
theorem removed {gone : List E} (h : (gone ++ next).Perm es) :
    AccountFor p es next (gone.map RelationChange.removed) := by
  apply of_perm
  rwa [leaving_map_removed, joining_map_removed, List.nil_append]

end AccountFor

end RelationChange

open RelationChange (joining leaving AccountFor)

/-- The changes of the relation behind a field, in order. -/
def Session.changesOf {E : Type} (s : Session E) (o : Owner) : List (RelationChange E) :=
  (s.relationsOf o.id).filterMap fun (field, change) =>
    if field = o.field then some change else none

/-- News of a field add to the changes of its relation. -/
theorem Session.changesOf_of_heard {E : Type} {s after : Session E} {o : Owner}
    {changes : List (RelationChange E)} {others : Nat}
    (hmanaged : s.settings.manageRelationships = true)
    (h : after.heard o.id = s.heard o.id ++ (s.hearing o.id).news o.field changes others) :
    after.changesOf o = s.changesOf o ++ changes := by
  have hrelations : after.relationsOf o.id = s.relationsOf o.id ++ changes.map (o.field, ·) := by
    refine (congrArg News.relations h).trans ?_
    change s.relationsOf o.id ++ (if s.settings.manageRelationships then _ else _) = _
    rw [if_pos hmanaged]
  unfold changesOf
  rw [hrelations, List.filterMap_append, List.filterMap_map]
  congr 1
  refine (congrArg (List.filterMap · changes) (funext fun change => ?_)).trans List.filterMap_some
  exact if_pos rfl

namespace Tracked

variable {C E α : Type} {p : E → Bool} {elements : C → List E} {o : Owner}
  {start scene : Scene (Tracked C) E}

/-- A container of a field whose relations are managed. -/
structure Managed (o : Owner) (scene : Scene (Tracked C) E) : Prop where
  owner : scene.value.tracker.owner = some o
  managed : scene.session.settings.manageRelationships = true

/-- A container that has told, since a start, exactly how much it grew, among the elements that
satisfy a condition. -/
structure Accounts (p : E → Bool) (elements : C → List E) (o : Owner)
    (start scene : Scene (Tracked C) E) : Prop extends Managed o scene where
  told : ∃ changes, scene.session.changesOf o = start.session.changesOf o ++ changes ∧
    AccountFor p (elements start.value.content) (elements scene.value.content) changes

/-- At the start there is nothing to tell. -/
theorem Accounts.refl (h : Managed o start) : Accounts p elements o start start :=
  ⟨h, [], (List.append_nil _).symm, .nil rfl⟩

/-- As many elements have joined the relation of a field since a start, less those that left it, as
the container of the field grew by, among the elements that satisfy a condition. -/
def GrowsAsTold (p : E → Bool) (elements : C → List E) (o : Owner)
    (start scene : Scene (Tracked C) E) : Prop :=
  ∃ changes, scene.session.changesOf o = start.session.changesOf o ++ changes ∧
    ((joining changes).countP p : Int) - (leaving changes).countP p =
      (elements scene.value.content).countP p - (elements start.value.content).countP p

/-- A container that accounts for its changes grows as told. -/
theorem Accounts.growsAsTold (h : Accounts p elements o start scene) :
    GrowsAsTold p elements o start scene := by
  obtain ⟨changes, hchanges, hbalanced⟩ := h.told
  refine ⟨changes, hchanges, ?_⟩
  unfold AccountFor at hbalanced
  omega

/-- Over a run of actions that account for what they change, a container grows as told. -/
theorem growsAsTold_run {ι : Type} {run : ι → TrackedAction (Tracked C) E Unit} (ms : List ι)
    (h : Managed o start) (hrun : ∀ m ∈ ms, Keeps (Accounts p elements o start) (run m)) :
    GrowsAsTold p elements o start
      (ms.foldl (fun scene m => stateAfter (run m) scene) start) :=
  (Keeps.run hrun (.refl h)).growsAsTold

/-- A balanced change of the content, which the owner hears of, is accounted for. -/
theorem Accounts.change {content : C} {session : Session E} {relations : List (RelationChange E)}
    {others : Nat} (h : Accounts p elements o start scene)
    (hhearing : session.hearing o.id = scene.session.hearing o.id)
    (hheard : session.heard o.id =
      scene.session.heard o.id ++ (scene.session.hearing o.id).news o.field relations others)
    (hbalanced : AccountFor p (elements scene.value.content) (elements content) relations) :
    Accounts p elements o start { value := { scene.value with content }, session } := by
  obtain ⟨changes, hchanges, hbefore⟩ := h.told
  refine ⟨⟨h.owner, ?_⟩, changes ++ relations, ?_, hbefore.append hbalanced⟩
  · exact (congrArg Hearing.managed hhearing).trans h.managed
  · rw [Session.changesOf_of_heard h.managed hheard, hchanges, List.append_assoc]

/-- Looking at elements from outside the session leaves the account as it is. -/
theorem accounts_attach (es : List E) :
    Keeps (Accounts p elements o start) (attach es) := by
  intro scene h
  have hheard : (scene.value.tracker.attach es scene.session).heard o.id =
      scene.session.heard o.id ++ (scene.session.hearing o.id).news o.field [] 0 := by
    rw [Tracker.heard_attach, Hearing.append_news_nil]
  exact h.change (scene.value.tracker.hearing_attach scene.session es o.id) hheard (.nil rfl)

variable [DecidableEq E]

/-- A plan whose reports balance, among the elements that satisfy a condition. -/
def Balances (p : E → Bool) (elements : C → List E)
    (plan : Tracker → C → Except Failure (Change C E α)) : Prop :=
  ∀ tracker content answer next report,
    plan tracker content = .ok (.made answer next report) →
    AccountFor p (elements content) (elements next) report.relations

/-- Carrying out a plan leaves the account right, if the plan balances on the content at hand. -/
theorem Accounts.mutate {plan : Tracker → C → Except Failure (Change C E α)}
    (h : Accounts p elements o start scene)
    (hplan : ∀ answer next report,
      plan scene.value.tracker scene.value.content = .ok (.made answer next report) →
      AccountFor p (elements scene.value.content) (elements next) report.relations) :
    Accounts p elements o start (stateAfter (mutate plan) scene) := by
  rcases mutate_cases plan scene with hsame | ⟨answer, next, report, hmade, hafter⟩
  · rw [hsame]
    exact h
  · rw [hafter]
    have hhearing : (scene.value.tracker.changed
        (scene.value.tracker.announce report scene.session)).hearing o.id =
        scene.session.hearing o.id := by
      rw [Tracker.hearing_changed, Tracker.hearing_announce]
    have hheard : (scene.value.tracker.changed
        (scene.value.tracker.announce report scene.session)).heard o.id =
        scene.session.heard o.id ++
          (scene.session.hearing o.id).news o.field report.relations 1 := by
      rw [Tracker.heard_changed _ h.owner, Tracker.heard_announce _ h.owner,
        Tracker.hearing_announce, News.append_assoc, Hearing.news_append, List.append_nil]
    exact h.change hhearing hheard (hplan answer next report hmade)

/-- A plan whose reports balance leaves the account right. -/
theorem accounts_mutate {plan : Tracker → C → Except Failure (Change C E α)}
    (hplan : Balances p elements plan) :
    Keeps (Accounts p elements o start) (Tracked.mutate plan) :=
  fun _ h => h.mutate (hplan _ _)

end Tracked

end TrackedFields
