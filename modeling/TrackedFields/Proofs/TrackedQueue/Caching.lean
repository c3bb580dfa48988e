import Mathlib
import TrackedFields.Proofs.TrackedQueue.Requests

/-!
# Caching cannot be seen

Of two priority queues that make their changes right away in stores of their own, one may keep its
content in memory and the other one not; one may have loaded its content and the other one not yet.
As long as both are used alike, they answer alike and their stores stay alike. The memory of the
queue that does not keep its content, which only follows the changes made through it, plays no role.
-/

namespace TrackedFields

namespace TrackedQueue

variable {E : Type}

/-- A queue that makes its changes right away in a reliable store of its own order. If it keeps its
content in memory and has loaded it, it holds what the store holds. -/
structure Direct (cmp : Comparator E) (o : Owner) (name : StoreName)
    (scene : Scene (TrackedQueue E) E) : Prop where
  owner : scene.value.tracker.owner = some o
  dispatch : scene.value.tracker.dispatch = .immediate name
  order : scene.value.content.order = cmp
  storeOrder : (scene.session.store name).order = some cmp
  reliable : (scene.session.store name).Reliable
  sorted : cmp.Sorted ((scene.session.store name).contents o.id)
  cached : scene.value.content.useCache = true → scene.value.content.loaded = true →
    scene.value.content.elements = (scene.session.store name).contents o.id

/-- Two direct queues of fields of the same name, with the same null policy and like stores. -/
structure Twins (cmp : Comparator E) (o o' : Owner) (name name' : StoreName)
    (scenes : Scene (TrackedQueue E) E × Scene (TrackedQueue E) E) : Prop where
  first : Direct cmp o name scenes.1
  second : Direct cmp o' name' scenes.2
  fieldName : o.descriptor.name = o'.descriptor.name
  allowNulls : scenes.1.value.tracker.allowNulls = scenes.2.value.tracker.allowNulls
  dependent : (scenes.1.session.store name).dependent = (scenes.2.session.store name').dependent
  shelf : (scenes.1.session.store name).shelf o.id = (scenes.2.session.store name').shelf o'.id

variable [DecidableEq E] [Element E] {cmp : Comparator E} {o o' : Owner} {name name' : StoreName}
  {scene after : Scene (TrackedQueue E) E}

omit [DecidableEq E] in
/-- A direct queue shows what its store holds. -/
theorem Direct.shows {p : Profile E} (h : Direct p.order o name scene)
    (hcheck : scene.value.tracker.check = p.check) :
    Shows p o ((scene.session.store name).contents o.id) scene := by
  refine ⟨h.owner, hcheck, h.order, h.sorted, ?_, ?_, ?_⟩
  · intro hauthoritative
    have hstore : scene.value.hasStore = true := by
      rw [hasStore, Tracker.channel, h.dispatch, h.owner]
      rfl
    have hboth : scene.value.content.useCache = true ∧ scene.value.content.loaded = true := by
      simpa [isAuthoritative, hstore] using hauthoritative
    exact h.cached hboth.1 hboth.2
  · intro other hother
    obtain rfl : name = other := by
      rw [h.dispatch] at hother
      exact Dispatch.immediate.inj hother
    exact ⟨h.storeOrder, h.reliable, rfl⟩
  · exact fun hnot => absurd h.dispatch (hnot name)

/-- A queue stays direct, whatever an action comes to. -/
theorem Becomes.direct {α : Type} {p : Profile E} {outcome : Outcome E α}
    (hbecomes : Becomes p o outcome scene after) (h : Direct p.order o name scene) :
    Direct p.order o name after := by
  have hshows := hbecomes.shows
  have hdispatch : after.value.tracker.dispatch = .immediate name := by
    rw [hbecomes.tracker]
    exact h.dispatch
  have hserves := hshows.inStore name hdispatch
  refine ⟨hshows.owner, hdispatch, hshows.order, hserves.order, hserves.reliable, ?_, ?_⟩
  · rw [hserves.contents]
    exact hshows.sorted
  · intro huse hloaded
    rw [hserves.contents]
    apply hshows.inMemory
    unfold isAuthoritative
    rw [huse, hloaded]
    exact Bool.or_true _

/-- Twins answer a request alike and stay twins. -/
private theorem Twins.request {α : Type} [Std.TransCmp cmp]
    {scenes : Scene (TrackedQueue E) E × Scene (TrackedQueue E) E}
    (h : Twins cmp o o' name name' scenes) (request : QueueRequest E α)
    (hcount : request.Countable ((scenes.1.session.store name).contents o.id)) :
    ∃ result after after', request.run scenes.1 = ended result after ∧
      request.run scenes.2 = ended result after' ∧
      Twins cmp o o' name name' (after, after') := by
  let p : Profile E := ⟨cmp, scenes.1.value.tracker.check⟩
  have hcheck : scenes.2.value.tracker.check = p.check := by
    apply Tracker.check_congr
    · rw [Tracker.fieldName, Tracker.fieldName, h.first.owner, h.second.owner]
      exact congrArg some h.fieldName.symm
    · exact h.allowNulls.symm
  have hfirst : Shows p o _ scenes.1 := Direct.shows (p := p) h.first rfl
  have hsecond : Shows p o' _ scenes.2 := Direct.shows (p := p) h.second hcheck
  have hsame : (scenes.1.session.store name).contents o.id =
      (scenes.2.session.store name').contents o'.id := congrArg Shelf.elements h.shelf
  rw [← hsame] at hsecond
  obtain ⟨outcome, houtcome⟩ := request.settles (p := p) hcount
  obtain ⟨after, hrun, hbecomes⟩ := houtcome o scenes.1 hfirst
  obtain ⟨after', hrun', hbecomes'⟩ := houtcome o' scenes.2 hsecond
  obtain ⟨_, -, hadvances⟩ := hbecomes.advances
  obtain ⟨_, -, hadvances'⟩ := hbecomes'.advances
  obtain ⟨hcontinues, hshelf⟩ := hadvances.carried name h.first.dispatch
  obtain ⟨hcontinues', hshelf'⟩ := hadvances'.carried name' h.second.dispatch
  have hrules : scenes.1.session.rules name = scenes.2.session.rules name' := by
    unfold Session.rules Store.rules
    rw [h.first.storeOrder, h.second.storeOrder, h.dependent]
  refine ⟨outcome.result, after, after', hrun, hrun', hbecomes.direct h.first,
    hbecomes'.direct h.second, h.fieldName, ?_, ?_, ?_⟩
  · rw [hbecomes.tracker, hbecomes'.tracker]
    exact h.allowNulls
  · have hdependent := congrArg Store.Rules.dependent hcontinues.rules
    have hdependent' := congrArg Store.Rules.dependent hcontinues'.rules
    exact hdependent.trans (h.dependent.trans hdependent'.symm)
  · rw [hrules, h.shelf, hshelf'] at hshelf
    exact (Option.some.inj hshelf).symm

/-- Two queues are asked the same. -/
inductive TwinStep (o : Owner) (name : StoreName) :
    Scene (TrackedQueue E) E × Scene (TrackedQueue E) E →
      Scene (TrackedQueue E) E × Scene (TrackedQueue E) E → Prop where
  | request {scenes : Scene (TrackedQueue E) E × Scene (TrackedQueue E) E} {α : Type}
      (request : QueueRequest E α)
      (countable : request.Countable ((scenes.1.session.store name).contents o.id)) :
      TwinStep o name scenes
        (stateAfter request.run scenes.1, stateAfter request.run scenes.2)

/-- Caching cannot be seen. Let two queues make their changes right away, each in a reliable store
of its own order, and let them and their stores agree in everything but in whether the content is
kept in memory, and whether it has been loaded. After any run of requests made to both, their stores
hold and have deleted the same, each of them holds what its store holds if it is cached and loaded,
and any further request is answered alike. -/
theorem caching_invisible (cmp : Comparator E) [Std.TransCmp cmp] (o o' : Owner)
    (name name' : StoreName) (start scenes : Scene (TrackedQueue E) E × Scene (TrackedQueue E) E)
    (hstart : Twins cmp o o' name name' start)
    (hrun : Relation.ReflTransGen (TwinStep o name) start scenes) :
    ((scenes.1.session.store name).contents o.id =
          (scenes.2.session.store name').contents o'.id ∧
        (scenes.1.session.store name).deleted = (scenes.2.session.store name').deleted) ∧
      (scenes.1.value.content.useCache = true → scenes.1.value.content.loaded = true →
        scenes.1.value.content.elements = (scenes.1.session.store name).contents o.id) ∧
      (scenes.2.value.content.useCache = true → scenes.2.value.content.loaded = true →
        scenes.2.value.content.elements = (scenes.2.session.store name').contents o'.id) ∧
      ∀ (α : Type) (request : QueueRequest E α),
        request.Countable ((scenes.1.session.store name).contents o.id) →
        ∃ result after after', request.run scenes.1 = ended result after ∧
          request.run scenes.2 = ended result after' := by
  have htwins : Twins cmp o o' name name' scenes := by
    induction hrun with
    | refl => exact hstart
    | tail _ step ih =>
      cases step with
      | request request countable =>
        obtain ⟨result, after, after', hfirst, hsecond, htwins⟩ := ih.request request countable
        rw [stateAfter_of_ended hfirst, stateAfter_of_ended hsecond]
        exact htwins
  refine ⟨⟨congrArg Shelf.elements htwins.shelf, congrArg Shelf.deleted htwins.shelf⟩,
    htwins.first.cached, htwins.second.cached, fun α request hcount => ?_⟩
  obtain ⟨result, after, after', hfirst, hsecond, -⟩ := htwins.request request hcount
  exact ⟨result, after, after', hfirst, hsecond⟩

/-- A queue that keeps its content in memory, but has not loaded it, and one that does not keep it,
with elements that often compare equal. After two changes the memory of the second queue holds the
added element alone. -/
theorem caching_invisible_among_ties :
    let cmp : Comparator Int32 := compareOn fun e => e.toInt / 10
    let o : Owner := { id := .ofNat 7, descriptor := { name := "books", ordinal := ⟨3⟩ } }
    let queue (useCache : Bool) : Scene (TrackedQueue Int32) Int32 := {
      value := {
        tracker := { owner := some o, dispatch := .immediate "books", allowNulls := false }
        content := { order := cmp, useCache, lazily := true } }
      session := {
        stores := Table.empty.set "books" (Store.seed { order := some cmp, dependent := true } o.id
          [25, 11, 27]) } }
    let start := (queue true, queue false)
    let added := (stateAfter (QueueRequest.run (.add 22)) start.1,
      stateAfter (QueueRequest.run (.add 22)) start.2)
    let scenes := (stateAfter (QueueRequest.run .poll) added.1,
      stateAfter (QueueRequest.run .poll) added.2)
    (scenes.1.value.content.elements = [25, 27, 22] ∧ scenes.2.value.content.elements = []) ∧
    Twins cmp o o "books" "books" start ∧
      Relation.ReflTransGen (TwinStep o "books") start scenes ∧
      ((scenes.1.session.store "books").contents o.id =
            (scenes.2.session.store "books").contents o.id ∧
          (scenes.1.session.store "books").deleted = (scenes.2.session.store "books").deleted) ∧
        (scenes.1.value.content.useCache = true → scenes.1.value.content.loaded = true →
          scenes.1.value.content.elements = (scenes.1.session.store "books").contents o.id) ∧
        (scenes.2.value.content.useCache = true → scenes.2.value.content.loaded = true →
          scenes.2.value.content.elements = (scenes.2.session.store "books").contents o.id) ∧
        ∀ (α : Type) (request : QueueRequest Int32 α),
          request.Countable ((scenes.1.session.store "books").contents o.id) →
          ∃ result after after', request.run scenes.1 = ended result after ∧
            request.run scenes.2 = ended result after' := by
  intro cmp o queue start added scenes
  have hdirect (useCache : Bool) : Direct cmp o "books" (queue useCache) :=
    ⟨rfl, rfl, rfl, rfl, ⟨rfl, rfl⟩, cmp.sorted_sort [25, 11, 27], fun _ h => by cases h⟩
  have hstart : Twins cmp o o "books" "books" start :=
    ⟨hdirect true, hdirect false, rfl, rfl, rfl, rfl⟩
  have hrun : Relation.ReflTransGen (TwinStep o "books") start scenes :=
    (Relation.ReflTransGen.refl.tail (.request (.add 22) trivial)).tail (.request .poll trivial)
  exact ⟨⟨by cbv, by cbv⟩, hstart, hrun,
    caching_invisible cmp o o "books" "books" start scenes hstart hrun⟩

end TrackedQueue

end TrackedFields
