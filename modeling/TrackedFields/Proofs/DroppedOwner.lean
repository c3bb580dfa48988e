import TrackedFields.Proofs.Tracked.Dropped
import TrackedFields.Proofs.TrackedList.Convergence
import TrackedFields.Proofs.TrackedQueue.Notices
import TrackedFields.Proofs.TrackedQueue.PassedChanges
import TrackedFields.Proofs.TrackedQueue.TrackerIndependence
import TrackedFields.Proofs.TrackedSet.Mirrors

/-!
# Containers that outlive their owner

Once its owner has left the memory, a container should behave as if the owner had been unset. It
does so as far as the owner itself is concerned: no field is marked, no change persisted. It goes on
to report changes of the relation, to queue operations, to delete dependent elements and to call its
store, wherever one of these is there. Which elements a container holds in memory does not depend on
it, unless it looks for them in its store.
-/

namespace TrackedFields

variable {C D E M : Type} [DecidableEq E] [Element E] {t : Tracker} {o : Owner} {e : E}

/-- What calls leave of a container whose owner is gone is what they leave of it without owner: the
session was asked for nothing but attachments, and the container shows the same. -/
structure AsUnset (shown : C → D) (scene after without : Scene (Tracked C) E) : Prop where
  session : scene.session.OnlyAttached after.session
  content : shown after.value.content = shown without.value.content

namespace Tracked

/-- The same container, in the same session, without owner. -/
def unsetIn (scene : Scene (Tracked C) E) : Scene (Tracked C) E :=
  { scene with value := scene.value.unsetOwner }

/-- What calls leave, one after the other, whether they answer or fail. -/
def runAll (run : M → TrackedAction (Tracked C) E Unit) (ms : List M)
    (scene : Scene (Tracked C) E) : Scene (Tracked C) E :=
  ms.foldl (fun scene m => stateAfter (run m) scene) scene

/-- What runs of calls make of a container whose owner is gone. -/
structure Orphaned (run : M → TrackedAction (Tracked C) E Unit) (shown : C → D) (whole : Prop)
    (o : Owner) (scene : Scene (Tracked C) E) : Prop where
  /-- No field is marked, and no change persisted. -/
  unmarked : ∀ ms, scene.session.Unmarked (runAll run ms scene).session
  /-- A container that holds all its elements in memory shows what it would show without owner. -/
  content : whole → ∀ ms, shown (runAll run ms scene).value.content =
    shown (runAll run ms (unsetIn scene)).value.content
  /-- The owner might as well have been unset exactly if there was nobody else to tell. -/
  asUnset_iff : (∀ ms, AsUnset shown scene (runAll run ms scene) (runAll run ms (unsetIn scene))) ↔
    scene.value.tracker.Mute o scene.session

omit [Element E] in
/-- Carrying out a plan leaves of a change its report, where nobody hears of its end. -/
theorem stateAfter_mutate_of_dropped {α : Type} {content content' : C} {s : Session E}
    (howner : t.owner = some o) (hdropped : s.isAlive o.id = false)
    {plan : Tracker → C → Except Failure (Change C E α)} (answer : α) {report : Report E}
    (hplan : plan t content = .ok (.made answer content' report)) :
    stateAfter (mutate plan) ⟨⟨t, content⟩, s⟩ = ⟨⟨t, content'⟩, t.announce report s⟩ := by
  have hunmarked := Tracker.unmarked_announce t report s
  have hchanged := Tracker.changed_of_dropped howner ((hunmarked.isAlive_eq o.id).trans hdropped)
  unfold stateAfter mutate
  dsimp only
  rw [hplan]
  exact congrArg _ hchanged

variable (run : M → TrackedAction (Tracked C) E Unit) {scene : Scene (Tracked C) E}
  (howner : scene.value.tracker.owner = some o)
  (hdropped : scene.session.isAlive o.id = false)
include howner hdropped

omit [Element E] in
/-- If no run leaves a trace, not even one that empties the container, adds an element and empties
the container again, then there was nobody but the owner to tell. -/
theorem mute_of_onlyAttached (clear add : M) (empty single : C) (e : E)
    (hdefers : scene.value.tracker.Defers)
    (hempty : (stateAfter (run clear) scene).value = ⟨scene.value.tracker, empty⟩)
    (hadd : ∀ s : Session E, s.isAlive o.id = false →
      stateAfter (run add) ⟨⟨scene.value.tracker, empty⟩, s⟩ =
        ⟨⟨scene.value.tracker, single⟩, scene.value.tracker.announce (.added [e]) s⟩)
    (hclear : ∀ s : Session E, s.isAlive o.id = false →
      (stateAfter (run clear) ⟨⟨scene.value.tracker, single⟩, s⟩).session =
        scene.value.tracker.announce (.cleared [e]) s)
    (h : ∀ ms, scene.session.OnlyAttached (runAll run ms scene).session) :
    scene.value.tracker.Mute o scene.session := by
  have hgone {s : Session E} (hs : scene.session.OnlyAttached s) : s.isAlive o.id = false :=
    (hs.unmarked.isAlive_eq o.id).trans hdropped
  obtain ⟨s₁, hfirst⟩ : ∃ s₁, stateAfter (run clear) scene = ⟨⟨scene.value.tracker, empty⟩, s₁⟩ :=
    ⟨_, by rw [← hempty]⟩
  have h₁ : scene.session.OnlyAttached s₁ := by simpa [runAll, hfirst] using h [clear]
  have hsecond := hadd s₁ (hgone h₁)
  have h₂ := h [clear, add]
  simp only [runAll, List.foldl_cons, List.foldl_nil, hfirst, hsecond] at h₂
  have h₃ := h [clear, add, clear]
  simp only [runAll, List.foldl_cons, List.foldl_nil, hfirst, hsecond, hclear _ (hgone h₂)] at h₃
  exact Tracker.mute_of_onlyAttached howner hdefers h₁ rfl h₂ h₃

/-- Calls that do not tell peers apart show with an owner that is gone what they show without
owner. -/
theorem orphaned_of_neutral
    (h : ∀ (t t' : Tracker) (S : Session E → Session E → Prop), t.Tandem t' S →
      ∀ m, Neutral t t' S (run m))
    (hmute : (∀ ms, scene.session.OnlyAttached (runAll run ms scene).session) →
      scene.value.tracker.Mute o scene.session) :
    Orphaned run id True o scene := by
  have hpeers {S : Session E → Session E → Prop}
      (htandem : scene.value.tracker.Tandem scene.value.tracker.unsetOwner S)
      (hsession : S scene.session scene.session) (ms : List M) :
      Peers scene.value.tracker scene.value.tracker.unsetOwner S (runAll run ms scene)
        (runAll run ms (unsetIn scene)) :=
    Lockstep.run (h _ _ _ htandem) ms ⟨rfl, rfl, rfl, hsession⟩
  have hdropped' := hpeers (Tracker.tandem_of_dropped howner hdropped) (.refl _)
  refine ⟨fun ms => (hdropped' ms).sessions, fun _ ms => (hdropped' ms).content,
    fun hunset => hmute fun ms => (hunset ms).session, fun hnobody ms => ?_⟩
  have hmuted := hpeers (Tracker.tandem_of_mute howner hdropped hnobody) (.refl _) ms
  exact ⟨hmuted.sessions, hmuted.content⟩

end Tracked

/-! ### Lists -/

namespace TrackedList

/-- No change of a list tells peers apart. -/
theorem Mutator.neutral (t t' : Tracker) (S : Session E → Session E → Prop)
    (htandem : t.Tandem t' S) (m : Mutator E) : Tracked.Neutral t t' S m.run := by
  cases m with
  | add e => exact (neutral_add htandem e).discard
  | addAll new => exact (neutral_addAll htandem new).discard
  | insert index e => exact neutral_insert htandem index e
  | insertAll index new => exact (neutral_insertAll htandem index new).discard
  | remove e => exact (neutral_removeWith htandem e true).discard
  | removeWith e cascade => exact (neutral_removeWith htandem e cascade).discard
  | removeAt index => exact (neutral_removeAtWith htandem index true).discard
  | set index e => exact (neutral_setWith htandem index e true).discard
  | setWith index e cascade => exact (neutral_setWith htandem index e cascade).discard
  | removeAll es => exact (neutral_removeWhere htandem es.contains).discard
  | retainAll keep => exact (neutral_removeWhere htandem fun e => !keep.contains e).discard
  | clear => exact neutral_clear htandem
  | sortBy cmp => exact neutral_reorder htandem cmp.sort
  | attachCopy target => exact neutral_attachCopy htandem target

/-- If no run leaves a trace, there was nobody but the owner to tell. -/
theorem mute_of_onlyAttached {scene : Scene (TrackedList E) E}
    (howner : scene.value.tracker.owner = some o) (hdropped : scene.session.isAlive o.id = false)
    (hdefers : scene.value.tracker.Defers) (he : Element.isNull e = false)
    (h : ∀ ms, scene.session.OnlyAttached (Tracked.runAll Mutator.run ms scene).session) :
    scene.value.tracker.Mute o scene.session := by
  obtain ⟨⟨t, es⟩, s⟩ := scene
  have hcheck : t.check e = .ok () := t.check_of_not_null he
  have hadd {s' : Session E} (hs' : s'.isAlive o.id = false) :
      stateAfter (add e) ⟨⟨t, []⟩, s'⟩ = ⟨⟨t, [e]⟩, t.announce (.added [e]) s'⟩ := by
    refine Tracked.stateAfter_mutate_of_dropped howner hs' true ?_
    rw [hcheck]
    rfl
  have hclear {s' : Session E} (hs' : s'.isAlive o.id = false) :
      stateAfter clear ⟨⟨t, [e]⟩, s'⟩ = ⟨⟨t, []⟩, t.announce (.cleared [e]) s'⟩ :=
    Tracked.stateAfter_mutate_of_dropped howner hs' () rfl
  exact Tracked.mute_of_onlyAttached Mutator.run howner hdropped .clear (.add e) [] [e] e hdefers
    rfl (fun s' hs' => (stateAfter_discard _ _).trans (hadd hs'))
    (fun s' hs' => congrArg Scene.session (hclear hs')) h

end TrackedList

/-! ### Sets -/

namespace TrackedSet

/-- No change of a set tells peers apart. -/
theorem Mutator.neutral (t t' : Tracker) (S : Session E → Session E → Prop)
    (htandem : t.Tandem t' S) (m : Mutator E) : Tracked.Neutral t t' S m.run := by
  cases m with
  | add e => exact (neutral_addAll htandem [e]).discard
  | addAll es => exact (neutral_addAll htandem es).discard
  | remove e => exact (neutral_removeListed htandem [e] true).discard
  | removeWith e cascade => exact (neutral_removeListed htandem [e] cascade).discard
  | removeAll es => exact (neutral_removeListed htandem es true).discard
  | retainAll keep => exact (neutral_retainAll htandem keep).discard
  | clear => exact neutral_clear htandem
  | attachCopy target => exact neutral_attachCopy htandem target

/-- If no run leaves a trace, there was nobody but the owner to tell. -/
theorem mute_of_onlyAttached {scene : Scene (TrackedSet E) E}
    (howner : scene.value.tracker.owner = some o) (hdropped : scene.session.isAlive o.id = false)
    (hdefers : scene.value.tracker.Defers) (he : Element.isNull e = false)
    (h : ∀ ms, scene.session.OnlyAttached (Tracked.runAll Mutator.run ms scene).session) :
    scene.value.tracker.Mute o scene.session := by
  obtain ⟨⟨t, members⟩, s⟩ := scene
  have hcheck : t.checkAll [e] = .ok () := by
    rw [← Tracker.check_eq_checkAll]
    exact t.check_of_not_null he
  have hadd {s' : Session E} (hs' : s'.isAlive o.id = false) :
      stateAfter (addAll [e]) ⟨⟨t, .empty⟩, s'⟩ =
        ⟨⟨t, .ofList [e]⟩, t.announce (.added [e]) s'⟩ := by
    refine Tracked.stateAfter_mutate_of_dropped howner hs' true ?_
    rw [hcheck]
    rfl
  have hclear {s' : Session E} (hs' : s'.isAlive o.id = false) :
      stateAfter clear ⟨⟨t, .ofList [e]⟩, s'⟩ = ⟨⟨t, .empty⟩, t.announce (.cleared [e]) s'⟩ :=
    Tracked.stateAfter_mutate_of_dropped howner hs' () rfl
  exact Tracked.mute_of_onlyAttached Mutator.run howner hdropped .clear (.add e) .empty
    (.ofList [e]) e hdefers rfl (fun s' hs' => (stateAfter_discard _ _).trans (hadd hs'))
    (fun s' hs' => congrArg Scene.session (hclear hs')) h

end TrackedSet

/-! ### Queues -/

namespace TrackedQueue

omit [DecidableEq E] [Element E] in
/-- A value is not written for an owner that is gone. -/
theorem replacementReachesStore_of_dropped {q : TrackedQueue E} {s : Session E}
    (howner : q.tracker.owner = some o) (hdropped : s.isAlive o.id = false) :
    replacementReachesStore q s = false := by
  have hgone : (s.entity? o.id).filter (·.alive) = none := by
    unfold Session.isAlive at hdropped
    cases hentity : s.entity? o.id with
    | none => rfl
    | some entity =>
      rw [hentity] at hdropped
      exact if_neg fun halive => Bool.false_ne_true (hdropped.symm.trans halive)
  unfold replacementReachesStore
  cases hchannel : q.tracker.channel with
  | none => rfl
  | some channel =>
    obtain ⟨name, owner⟩ := channel
    obtain ⟨o', howner', rfl, -⟩ := Tracker.exists_owner_of_channel hchannel
    rw [howner] at howner'
    cases howner'
    dsimp only
    rw [hgone]

section Working

variable {start : Scene (TrackedQueue E) E} (howner : start.value.tracker.owner = some o)
  (hdropped : start.session.isAlive o.id = false)
include howner hdropped

omit [DecidableEq E] [Element E] in
/-- Telling an owner that is gone is no different from work. -/
theorem Notified.working {scene after : Scene (TrackedQueue E) E} (h : Notified scene after)
    (hscene : Working start scene) : Working start after := by
  obtain ⟨mid, hunmarked, hafter⟩ := h.session
  have hmid := hscene.session.trans hunmarked
  refine ⟨h.tracker.trans hscene.tracker, ?_⟩
  rw [hafter, hscene.tracker,
    Tracker.changed_of_dropped howner ((hmid.isAlive_eq o.id).trans hdropped)]
  exact hmid

omit [DecidableEq E] [Element E] in
/-- A call that ends with telling the owner, or was idle, marks nothing once the owner is gone. -/
theorem keeps_working {α : Type} {action : Action E α}
    (h : ∀ scene, Leads scene (Idle scene) action fun _ after =>
      Notified scene after ∨ Idle scene after) : Keeps (Working start) action := by
  intro scene hscene
  have hidle {after : Scene (TrackedQueue E) E} (hafter : Idle scene after) : Working start after :=
    ⟨hafter.tracker.trans hscene.tracker, hscene.session.trans hafter.working.session⟩
  have hleads := h scene scene (.refl scene)
  unfold stateAfter
  cases haction : action scene with
  | error failure after =>
    rw [haction] at hleads
    exact hidle hleads
  | ok answer after =>
    rw [haction] at hleads
    exact hleads.elim (fun htold => htold.working howner hdropped hscene) hidle

/-- Whatever is done with a queue whose owner is gone, nothing is marked. -/
theorem Call.keeps_working (call : Call E) : Keeps (Working start) call.run := by
  have htold {α : Type} {action : Action E α}
      (h : ∀ scene, Leads scene (Idle scene) action fun _ => Notified scene) :
      Keeps (Working start) action :=
    TrackedQueue.keeps_working howner hdropped fun scene => (h scene).mono fun _ _ => .inl
  have hsettled {action : Action E Bool}
      (h : ∀ scene, Leads scene (Idle scene) action (NotifiedOrIdle scene)) :
      Keeps (Working start) action :=
    TrackedQueue.keeps_working howner hdropped fun scene =>
      (h scene).mono fun _ _ => .imp_right And.right
  have hidle {α : Type} {action : Action E α}
      (h : ∀ scene, Leads scene (Idle scene) action fun _ => Idle scene) :
      Keeps (Working start) action :=
    TrackedQueue.keeps_working howner hdropped fun scene => (h scene).mono fun _ _ => .inr
  -- A call ends by telling the owner, who is gone, or without having done anything.
  cases call with
  | load => exact hidle fun _ => .of_idle idle_ensureLoaded
  | add e => exact (htold fun _ => leads_add e).discard
  | addAll new => exact (hsettled fun _ => leads_addAll new).discard
  | poll => exact (htold fun _ => leads_poll).discard
  | remove e => exact (htold fun _ => leads_removeWith e true).discard
  | removeWith e cascade => exact (htold fun _ => leads_removeWith e cascade).discard
  | removeAll es => exact (hsettled fun _ => leads_removeAll es).discard
  | retainAll keep => exact (hsettled fun _ => leads_retainAll keep).discard
  | clear => exact htold fun _ => leads_clear
  | attachCopy target =>
    have hattach : Keeps (Working start) (Tracked.attach target : Action E Unit) :=
      fun scene hscene => ⟨hscene.tracker,
        hscene.session.trans (Tracker.Tells.attach (t := scene.value.tracker) target _).unmarked⟩
    exact hattach.bind fun _ => Container.keeps_reconcile (hidle fun _ => leads_toList)
      (fun e => htold fun _ => leads_removeWith e false) (fun e => htold fun _ => leads_add e)
      target
  | initialiseWith new =>
    intro scene hscene
    have hgone := (hscene.session.isAlive_eq o.id).trans hdropped
    have howner' : scene.value.tracker.owner = some o := hscene.tracker ▸ howner
    rw [Call.run, stateAfter_of_ok (initialiseWith_apply new scene),
      replacementReachesStore_of_dropped howner' hgone, if_neg Bool.false_ne_true,
      Tracker.markDirty_of_dropped howner' hgone]
    exact ⟨hscene.tracker, hscene.session⟩

end Working

omit [Element E] in
/-- Clearing a queue reports it, and makes the change in the store if changes are made there right
away. -/
theorem session_clear (scene : Scene (TrackedQueue E) E) :
    (stateAfter clear scene).session =
      scene.value.tracker.changed (scene.value.tracker.forward "clear" Store.clear
        (scene.value.tracker.announce (.cleared scene.value.content.elements)
          scene.session)).2 := rfl

omit [DecidableEq E] [Element E] in
/-- A change that is made in a store right away leaves there what the call of the store leaves,
whether it fails or not. -/
theorem store_forward_of_immediate {α : Type} {name : StoreName} (howner : t.owner = some o)
    (hdispatch : t.dispatch = .immediate name) (operation : String)
    (action : ObjectId → StoreAction E α) (s : Session E) :
    (t.forward operation action s).2.store name = stateAfter (action o.id) (s.store name) := by
  have hself (store : Store E) : (s.afterCalls name store).store name = store :=
    (s.store_afterCalls name name store).trans (if_pos rfl)
  rw [Tracker.forward, hdispatch]
  dsimp only
  rw [Tracker.call, Tracker.channel, hdispatch, howner]
  dsimp only
  cases haction : action o.id (s.store name) with
  | ok answer store =>
    rw [Session.access_ok haction, stateAfter_of_ok haction]
    exact hself store
  | error error store =>
    rw [Session.access_error haction, stateAfter_of_error haction]
    exact hself store

omit [Element E] in
/-- To clear a container is to attempt a write. -/
theorem mutations_clear (owner : ObjectId) (st : Store E) :
    (stateAfter (Store.clear owner) st).mutations = st.mutations + 1 := by
  unfold stateAfter
  rw [Store.clear_eq]
  cases st.writes.now with
  | true => rfl
  | false => rfl

omit [Element E] in
/-- A store is always called to clear a queue, if changes are made there right away. -/
theorem memory_of_onlyAttached_clear {scene : Scene (TrackedQueue E) E}
    (howner : scene.value.tracker.owner = some o)
    (h : scene.session.OnlyAttached (stateAfter clear scene).session) :
    scene.value.tracker.dispatch = .memory := by
  rw [session_clear] at h
  obtain ⟨⟨t, content⟩, s⟩ := scene
  dsimp only at h howner ⊢
  cases hdispatch : t.dispatch with
  | memory => rfl
  | queued store =>
    have hforward := Tracker.Defers.forward_eq (t := t) (fun name => by rw [hdispatch]; simp)
      "clear" (Store.clear (E := E)) (t.announce (.cleared content.elements) s)
    have hpending := h.pending_eq
    rw [Tracker.pending_changed, hforward] at hpending
    have hqueued := Tracker.not_isQueued_of_pending_eq howner (List.cons_ne_nil _ _) hpending
    rw [Tracker.isQueued, hdispatch] at hqueued
    cases hqueued
  | immediate name =>
    have hstore : (t.forward "clear" Store.clear
        (t.announce (.cleared content.elements) s)).2.store name = s.store name := by
      apply Session.store_of_stores_eq
      rw [← h.stores_eq, Tracker.stores_changed]
    rw [store_forward_of_immediate howner hdispatch] at hstore
    have hmutations := congrArg Store.mutations hstore
    rw [mutations_clear,
      Session.store_of_stores_eq (Tracker.stores_announce t s _) name] at hmutations
    omega

/-- If no run leaves a trace, there was nobody but the owner to tell. -/
theorem mute_of_onlyAttached {scene : Scene (TrackedQueue E) E}
    (howner : scene.value.tracker.owner = some o) (hdropped : scene.session.isAlive o.id = false)
    (he : Element.isNull e = false)
    (h : ∀ calls, scene.session.OnlyAttached (Tracked.runAll Call.run calls scene).session) :
    scene.value.tracker.Mute o scene.session := by
  have hmemory := memory_of_onlyAttached_clear howner (h [.clear])
  obtain ⟨⟨t, content⟩, s⟩ := scene
  have hdefers : t.Defers := fun name => by rw [hmemory]; simp
  have hcheck : t.check e = .ok () := t.check_of_not_null he
  have hgone (report : Report E) {s' : Session E} (hs' : s'.isAlive o.id = false) :
      t.changed (t.announce report s') = t.announce report s' :=
    Tracker.changed_of_dropped howner
      (((Tracker.unmarked_announce t report s').isAlive_eq o.id).trans hs')
  have hprepared (content : QueueContent E) : Prepared ⟨t, content⟩ := by
    intro _
    unfold isAuthoritative hasStore Tracker.channel
    rw [hmemory]
    rfl
  let empty : QueueContent E := { content with
    elements := []
    loaded := content.loaded || content.useCache }
  let single : QueueContent E := { empty with elements := empty.order.insertAll [] [e] }
  have hsingle : single.elements = [e] := by
    simp [single, Comparator.insertAll, Comparator.insert, Comparator.partitionPoint]
  have hadd {s' : Session E} (hs' : s'.isAlive o.id = false) :
      stateAfter (add e) ⟨⟨t, empty⟩, s'⟩ = ⟨⟨t, single⟩, t.announce (.added [e]) s'⟩ := by
    have hunchecked : stateAfter (add e) ⟨⟨t, empty⟩, s'⟩ =
        stateAfter (addUnchecked "add" (Store.add · e ·) [e]) ⟨⟨t, empty⟩, s'⟩ := by
      change stateAfter (Tracked.require (t.check e) >>= fun _ => _) _ = _
      rw [hcheck]
      rfl
    rw [hunchecked, stateAfter_addUnchecked (hprepared empty), hdefers.forward_eq, hgone _ hs']
  have hclear {s' : Session E} (hs' : s'.isAlive o.id = false) :
      (stateAfter clear ⟨⟨t, single⟩, s'⟩).session = t.announce (.cleared [e]) s' := by
    rw [session_clear, hdefers.forward_eq, hgone _ hs', hsingle]
  exact Tracked.mute_of_onlyAttached Call.run howner hdropped .clear (.add e) empty single e hdefers
    rfl (fun s' hs' => (stateAfter_discard _ _).trans (hadd hs')) (fun s' hs' => hclear hs') h

/-- What runs of calls make of a queue whose owner is gone. -/
theorem orphaned {scene : Scene (TrackedQueue E) E} (howner : scene.value.tracker.owner = some o)
    (hdropped : scene.session.isAlive o.id = false) (he : Element.isNull e = false) :
    Tracked.Orphaned Call.run QueueContent.elements (scene.value.isAuthoritative = true) o
      scene := by
  let t := scene.value.tracker
  have hpeers {S : Session E → Session E → Prop} (htandem : t.Tandem t.unsetOwner S)
      (hwhole : scene.value.isAuthoritative = true) (hsession : S scene.session scene.session)
      (calls : List (Call E)) :
      Peers t t.unsetOwner S (Tracked.runAll Call.run calls scene)
        (Tracked.runAll Call.run calls (Tracked.unsetIn scene)) :=
    Lockstep.run (fun call => call.neutral htandem) calls
      ⟨⟨rfl, rfl, hwhole, rfl, rfl, rfl⟩, hsession⟩
  refine ⟨fun calls => ?_, fun hwhole calls => ?_, fun hunset => ?_, fun hnobody calls => ?_⟩
  · have hworking : Working scene (Tracked.runAll Call.run calls scene) :=
      Keeps.run (fun call _ => call.keeps_working howner hdropped) ⟨rfl, .refl _⟩
    exact hworking.session
  · have hdropped' := hpeers (Tracker.tandem_of_dropped howner hdropped) hwhole (.refl _) calls
    exact hdropped'.queues.elements
  · exact mute_of_onlyAttached howner hdropped he fun calls => (hunset calls).session
  · have hwhole : scene.value.isAuthoritative = true := by
      unfold isAuthoritative hasStore Tracker.channel
      rw [hnobody.memory]
      rfl
    have hmuted := hpeers (Tracker.tandem_of_mute howner hdropped hnobody) hwhole (.refl _) calls
    exact ⟨hmuted.sessions, hmuted.queues.elements⟩

end TrackedQueue

/-- What becomes of a container once its owner has left the memory. Take a list or a set that makes
no changes in a store right away, or any queue, in any state and any session. Whatever run of
changes follows, no field is marked and no change persisted, and a list, a set, or a queue that
holds all its elements in memory ends up with the elements that it would have without owner. All
runs pass for runs without owner, of which the session hears nothing but attachments, exactly if
there was nobody but the owner to tell: relations are not managed, changes stay in memory, and the
elements are not dependent. -/
theorem orphaned_of_dropped_owner (o : Owner) {e : E} (he : Element.isNull e = false) :
    (∀ scene : Scene (TrackedList E) E, scene.value.tracker.owner = some o →
      scene.value.tracker.Defers → scene.session.isAlive o.id = false →
      Tracked.Orphaned TrackedList.Mutator.run id True o scene) ∧
    (∀ scene : Scene (TrackedSet E) E, scene.value.tracker.owner = some o →
      scene.value.tracker.Defers → scene.session.isAlive o.id = false →
      Tracked.Orphaned TrackedSet.Mutator.run id True o scene) ∧
    ∀ scene : Scene (TrackedQueue E) E, scene.value.tracker.owner = some o →
      scene.session.isAlive o.id = false →
      Tracked.Orphaned TrackedQueue.Call.run QueueContent.elements
        (scene.value.isAuthoritative = true) o scene := by
  refine ⟨fun scene howner hdefers hdropped => ?_, fun scene howner hdefers hdropped => ?_,
    fun scene howner hdropped => TrackedQueue.orphaned howner hdropped he⟩
  · exact Tracked.orphaned_of_neutral _ howner hdropped TrackedList.Mutator.neutral
      (TrackedList.mute_of_onlyAttached howner hdropped hdefers he)
  · exact Tracked.orphaned_of_neutral _ howner hdropped TrackedSet.Mutator.neutral
      (TrackedSet.mute_of_onlyAttached howner hdropped hdefers he)

/-- Two containers whose owner is gone. A list with nobody else to tell gains an element and loses
another one, unheard; a loaded queue with a store shows what it would show without owner. -/
theorem orphaned_of_dropped_owner_mute :
    let o : Owner := { id := .ofNat 7, descriptor := { name := "scores", ordinal := ⟨2⟩ } }
    let s : Session Int32 := Session.drop {
      settings := { manageRelationships := false }
      entities := Table.empty.set o.id { typeName := "Game" } } o.id
    let l : Scene (TrackedList Int32) Int32 := ⟨⟨.unbacked o {}, [1]⟩, s⟩
    let changes : List (TrackedList.Mutator Int32) := [.add 2, .remove 1]
    let q : Scene (TrackedQueue Int32) Int32 := {
      value := {
        tracker := { owner := some o, dispatch := .immediate "scores", allowNulls := false }
        content := {
          order := fun a b => compare a.toInt b.toInt
          useCache := true
          lazily := false
          elements := [4]
          loaded := true } }
      session := s }
    let calls : List (TrackedQueue.Call Int32) := [.add 3, .poll]
    s.isAlive o.id = false ∧ l.value.tracker.Mute o s ∧
      AsUnset id l (Tracked.runAll TrackedList.Mutator.run changes l)
        (Tracked.runAll TrackedList.Mutator.run changes (Tracked.unsetIn l)) ∧
      (Tracked.runAll TrackedList.Mutator.run changes l).value.content = [2] ∧
      (Tracked.runAll TrackedQueue.Call.run calls q).value.content.elements =
        (Tracked.runAll TrackedQueue.Call.run calls
          (Tracked.unsetIn q)).value.content.elements := by
  intro o s l changes q calls
  have hmute : l.value.tracker.Mute o s := ⟨rfl, rfl, rfl⟩
  have hdefers : l.value.tracker.Defers := fun name h => by cases h
  obtain ⟨hlist, -, hqueue⟩ := orphaned_of_dropped_owner (e := (0 : Int32)) o rfl
  exact ⟨rfl, hmute, (hlist l rfl hdefers rfl).asUnset_iff.mpr hmute changes, rfl,
    (hqueue q rfl rfl).content rfl calls⟩

/-- A list whose owner is gone reports a relation change, one that queues its changes also queues an
operation, and a queue writes to its store. Without owner, none of them asks its session for
anything. -/
theorem dropped_owner_told_on :
    let o : Owner := { id := .ofNat 7, descriptor := { name := "scores", ordinal := ⟨2⟩ } }
    let s : Session Int32 := Session.drop {
      entities := Table.empty.set o.id { typeName := "Game" } } o.id
    let l : Scene (TrackedList Int32) Int32 := ⟨⟨.unbacked o {}, [1]⟩, s⟩
    let queued : Scene (TrackedList Int32) Int32 := ⟨⟨.unbacked o .queued, [1]⟩, s⟩
    let q : Scene (TrackedQueue Int32) Int32 := {
      value := {
        tracker := { owner := some o, dispatch := .immediate "scores", allowNulls := false }
        content := {
          order := fun a b => compare a.toInt b.toInt
          useCache := true
          lazily := false
          loaded := true } }
      session := s }
    let operation : Operation Int32 :=
      { owner := o.id, field := o.field, store := none, kind := .collectionAdd 2 }
    s.isAlive o.id = false ∧
      (stateAfter (TrackedList.add 2) l).session.journal = [.related o.id o.field (.added 2)] ∧
      (stateAfter (TrackedList.add 2) queued).session.pending = [operation] ∧
      ((stateAfter (TrackedQueue.add 2) q).session.store "scores").contents o.id = [2] ∧
      (stateAfter (TrackedList.add 2) (Tracked.unsetIn l)).session = s ∧
      (stateAfter (TrackedList.add 2) (Tracked.unsetIn queued)).session = s ∧
      (stateAfter (TrackedQueue.add 2) (Tracked.unsetIn q)).session = s := by
  intro o s l queued q operation
  exact ⟨rfl, rfl, rfl, rfl, rfl, rfl, rfl⟩

end TrackedFields
