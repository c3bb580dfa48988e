import Mathlib.Logic.Relation
import TrackedFields.Proofs.TrackedQueue.TrackerIndependence
import TrackedFields.TrackedTimestamp

/-!
# Without owner, nobody hears

Once its owner is unset, a tracked value is on its own. Whatever it is asked, and however often, its
session stays as it is, to the last entry of the journal, no call fails for a store, and the value
changes, answers and fails like one that never had an owner. Of a queue neither its cache nor its
loading nor the way in which its changes once reached the datastore matters any more.
-/

namespace TrackedFields

section Runs

variable {W E : Type}

/-- A question about the value alone. -/
def look {α : Type} (question : W → α) : TrackedAction W E α := return question (← get).value

/-- Unset the owner, in the middle of things. -/
def cut (unset : W → W) : TrackedAction W E Unit :=
  modify fun scene => { scene with value := unset scene.value }

/-- The same call on two values, each in a session of its own. -/
inductive BothAsked (calls : {α : Type} → TrackedAction W E α → Prop) :
    Scene W E × Scene W E → Scene W E × Scene W E → Prop where
  | call {α : Type} {action : TrackedAction W E α} (h : calls action) (scene twin : Scene W E) :
      BothAsked calls (scene, twin) (stateAfter action scene, stateAfter action twin)

/-- Two sessions are as at the start, and the values in them are the same. -/
structure Aloof (same : W → W → Prop) (start twin scene scene' : Scene W E) : Prop where
  session : scene.session = start.session
  session' : scene'.session = twin.session
  value : same scene.value scene'.value

/-- Nobody hears of a value. After any run of calls on it and on its twin, every further call
answers the same to both or fails the same on both, never for a store, and leaves both sessions as
at the start and both values the same. -/
def Unheard (calls : {α : Type} → TrackedAction W E α → Prop) (same : W → W → Prop)
    (start twin : Scene W E) : Prop :=
  ∀ scene scene', Relation.ReflTransGen (BothAsked calls) (start, twin) (scene, scene') →
    Aloof same start twin scene scene' ∧
    ∀ (α : Type) (action : TrackedAction W E α), calls action →
      Agree (Aloof same start twin)
        (fun failure failure' => failure = failure' ∧ ∀ error, failure ≠ .store error) Eq
        (action scene) (action scene')

/-- Nobody hears of a value if every call on it and on its twin keeps them in a relation that says
so. -/
theorem Unheard.of_lockstep {calls : {α : Type} → TrackedAction W E α → Prop}
    {same : W → W → Prop} {start twin : Scene W E} {R : Scene W E → Scene W E → Prop}
    {F : Failure → Failure → Prop} (hstart : R start twin)
    (haloof : ∀ scene scene', R scene scene' → Aloof same start twin scene scene')
    (hfailures : ∀ failure failure', F failure failure' →
      failure = failure' ∧ ∀ error, failure ≠ .store error)
    (hcalls : ∀ {α : Type} {action : TrackedAction W E α}, calls action →
      Lockstep R F Eq action action) : Unheard calls same start twin := by
  intro scene scene' hrun
  have hrelated : R scene scene' := by
    generalize hpair : (scene, scene') = pair at hrun
    induction hrun generalizing scene scene' with
    | refl =>
      cases hpair
      exact hstart
    | tail _ step ih =>
      cases step with
      | call h _ _ =>
        cases hpair
        exact (hcalls h).stateAfter (ih _ _ rfl)
  exact ⟨haloof _ _ hrelated, fun α action h =>
    (hcalls h scene scene' hrelated).imp haloof hfailures⟩

end Runs

/-! ### Timestamps -/

namespace TrackedTimestamp

variable {E : Type}

/-- What a timestamp field offers. -/
inductive Public : {α : Type} → Action E α → Prop where
  | look {α : Type} (question : TrackedTimestamp → α) : Public (look question)
  | edit (e : Timestamp.Edit) : Public (edit e)
  | initialiseFrom (value : Timestamp) : Public (initialiseFrom value)
  | attachCopy (value : Timestamp) : Public (attachCopy value)
  | makeDirty : Public makeDirty
  | unsetOwner : Public (cut unsetOwner)

/-- The same timestamp without owner, in two sessions. -/
def Severed (s s' : Session E) (scene scene' : Scene TrackedTimestamp E) : Prop :=
  ∃ value, scene = ⟨unowned value, s⟩ ∧ scene' = ⟨unowned value, s'⟩

/-- A timestamp without owner fails for its value alone, and the same in any session. -/
def ValueFailure (failure failure' : Failure) : Prop :=
  failure = failure' ∧ ∀ error, failure ≠ .store error

section Severed

variable {s s' : Session E}

/-- Reading the timestamp. -/
theorem severed_current : Lockstep (Severed s s') ValueFailure Eq current current := by
  rintro _ _ ⟨value, rfl, rfl⟩
  exact .ok rfl ⟨value, rfl, rfl⟩

/-- Taking over a timestamp. -/
theorem severed_initialiseFrom (value : Timestamp) :
    Lockstep (Severed s s') ValueFailure Eq (initialiseFrom value) (initialiseFrom value) := by
  rintro _ _ ⟨_, rfl, rfl⟩
  exact .ok rfl ⟨value, rfl, rfl⟩

/-- A dirty mark without an owner to carry it. -/
theorem severed_makeDirty : Lockstep (Severed s s') ValueFailure Eq makeDirty makeDirty := by
  rintro _ _ ⟨value, rfl, rfl⟩
  exact .ok rfl ⟨value, rfl, rfl⟩

/-- Editing: only the timestamp decides whether the edit is valid. -/
theorem severed_edit (e : Timestamp.Edit) :
    Lockstep (Severed s s') ValueFailure Eq (edit e) (edit e) := by
  apply Lockstep.bind severed_current
  rintro t _ rfl
  cases e.apply t.value with
  | error failure => exact .throw ⟨rfl, fun _ h => by cases h⟩
  | ok value => exact Lockstep.bind (severed_initialiseFrom value) fun _ _ _ => severed_makeDirty

/-- Attaching a timestamp. -/
theorem severed_attachCopy (value : Timestamp) :
    Lockstep (Severed s s') ValueFailure Eq (attachCopy value) (attachCopy value) := by
  apply Lockstep.bind severed_current
  rintro t _ rfl
  cases differInMillis t.value value with
  | error failure => exact .throw ⟨rfl, fun _ h => by cases h⟩
  | ok different =>
    exact Lockstep.bind (severed_initialiseFrom value) fun _ _ _ =>
      Lockstep.ite severed_makeDirty (.pure rfl)

/-- Without owner, every call on a timestamp does the same in any session. -/
theorem Public.lockstep {α : Type} {action : Action E α} (h : Public action) :
    Lockstep (Severed s s') ValueFailure Eq action action := by
  cases h with
  | look question =>
    rintro _ _ ⟨value, rfl, rfl⟩
    exact .ok rfl ⟨value, rfl, rfl⟩
  | edit e => exact severed_edit e
  | initialiseFrom value => exact severed_initialiseFrom value
  | attachCopy value => exact severed_attachCopy value
  | makeDirty => exact severed_makeDirty
  | unsetOwner =>
    rintro _ _ ⟨value, rfl, rfl⟩
    exact .ok rfl ⟨value, rfl, rfl⟩

end Severed

end TrackedTimestamp

/-! ### Containers in memory -/

namespace Tracked

variable {C E α : Type} {t : Tracker} {S : Session E → Session E → Prop}

/-- Peers with one tracker are equal. -/
theorem Peers.value_eq {scene scene' : Scene (Tracked C) E} (h : Peers t t S scene scene') :
    scene.value = scene'.value :=
  calc
    scene.value = ⟨scene.value.tracker, scene.value.content⟩ := rfl
    _ = ⟨scene'.value.tracker, scene'.value.content⟩ := by rw [h.tracker, h.tracker', h.content]
    _ = scene'.value := rfl

/-- What is asked about the value alone is asked of equal values. -/
theorem Neutral.look (question : Tracked C → α) :
    Neutral t t S (TrackedFields.look question : TrackedAction (Tracked C) E α) :=
  fun _ _ h => .ok (congrArg question h.value_eq) h

/-- Unsetting the owner again changes nothing. -/
theorem cut_of_unset {scene : Scene (Tracked C) E}
    (hcut : scene.value.tracker.unsetOwner = scene.value.tracker) :
    cut Tracked.unsetOwner scene = .ok () scene := by
  have hvalue : Tracked.unsetOwner scene.value = scene.value := by
    unfold Tracked.unsetOwner
    rw [hcut]
  change EStateM.Result.ok () { scene with value := Tracked.unsetOwner scene.value } = _
  rw [hvalue]

/-- Unsetting the owners of peers again. -/
theorem Neutral.cut (hcut : t.unsetOwner = t) :
    Neutral t t S (TrackedFields.cut Tracked.unsetOwner : TrackedAction (Tracked C) E Unit) := by
  intro scene scene' h
  rw [cut_of_unset (h.tracker.symm ▸ hcut), cut_of_unset (h.tracker'.symm ▸ hcut)]
  exact .ok rfl h

/-- Without owner, elements are left alone. -/
theorem detach_of_severed [Element E] {scene : Scene (Tracked C) E}
    (howner : scene.value.tracker.owner = none) (es : List E) (seen : Detachment) :
    Tracked.detach es seen scene = .ok seen scene := by
  unfold Tracked.detach ask Tracker.detach
  simp only [howner]

/-- Copying elements without owner. -/
theorem Neutral.detach [Element E] (howner : t.owner = none) (es : List E) (seen : Detachment) :
    Neutral t t S (Tracked.detach es seen : TrackedAction (Tracked C) E Detachment) := by
  intro scene scene' h
  rw [detach_of_severed (h.tracker ▸ howner), detach_of_severed (h.tracker' ▸ howner)]
  exact .ok rfl h

/-- The relation between two sessions that both stay as they are. -/
def Still (s s' now now' : Session E) : Prop := now = s ∧ now' = s'

/-- Nobody hears of a container without owner whose calls are all neutral. -/
theorem unheard_of_neutral {calls : {α : Type} → TrackedAction (Tracked C) E α → Prop}
    (value : Tracked C) (s s' : Session E)
    (hcalls : ∀ {α : Type} {action : TrackedAction (Tracked C) E α}, calls action →
      Neutral value.tracker value.tracker (Still s s') action) :
    Unheard calls Eq ⟨value, s⟩ ⟨value, s'⟩ := by
  have hstart : Peers value.tracker value.tracker (Still s s') ⟨value, s⟩ ⟨value, s'⟩ :=
    ⟨rfl, rfl, rfl, rfl, rfl⟩
  exact .of_lockstep hstart (fun _ _ h => ⟨h.sessions.1, h.sessions.2, h.value_eq⟩)
    (fun _ _ h => Tracker.Refusal.eq h) hcalls

end Tracked

variable {E : Type} [DecidableEq E] [Element E]

namespace TrackedList

open Tracked (Neutral)

/-- What a list offers. -/
inductive Public : {α : Type} → Action E α → Prop where
  | look {α : Type} (question : TrackedList E → α) : Public (look question)
  | slice (start stop : Nat) : Public (Tracked.inspect (slice · start stop))
  | initialiseFrom (es : List E) : Public (initialiseFrom es)
  | updateEmbedded (dirty : Bool) : Public (updateEmbedded dirty)
  | detachCopy (seen : Detachment) : Public (detachCopy seen)
  | attachCopy (target : List E) : Public (attachCopy target)
  | reconcile (attached : List E) : Public (Container.reconcile attached)
  | makeDirty : Public Tracked.makeDirty
  | unsetOwner : Public (cut Tracked.unsetOwner)
  | add (e : E) : Public (add e)
  | addAll (new : List E) : Public (addAll new)
  | insert (index : Nat) (e : E) : Public (insert index e)
  | insertAll (index : Nat) (new : List E) : Public (insertAll index new)
  | remove (e : E) : Public (remove e)
  | removeWith (e : E) (cascade : Bool) : Public (removeWith e cascade)
  | removeAt (index : Nat) : Public (removeAt index)
  | set (index : Nat) (e : E) : Public (set index e)
  | setWith (index : Nat) (e : E) (cascade : Bool) : Public (setWith index e cascade)
  | removeAll (es : List E) : Public (removeAll es)
  | retainAll (keep : List E) : Public (retainAll keep)
  | clear : Public clear
  | sortBy (cmp : Comparator E) : Public (sortBy cmp)

omit [DecidableEq E] [Element E] in
/-- A range is refused by equal lists for the same reason. -/
theorem neutral_slice {t : Tracker} {S : Session E → Session E → Prop} (start stop : Nat) :
    Neutral t t S (Tracked.inspect (slice (E := E) · start stop)) := by
  intro scene scene' h
  unfold Tracked.inspect
  rw [h.value_eq]
  by_cases hrange : start ≤ stop ∧ stop ≤ scene'.value.content.length
  · simp only [slice, if_pos hrange]
    exact .ok rfl h
  · simp only [slice, if_neg hrange]
    exact .error (.position stop _) h

/-- Without owner, every call on a list is neutral. -/
theorem Public.neutral {t : Tracker} {S : Session E → Session E → Prop} (howner : t.owner = none)
    (hcut : t.unsetOwner = t) {α : Type} {action : Action E α} (h : Public action) :
    Neutral t t S action := by
  have htandem : t.Tandem t S := Tracker.tandem_of_severed howner howner rfl S
  cases h with
  | look question => exact .look question
  | slice start stop => exact neutral_slice start stop
  | initialiseFrom es => exact .setContent es
  | updateEmbedded dirty => exact .ite (.makeDirty htandem) (.pure _)
  | detachCopy seen =>
    exact Neutral.content?.bind fun es => (Neutral.detach howner es seen).bind fun _ => .pure _
  | attachCopy target => exact neutral_attachCopy htandem target
  | reconcile attached =>
    exact Container.neutral_reconcile .content? (fun e => neutral_removeWith htandem e false)
      (neutral_add htandem) attached
  | makeDirty => exact .makeDirty htandem
  | unsetOwner => exact .cut hcut
  | add e => exact neutral_add htandem e
  | addAll new => exact neutral_addAll htandem new
  | insert index e => exact neutral_insert htandem index e
  | insertAll index new => exact neutral_insertAll htandem index new
  | remove e => exact neutral_removeWith htandem e true
  | removeWith e cascade => exact neutral_removeWith htandem e cascade
  | removeAt index => exact neutral_removeAtWith htandem index true
  | set index e => exact neutral_setWith htandem index e true
  | setWith index e cascade => exact neutral_setWith htandem index e cascade
  | removeAll es => exact neutral_removeWhere htandem es.contains
  | retainAll keep => exact neutral_removeWhere htandem fun e => !keep.contains e
  | clear => exact neutral_clear htandem
  | sortBy cmp => exact neutral_reorder htandem cmp.sort

end TrackedList

namespace TrackedSet

open Tracked (Neutral)

/-- What a set offers. -/
inductive Public : {α : Type} → Action E α → Prop where
  | look {α : Type} (question : TrackedSet E → α) : Public (look question)
  | initialiseFrom (es : List E) : Public (initialiseFrom es)
  | updateEmbedded (dirty : Bool) : Public (updateEmbedded dirty)
  | detachCopy (seen : Detachment) : Public (detachCopy seen)
  | attachCopy (target : ElementSet E) : Public (attachCopy target)
  | reconcile (attached : List E) : Public (Container.reconcile attached)
  | makeDirty : Public Tracked.makeDirty
  | unsetOwner : Public (cut Tracked.unsetOwner)
  | add (e : E) : Public (add e)
  | addAll (es : List E) : Public (addAll es)
  | remove (e : E) : Public (remove e)
  | removeWith (e : E) (cascade : Bool) : Public (removeWith e cascade)
  | removeAll (es : List E) : Public (removeAll es)
  | retainAll (keep : List E) : Public (retainAll keep)
  | clear : Public clear

/-- Without owner, every call on a set is neutral. -/
theorem Public.neutral {t : Tracker} {S : Session E → Session E → Prop} (howner : t.owner = none)
    (hcut : t.unsetOwner = t) {α : Type} {action : Action E α} (h : Public action) :
    Neutral t t S action := by
  have htandem : t.Tandem t S := Tracker.tandem_of_severed howner howner rfl S
  cases h with
  | look question => exact .look question
  | initialiseFrom es => exact .setContent (ElementSet.ofList es)
  | updateEmbedded dirty => exact .ite (.makeDirty htandem) (.pure _)
  | detachCopy seen =>
    exact Neutral.content?.bind fun members =>
      (Neutral.detach howner members.toList seen).bind fun _ => .pure _
  | attachCopy target => exact neutral_attachCopy htandem target
  | reconcile attached => exact neutral_reconcile htandem attached
  | makeDirty => exact .makeDirty htandem
  | unsetOwner => exact .cut hcut
  | add e => exact neutral_addAll htandem [e]
  | addAll es => exact neutral_addAll htandem es
  | remove e => exact neutral_removeListed htandem [e] true
  | removeWith e cascade => exact neutral_removeListed htandem [e] cascade
  | removeAll es => exact neutral_removeListed htandem es true
  | retainAll keep => exact neutral_retainAll htandem keep
  | clear => exact neutral_clear htandem

end TrackedSet

namespace TrackedQueue

/-- What a queue offers. Its description apart, which tells whether the queue uses its cache, what
is asked about the queue alone is asked about its tracker, its order and its elements. -/
inductive Public : {α : Type} → Action E α → Prop where
  | look {α : Type} (question : Tracker → Comparator E → List E → α) :
      Public (look fun q => question q.tracker q.content.order q.content.elements)
  | isLoaded : Public (TrackedFields.look isAuthoritative)
  | length : Public length
  | isEmpty : Public isEmpty
  | contains (e : E) : Public (contains e)
  | containsAll (es : List E) : Public (containsAll es)
  | toList : Public toList
  | snapshot : Public snapshot
  | toJson (encode : E → Json) : Public (toJson encode)
  | peek : Public peek
  | load : Public ensureLoaded
  | loadFromStore : Public loadFromStore
  | initialise : Public initialise
  | initialiseFrom (es : List E) : Public (initialiseFrom es)
  | initialiseWith (es : List E) : Public (initialiseWith es)
  | updateEmbedded (e : E) (field : FieldOrdinal) (dirty : Bool) :
      Public (updateEmbedded e field dirty)
  | detachCopy (seen : Detachment) : Public (detachCopy seen)
  | attachCopy (target : List E) : Public (attachCopy target)
  | reconcile (attached : List E) : Public (Container.reconcile attached)
  | makeDirty : Public Tracked.makeDirty
  | unsetOwner : Public (cut Tracked.unsetOwner)
  | add (e : E) : Public (add e)
  | addAll (new : List E) : Public (addAll new)
  | poll : Public poll
  | remove (e : E) : Public (remove e)
  | removeWith (e : E) (cascade : Bool) : Public (removeWith e cascade)
  | removeAll (es : List E) : Public (removeAll es)
  | retainAll (keep : List E) : Public (retainAll keep)
  | clear : Public clear

/-- Queues with one tracker and one order that hold the same. They may differ in their cache. -/
structure Same (q q' : TrackedQueue E) : Prop where
  tracker : q.tracker = q'.tracker
  order : q.content.order = q'.content.order
  elements : q.content.elements = q'.content.elements

section Severed

variable {t : Tracker} {S : Session E → Session E → Prop} {α : Type}

omit [DecidableEq E] [Element E] in
/-- A change that is not made right away is answered from memory. -/
theorem Neutral.of_severed (hdefers : t.Defers) {action action' : Action E α}
    (h : Neutral t t S (Answered t t) action action') : Neutral t t S Eq action action' :=
  Lockstep.mono h fun _ _ hanswer => hanswer hdefers hdefers

omit [DecidableEq E] [Element E] in
/-- Preparing a fresh queue has nothing to load. -/
theorem neutral_initialise : Neutral t t S Eq (initialise (E := E)) initialise := by
  have hskip (scene : Scene (TrackedQueue E) E) (h : scene.value.isAuthoritative = true) :
      initialise scene = .ok () scene := by
    unfold initialise
    rw [bind_apply]
    change (if _ then loadFromStore else pure () : Action E Unit) scene = _
    split
    · exact loadFromStore_of_whole h
    · rfl
  intro scene scene' h
  rw [hskip scene h.queues.whole, hskip scene' h.queues.whole']
  exact .ok rfl h

omit [DecidableEq E] [Element E] in
/-- Taking over a value that the store holds already. -/
theorem neutral_initialiseFrom (es : List E) :
    Neutral t t S Eq (initialiseFrom es) (initialiseFrom es) := by
  intro scene scene' h
  have hsame : initialiseFrom es scene' = .ok () { scene' with
      value := { scene'.value with content := { scene'.value.content with
        elements := scene.value.content.order.sort es
        loaded := scene'.value.content.loaded || scene'.value.content.useCache } } } := by
    rw [h.queues.order]
    rfl
  rw [hsame]
  exact .ok rfl ⟨h.queues.hold _ (fun hloaded => by rw [hloaded, Bool.true_or])
    (fun hloaded => by rw [hloaded, Bool.true_or]), h.sessions⟩

omit [DecidableEq E] in
/-- Without owner, elements are left alone. -/
theorem neutral_detachCopy (howner : t.owner = none) (seen : Detachment) :
    Neutral t t S Eq (detachCopy seen) (detachCopy seen) := by
  apply Lockstep.bind neutral_snapshot
  rintro es _ rfl scene scene' h
  have hdetach (scene : Scene (TrackedQueue E) E) (htracker : scene.value.tracker = t) :
      Tracked.detach es seen scene = .ok seen scene :=
    Tracked.detach_of_severed (htracker ▸ howner) es seen
  rw [bind_apply, bind_apply, hdetach scene h.queues.tracker, hdetach scene' h.queues.tracker']
  exact .ok rfl h

/-- Without owner, every call on a queue that was unset is neutral. -/
theorem Public.neutral (howner : t.owner = none) (hcut : t.unsetOwner = t) {action : Action E α}
    (h : Public action) : Neutral t t S Eq action action := by
  have htandem : t.Tandem t S := Tracker.tandem_of_severed howner howner rfl S
  have hdefers : t.Defers := by
    intro name
    rw [← hcut]
    exact fun h => by cases h
  cases h with
  | look question =>
    intro scene scene' h
    refine .ok ?_ h
    dsimp only
    rw [h.queues.tracker, h.queues.tracker', h.queues.order, h.queues.elements]
  | isLoaded => exact fun _ _ h => .ok (h.queues.whole.trans h.queues.whole'.symm) h
  | length => exact neutral_length
  | isEmpty =>
    apply Lockstep.bind neutral_length
    rintro n _ rfl
    exact .pure rfl
  | contains e => exact neutral_contains e
  | containsAll es =>
    apply Lockstep.bind neutral_toList
    rintro held _ rfl
    exact .pure rfl
  | toList => exact neutral_toList
  | snapshot => exact neutral_snapshot
  | toJson encode =>
    apply Lockstep.bind neutral_snapshot
    rintro held _ rfl
    exact .pure rfl
  | peek => exact neutral_peek
  | load => exact neutral_ensureLoaded
  | loadFromStore => exact neutral_loadFromStore
  | initialise => exact neutral_initialise
  | initialiseFrom es => exact neutral_initialiseFrom es
  | initialiseWith es => exact Lockstep.mono (neutral_initialiseWith htandem es) fun _ _ _ => rfl
  | updateEmbedded e field dirty =>
    exact Lockstep.mono (neutral_updateEmbedded htandem e field dirty) fun _ _ _ => rfl
  | detachCopy seen => exact neutral_detachCopy howner seen
  | attachCopy target => exact Lockstep.mono (neutral_attachCopy htandem target) fun _ _ _ => rfl
  | reconcile attached =>
    exact Lockstep.mono (neutral_reconcile htandem attached) fun _ _ _ => rfl
  | makeDirty => exact Lockstep.mono (neutral_makeDirty htandem) fun _ _ _ => rfl
  | unsetOwner =>
    intro scene scene' h
    rw [Tracked.cut_of_unset (h.queues.tracker.symm ▸ hcut),
      Tracked.cut_of_unset (h.queues.tracker'.symm ▸ hcut)]
    exact .ok rfl h
  | add e => exact .of_severed hdefers (neutral_add htandem e)
  | addAll new => exact .of_severed hdefers (neutral_addAll htandem new)
  | poll => exact .of_severed hdefers (neutral_poll htandem)
  | remove e => exact .of_severed hdefers (neutral_removeWith htandem e true)
  | removeWith e cascade => exact .of_severed hdefers (neutral_removeWith htandem e cascade)
  | removeAll es => exact .of_severed hdefers (neutral_removeAll htandem es)
  | retainAll keep => exact .of_severed hdefers (neutral_retainAll htandem keep)
  | clear => exact Lockstep.mono (neutral_clear htandem) fun _ _ _ => rfl

end Severed

/-- Nobody hears of a queue whose owner was unset, whatever its twin without owner makes of its
cache. -/
theorem unheard_of_severed {t : Tracker} (howner : t.owner = none) (hcut : t.unsetOwner = t)
    (content content' : QueueContent E) (horder : content.order = content'.order)
    (helements : content.elements = content'.elements) (s s' : Session E) :
    Unheard Public Same ⟨⟨t, content⟩, s⟩ ⟨⟨t, content'⟩, s'⟩ := by
  have hwhole (content : QueueContent E) : isAuthoritative ⟨t, content⟩ = true := by
    unfold isAuthoritative hasStore
    rw [Tracker.channel_of_severed howner]
    rfl
  have hstart : Peers t t (Tracked.Still s s') ⟨⟨t, content⟩, s⟩ ⟨⟨t, content'⟩, s'⟩ :=
    ⟨⟨rfl, rfl, hwhole content, hwhole content', horder, helements⟩, rfl, rfl⟩
  apply Unheard.of_lockstep (F := t.NullRefusal t) hstart
  · exact fun scene scene' h => ⟨h.sessions.1, h.sessions.2,
      h.queues.tracker.trans h.queues.tracker'.symm, h.queues.order, h.queues.elements⟩
  · exact fun _ _ h => Tracker.Refusal.eq (.null h)
  · exact fun h => h.neutral howner hcut

end TrackedQueue

/-- The tracker of a container that never had an owner. -/
def Tracker.independent (allowNulls : Bool) : Tracker := { Tracker.unowned with allowNulls }

/-- After its owner was unset, nobody hears of a tracked value. Take a timestamp, a list, a set or a
queue in any state, in any session, unset its owner, and make any run of calls on it. No call fails
for a store, and the session stays as it was when the owner was unset: no field is marked, no change
persisted, no relation told, no operation queued, no record deleted, no element detached or attached
and no store called. All the while the value answers, fails and changes like one that never had an
owner, in a session of its own, with the same content and null policy, and for a queue with the same
order, whatever that one makes of its cache. -/
theorem unset_owner_unheard (s elsewhere : Session E) :
    (∀ t : TrackedTimestamp, Unheard TrackedTimestamp.Public Eq
      ⟨t.unsetOwner, s⟩ ⟨.unowned t.value, elsewhere⟩) ∧
    (∀ l : TrackedList E, Unheard TrackedList.Public Eq
      ⟨l.unsetOwner, s⟩ ⟨⟨.independent l.tracker.allowNulls, l.content⟩, elsewhere⟩) ∧
    (∀ w : TrackedSet E, Unheard TrackedSet.Public Eq
      ⟨w.unsetOwner, s⟩ ⟨⟨.independent w.tracker.allowNulls, w.content⟩, elsewhere⟩) ∧
    ∀ (q : TrackedQueue E) (useCache lazily loaded : Bool),
      Unheard TrackedQueue.Public TrackedQueue.Same
        ⟨q.unsetOwner, s⟩
        ⟨⟨.independent q.tracker.allowNulls, { q.content with useCache, lazily, loaded }⟩,
          elsewhere⟩ := by
  refine ⟨fun t => ?_, fun l => ?_, fun w => ?_, fun q useCache lazily loaded => ?_⟩
  · apply Unheard.of_lockstep (R := TrackedTimestamp.Severed s elsewhere) ⟨t.value, rfl, rfl⟩
    · rintro _ _ ⟨value, rfl, rfl⟩
      exact ⟨rfl, rfl, rfl⟩
    · exact fun _ _ h => h
    · exact fun h => h.lockstep
  · exact Tracked.unheard_of_neutral l.unsetOwner s elsewhere fun h => h.neutral rfl rfl
  · exact Tracked.unheard_of_neutral w.unsetOwner s elsewhere fun h => h.neutral rfl rfl
  · exact TrackedQueue.unheard_of_severed (t := .independent q.tracker.allowNulls) rfl rfl q.content
      { q.content with useCache, lazily, loaded } rfl rfl s elsewhere

end TrackedFields
