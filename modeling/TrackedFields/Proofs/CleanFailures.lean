import TrackedFields.Proofs.TrackedQueue.CleanFailures
import TrackedFields.TrackedList.Basic
import TrackedFields.TrackedSet

/-!
# Containers fail without a trace

Whatever a list, a set or a priority queue offers, attaching apart, fails before its first effect: a
null element is refused, a position lies past the end, or a store cannot be read. Then the container
and its session are as before, in whatever state they were; only the calls that were tried are on
record. Attaching is made of several changes, of which the first ones stand when a later one fails.
-/

namespace TrackedFields

variable {E : Type} [DecidableEq E] [Element E]

namespace TrackedList

/-- What a list offers, attaching apart. -/
inductive Offers : {α : Type} → Action E α → Prop where
  | inspect {α : Type} (question : TrackedList E → Except Failure α) :
      Offers (Tracked.inspect question)
  | initialiseFrom (es : List E) : Offers (initialiseFrom es)
  | updateEmbedded (dirty : Bool) : Offers (updateEmbedded dirty)
  | detachCopy (seen : Detachment) : Offers (detachCopy seen)
  | add (e : E) : Offers (add e)
  | addAll (new : List E) : Offers (addAll new)
  | insert (index : Nat) (e : E) : Offers (insert index e)
  | insertAll (index : Nat) (new : List E) : Offers (insertAll index new)
  | remove (e : E) : Offers (remove e)
  | removeWith (e : E) (cascade : Bool) : Offers (removeWith e cascade)
  | removeAt (index : Nat) : Offers (removeAt index)
  | set (index : Nat) (e : E) : Offers (set index e)
  | setWith (index : Nat) (e : E) (cascade : Bool) : Offers (setWith index e cascade)
  | removeAll (es : List E) : Offers (removeAll es)
  | retainAll (keep : List E) : Offers (retainAll keep)
  | clear : Offers clear
  | sortBy (cmp : Comparator E) : Offers (sortBy cmp)

/-- What a list offers fails without a trace. -/
theorem failsCleanly_of_offers {α : Type} {action : Action E α} (h : Offers action) :
    FailsCleanly action := by
  have hwhere (doomed : E → Bool) : FailsCleanly (removeWhere doomed) :=
    Tracked.failsCleanly_mutate _
  have hwith (index : Nat) (e : E) (cascade : Bool) : FailsCleanly (setWith index e cascade) :=
    Tracked.failsCleanly_mutate _
  have hvalue (e : E) (cascade : Bool) : FailsCleanly (removeWith e cascade) :=
    Tracked.failsCleanly_mutate _
  have hindex (index : Nat) (cascade : Bool) : FailsCleanly (removeAtWith (E := E) index cascade) :=
    Tracked.failsCleanly_mutate _
  have hreorder (arrange : List E → List E) : FailsCleanly (reorder arrange) :=
    Tracked.failsCleanly_mutate _
  cases h with
  | inspect question => exact (Tracked.looks_inspect question).failsCleanly
  | initialiseFrom es => exact (Total.modify _).failsCleanly
  | updateEmbedded dirty => exact (Tracked.total_dirtyIf dirty).failsCleanly
  | detachCopy seen =>
    exact Tracked.looks_content.bind_failsCleanly fun _ =>
      ((Tracked.total_ask _).bind fun _ => .pure _).failsCleanly
  | add e => exact Tracked.failsCleanly_mutate _
  | addAll new => exact Tracked.failsCleanly_mutate _
  | insert index e => exact Tracked.failsCleanly_mutate _
  | insertAll index new => exact Tracked.failsCleanly_mutate _
  | remove e => exact hvalue e true
  | removeWith e cascade => exact hvalue e cascade
  | removeAt index => exact hindex index true
  | set index e => exact hwith index e true
  | setWith index e cascade => exact hwith index e cascade
  | removeAll es => exact hwhere es.contains
  | retainAll keep => exact hwhere fun e => !keep.contains e
  | clear => exact Tracked.failsCleanly_mutate _
  | sortBy cmp => exact hreorder cmp.sort

end TrackedList

namespace TrackedSet

/-- What a set offers, attaching apart. -/
inductive Offers : {α : Type} → Action E α → Prop where
  | inspect {α : Type} (question : TrackedSet E → Except Failure α) :
      Offers (Tracked.inspect question)
  | initialiseFrom (es : List E) : Offers (initialiseFrom es)
  | updateEmbedded (dirty : Bool) : Offers (updateEmbedded dirty)
  | detachCopy (seen : Detachment) : Offers (detachCopy seen)
  | add (e : E) : Offers (add e)
  | addAll (es : List E) : Offers (addAll es)
  | remove (e : E) : Offers (remove e)
  | removeWith (e : E) (cascade : Bool) : Offers (removeWith e cascade)
  | removeAll (es : List E) : Offers (removeAll es)
  | retainAll (keep : List E) : Offers (retainAll keep)
  | clear : Offers clear

/-- What a set offers fails without a trace. -/
theorem failsCleanly_of_offers {α : Type} {action : Action E α} (h : Offers action) :
    FailsCleanly action := by
  have hadd (es : List E) : FailsCleanly (addAll es) := Tracked.failsCleanly_mutate _
  have hremove (es : List E) (cascade : Bool) : FailsCleanly (removeListed es cascade) :=
    Tracked.failsCleanly_mutate _
  cases h with
  | inspect question => exact (Tracked.looks_inspect question).failsCleanly
  | initialiseFrom es => exact (Total.modify _).failsCleanly
  | updateEmbedded dirty => exact (Tracked.total_dirtyIf dirty).failsCleanly
  | detachCopy seen =>
    exact Tracked.looks_content.bind_failsCleanly fun _ =>
      ((Tracked.total_ask _).bind fun _ => .pure _).failsCleanly
  | add e => exact hadd [e]
  | addAll es => exact hadd es
  | remove e => exact hremove [e] true
  | removeWith e cascade => exact hremove [e] cascade
  | removeAll es => exact hremove es true
  | retainAll keep => exact Tracked.failsCleanly_mutate _
  | clear => exact Tracked.failsCleanly_mutate _

end TrackedSet

namespace TrackedQueue

/-- What a queue offers, attaching apart. -/
inductive Offers : {α : Type} → Action E α → Prop where
  | inspect {α : Type} (question : TrackedQueue E → Except Failure α) :
      Offers (Tracked.inspect question)
  | initialise : Offers initialise
  | initialiseFrom (es : List E) : Offers (initialiseFrom es)
  | initialiseWith (es : List E) : Offers (initialiseWith es)
  | load : Offers ensureLoaded
  | loadFromStore : Offers loadFromStore
  | length : Offers length
  | isEmpty : Offers isEmpty
  | contains (e : E) : Offers (contains e)
  | containsAll (es : List E) : Offers (containsAll es)
  | toList : Offers toList
  | snapshot : Offers snapshot
  | toJson (encode : E → Json) : Offers (toJson encode)
  | peek : Offers peek
  | detachCopy (seen : Detachment) : Offers (detachCopy seen)
  | updateEmbedded (e : E) (field : FieldOrdinal) (dirty : Bool) :
      Offers (updateEmbedded e field dirty)
  | add (e : E) : Offers (add e)
  | addAll (new : List E) : Offers (addAll new)
  | poll : Offers poll
  | remove (e : E) : Offers (remove e)
  | removeWith (e : E) (cascade : Bool) : Offers (removeWith e cascade)
  | removeAll (es : List E) : Offers (removeAll es)
  | retainAll (keep : List E) : Offers (retainAll keep)
  | clear : Offers clear

/-- What a queue offers fails without a trace. -/
theorem failsCleanly_of_offers {α : Type} {action : Action E α} (h : Offers action) :
    FailsCleanly action := by
  cases h with
  | inspect question => exact (Tracked.looks_inspect question).failsCleanly
  | initialise =>
    refine Tracked.looks_content.bind_failsCleanly fun _ => ?_
    exact .ite failsCleanly_loadFromStore (Looks.pure _).failsCleanly
  | initialiseFrom es =>
    exact Tracked.looks_content.bind_failsCleanly fun _ => (Total.modify _).failsCleanly
  | initialiseWith es => exact (total_initialiseWith es).failsCleanly
  | load => exact prepares_ensureLoaded.failsCleanly
  | loadFromStore => exact failsCleanly_loadFromStore
  | length => exact looks_length.failsCleanly
  | isEmpty => exact (looks_length.bind fun _ => .pure _).failsCleanly
  | contains e => exact (looks_contains e).failsCleanly
  | containsAll es =>
    exact prepares_toList.bind_failsCleanly (fun _ => .pure _) fun _ => (Looks.pure _).failsCleanly
  | toList => exact prepares_toList.failsCleanly
  | snapshot => exact prepares_snapshot.failsCleanly
  | toJson encode =>
    exact prepares_snapshot.bind_failsCleanly (fun _ => .pure _) fun _ =>
      (Looks.pure _).failsCleanly
  | peek => exact prepares_peek.failsCleanly
  | detachCopy seen =>
    exact prepares_snapshot.bind_failsCleanly
      (fun _ => (assured_ask _).bind fun _ => .pure _)
      fun _ => ((Tracked.total_ask _).bind fun _ => .pure _).failsCleanly
  | updateEmbedded e field dirty => exact (total_updateEmbedded e field dirty).failsCleanly
  | add e => exact failsCleanly_add e
  | addAll new => exact failsCleanly_addAll new
  | poll => exact failsCleanly_poll
  | remove e => exact failsCleanly_removeWith e true
  | removeWith e cascade => exact failsCleanly_removeWith e cascade
  | removeAll es => exact failsCleanly_removeAll es
  | retainAll keep => exact failsCleanly_retainAll keep
  | clear => exact total_clear.failsCleanly

end TrackedQueue

/-- Failures leave no trace. Whatever a list, a set or a queue offers, attaching apart, in whatever
state the container, its session and the stores are, and whichever store calls are rejected: where
it fails, the content of the container is as before and whether it was loaded, and so are the
waiting operations, the dirty marks of all entities, the containers and the deletions of every
store, the relation changes and the persisted updates that any owner has heard of, and the requested
deletions. -/
theorem failures_leave_no_trace :
    (∀ (α : Type) (action : TrackedList.Action E α), TrackedList.Offers action →
      ∀ scene failure after, action scene = .error failure after → Untouched scene after ∧
        (∀ id, after.session.heard id = scene.session.heard id) ∧
        after.session.deletions = scene.session.deletions) ∧
    (∀ (α : Type) (action : TrackedSet.Action E α), TrackedSet.Offers action →
      ∀ scene failure after, action scene = .error failure after → Untouched scene after ∧
        (∀ id, after.session.heard id = scene.session.heard id) ∧
        after.session.deletions = scene.session.deletions) ∧
    ∀ (α : Type) (action : TrackedQueue.Action E α), TrackedQueue.Offers action →
      ∀ scene failure after, action scene = .error failure after → Untouched scene after ∧
        (∀ id, after.session.heard id = scene.session.heard id) ∧
        after.session.deletions = scene.session.deletions := by
  have hsilent {W α : Type} {action : TrackedAction W E α} (h : FailsCleanly action) :
      ∀ scene failure after, action scene = .error failure after → Untouched scene after ∧
        (∀ id, after.session.heard id = scene.session.heard id) ∧
        after.session.deletions = scene.session.deletions := by
    intro scene failure after hafter
    have huntouched := h scene failure after hafter
    exact ⟨huntouched, huntouched.session.heard, huntouched.session.deletions⟩
  exact ⟨fun _ _ h => hsilent (TrackedList.failsCleanly_of_offers h),
    fun _ _ h => hsilent (TrackedSet.failsCleanly_of_offers h),
    fun _ _ h => hsilent (TrackedQueue.failsCleanly_of_offers h)⟩

/-- A queue without cache, whose changes wait, looks for an element that it does not hold in memory
in a store that cannot be read; a list of optional values meets an absent one at the end of a bulk
addition. -/
theorem failures_leave_no_trace_of_outage :
    let o : Owner := { id := .ofNat 7, descriptor := { name := "scores", ordinal := ⟨2⟩ } }
    let q : Scene (TrackedQueue Int32) Int32 := {
      value := {
        tracker := { owner := some o, dispatch := .queued (some "scores"), allowNulls := false }
        content := {
          order := fun a b => compare a.toInt b.toInt
          useCache := false
          lazily := false
          elements := [4] } }
      session := {
        entities := Table.empty.set o.id { typeName := "Game" }
        stores := Table.empty.set "scores" (Store.seed { reads := .always } o.id [3]) } }
    let l : Scene (TrackedList (Option Int32)) (Option Int32) :=
      ⟨⟨.unbacked o {}, [some 1]⟩, {}⟩
    let searched := stateAfter (TrackedQueue.removeWith 3 true) q
    let added := stateAfter (TrackedList.addAll [some 2, none]) l
    TrackedQueue.removeWith 3 true q = .error (.store .readRejected) searched ∧
      TrackedList.addAll [some 2, none] l = .error (.nullElement "scores") added ∧
      Untouched q searched ∧ Untouched l added := by
  intro o q l searched added
  have hsearched : TrackedQueue.removeWith 3 true q = .error (.store .readRejected) searched := rfl
  have hadded : TrackedList.addAll [some 2, none] l = .error (.nullElement "scores") added := rfl
  obtain ⟨-, -, hqueue⟩ := failures_leave_no_trace (E := Int32)
  obtain ⟨hlist, -, -⟩ := failures_leave_no_trace (E := Option Int32)
  exact ⟨hsearched, hadded, (hqueue _ _ (.removeWith 3 true) q _ searched hsearched).1,
    (hlist _ _ (.addAll [some 2, none]) l _ added hadded).1⟩

end TrackedFields
