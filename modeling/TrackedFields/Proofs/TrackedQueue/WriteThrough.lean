import TrackedFields.Proofs.TrackedQueue.Shows

/-!
# Queues that only write through

A priority queue that makes its changes right away and does not keep its content in memory changes
its store by the operations that repeat its changes, in whatever order the store keeps its elements.
Which copies of an element leave is decided by what the store holds; the elements in memory do not
matter.
-/

namespace TrackedFields.TrackedQueue

variable {E α : Type} {o : Owner} {name : StoreName} {scene after : Scene (TrackedQueue E) E}

/-- A queue that makes its changes right away in a reliable store and does not keep its content in
memory. -/
structure WriteThrough (o : Owner) (name : StoreName) (scene : Scene (TrackedQueue E) E) :
    Prop where
  owner : scene.value.tracker.owner = some o
  dispatch : scene.value.tracker.dispatch = .immediate name
  useCache : scene.value.content.useCache = false
  reliable : (scene.session.store name).Reliable

/-- The elements that the store of a queue holds. -/
def held (o : Owner) (name : StoreName) (scene : Scene (TrackedQueue E) E) : List E :=
  (scene.session.store name).contents o.id

/-- Between two moments, a queue made some operations in its store. -/
structure Makes [DecidableEq E] (o : Owner) (name : StoreName) (kinds : List (OperationKind E))
    (scene after : Scene (TrackedQueue E) E) : Prop where
  tracker : after.value.tracker = scene.value.tracker
  useCache : after.value.content.useCache = scene.value.content.useCache
  continues : (scene.session.store name).Continues (after.session.store name)
  stock : OperationKind.stockAll (scene.session.rules name)
    ((scene.session.store name).shelf o.id) kinds = some ((after.session.store name).shelf o.id)

/-- An element of a list is found among those that satisfy a condition if it satisfies it. -/
theorem contains_filter_of_mem [DecidableEq E] {es : List E} {e : E} (doomed : E → Bool)
    (he : e ∈ es) : (es.filter doomed).contains e = doomed e := by
  simp [he]

/-- Those that are found among the elements that satisfy a condition are these elements. -/
theorem filter_contains_filter [DecidableEq E] (es : List E) (doomed : E → Bool) :
    es.filter (es.filter doomed).contains = es.filter doomed :=
  List.filter_congr fun _ he => contains_filter_of_mem doomed he

section Making

variable [DecidableEq E] {kinds more : List (OperationKind E)}

/-- A queue makes its operations one after the other. -/
theorem Makes.trans {mid : Scene (TrackedQueue E) E} (h : Makes o name kinds scene mid)
    (h' : Makes o name more mid after) : Makes o name (kinds ++ more) scene after := by
  refine ⟨h'.tracker.trans h.tracker, h'.useCache.trans h.useCache,
    h.continues.trans h'.continues, ?_⟩
  have hrules : mid.session.rules name = scene.session.rules name := h.continues.rules
  rw [OperationKind.stockAll_append, h.stock, Option.bind_some, ← hrules]
  exact h'.stock

/-- What a session went through is made by the queue. -/
theorem Makes.of_advances {t : Tracker} {content content' : QueueContent E} {s mid : Session E}
    {relations : List (RelationChange E)} {changes : Nat} (hdispatch : t.dispatch = .immediate name)
    (huse : content'.useCache = content.useCache)
    (h : Session.Advances t o relations changes kinds s mid) :
    Makes o name kinds ⟨⟨t, content⟩, s⟩ ⟨⟨t, content'⟩, mid⟩ := by
  obtain ⟨hcontinues, hstock⟩ := h.carried name hdispatch
  exact ⟨rfl, huse, hcontinues, hstock⟩

/-- A queue goes on writing through, whatever it makes. -/
theorem Makes.direct (h : Makes o name kinds scene after) (hdirect : WriteThrough o name scene) :
    WriteThrough o name after := by
  refine ⟨?_, ?_, ?_, h.continues.reliable hdirect.reliable⟩
  · rw [h.tracker]
    exact hdirect.owner
  · rw [h.tracker]
    exact hdirect.dispatch
  · rw [h.useCache]
    exact hdirect.useCache

private theorem exists_applied {t : Tracker} {s : Session E} {answer : α}
    (howner : t.owner = some o) (hdispatch : t.dispatch = .immediate name) (operation : String)
    (action : ObjectId → StoreAction E α)
    (haction : (s.store name).Carries o.id (action o.id) answer kinds) :
    ∃ mid, t.forward operation action s = (.applied answer, mid) ∧
      Session.Advances t o [] 0 kinds s mid := by
  have hcarries : ∀ target, t.dispatch = .immediate target →
      (s.store target).Carries o.id (action o.id) answer kinds := by
    intro target htarget
    rw [hdispatch] at htarget
    cases htarget
    exact haction
  obtain ⟨forwarded, mid, hforward, hadvances, hanswer | ⟨-, hnot⟩⟩ :=
    Session.forward_advances howner operation action hcarries
  · rw [hanswer] at hforward
    exact ⟨mid, hforward, hadvances⟩
  · exact absurd hdispatch (hnot name)

end Making

section Calls

variable (h : WriteThrough o name scene)

include h

/-- A queue that does not keep its content in memory has nothing to load. -/
theorem WriteThrough.ensureLoaded_eq : ensureLoaded scene = .ok () scene := by
  rw [ensureLoaded_apply, h.useCache]
  rfl

/-- The store of a queue that writes through. -/
theorem WriteThrough.channel : scene.value.tracker.channel = some (name, o.id) := by
  rw [Tracker.channel, h.dispatch, h.owner]

/-- The elements in memory are not the full content. -/
theorem WriteThrough.isAuthoritative : scene.value.isAuthoritative = false := by
  rw [TrackedQueue.isAuthoritative, hasStore, h.channel, h.useCache]
  rfl

/-- Nothing waits for a flush. -/
theorem WriteThrough.isQueued : scene.value.tracker.isQueued = false := by
  rw [Tracker.isQueued, h.dispatch]

/-- The store is not told how much the queue holds. -/
theorem WriteThrough.hint_eq : hint scene.value = none := by
  rw [hint, h.useCache]
  rfl

variable [DecidableEq E]

/-- The elements are read from the store. -/
theorem WriteThrough.read_elements (fromMemory : QueueContent E → List E) :
    ∃ mid, readEither true Store.elements fromMemory scene =
        .ok (held o name scene) { scene with session := mid } ∧
      Session.Advances scene.value.tracker o [] 0 [] scene.session mid := by
  obtain ⟨mid, hread, hadvances⟩ :=
    read_of_carries h.dispatch (Store.carries_elements h.reliable o.id)
  refine ⟨mid, ?_, hadvances⟩
  rw [readEither_of_channel h.channel, if_pos rfl, hread]
  rfl

/-- Removing an element by value takes it out of the store. -/
theorem WriteThrough.removeWith (e : E) (cascade : Bool) :
    Makes o name [.collectionRemove e cascade] scene
      (stateAfter (TrackedQueue.removeWith e cascade) scene) := by
  obtain ⟨⟨t, content⟩, s⟩ := scene
  obtain ⟨mid, hforward, hadvances⟩ := exists_applied h.owner h.dispatch "remove"
    (Store.remove · e (hint ⟨t, content⟩) cascade)
    (Store.carries_remove h.reliable o.id e _ cascade)
  have hqueued : t.isQueued = false := h.isQueued
  unfold TrackedQueue.removeWith
  simp only [stateAfter, bind_apply, h.ensureLoaded_eq, current_apply, hqueued, Bool.not_false,
    Bool.or_true, if_true, setElements_apply, forward_apply hforward, announce_apply, changed_apply,
    pure_apply]
  exact .of_advances h.dispatch rfl (hadvances.reported h.owner _)

/-- Removing listed elements takes all their copies out of the store. -/
theorem WriteThrough.removeListed (doomed : List E) :
    Makes o name (((held o name scene).filter doomed.contains).map (.collectionRemove · true)) scene
      (stateAfter (TrackedQueue.removeListed doomed) scene) := by
  obtain ⟨⟨t, content⟩, s⟩ := scene
  have howner : t.owner = some o := h.owner
  have hdispatch : t.dispatch = .immediate name := h.dispatch
  obtain ⟨mid, hread, hbefore⟩ := h.read_elements fun _ => []
  generalize held o name ⟨⟨t, content⟩, s⟩ = stored at hread ⊢
  have hreliable (report : Report E) : ((t.announce report mid).store name).Reliable := by
    rw [Session.store_of_stores_eq (t.stores_announce mid report) name]
    exact (hbefore.carried name hdispatch).1.reliable h.reliable
  obtain ⟨after, hforward, hadvances⟩ := exists_applied howner hdispatch "remove-all"
    (Store.removeAll · (stored.filter doomed.contains) (hint ⟨t, content⟩))
    (Store.carries_removeAll (hreliable (.removed (stored.filter doomed.contains) true)) o.id
      (stored.filter doomed.contains) _)
  unfold TrackedQueue.removeListed
  simp only [stateAfter, bind_apply, h.ensureLoaded_eq, current_apply, h.isAuthoritative,
    Bool.false_eq_true, if_false, hread, setElements_apply, hdispatch, announce_apply,
    forward_apply hforward, changed_apply, pure_apply]
  exact .of_advances hdispatch rfl (hbefore.trans (.of_reported howner hadvances))

/-- Keeping listed elements takes all copies of the others out of the store. -/
theorem WriteThrough.retainAll (keep : List E) :
    Makes o name (((held o name scene).filter fun e => !keep.contains e).map
        (.collectionRemove · true)) scene
      (stateAfter (TrackedQueue.retainAll keep) scene) := by
  obtain ⟨⟨t, content⟩, s⟩ := scene
  have hqueued : t.isQueued = false := h.isQueued
  obtain ⟨mid, hread, hbefore⟩ := h.read_elements QueueContent.elements
  have hmade : Makes o name [] ⟨⟨t, content⟩, s⟩ ⟨⟨t, content⟩, mid⟩ :=
    .of_advances h.dispatch rfl hbefore
  have hheld : held o name ⟨⟨t, content⟩, mid⟩ = held o name ⟨⟨t, content⟩, s⟩ :=
    congrArg Shelf.elements (Option.some.inj hmade.stock).symm
  have hremoved := (hmade.direct h).removeListed
    ((held o name ⟨⟨t, content⟩, s⟩).filter fun e => !keep.contains e)
  rw [hheld] at hremoved
  generalize held o name ⟨⟨t, content⟩, s⟩ = stored at hread hremoved ⊢
  have hlist : toList ⟨⟨t, content⟩, s⟩ = .ok stored ⟨⟨t, content⟩, mid⟩ :=
    (toList_uncached h.useCache).trans hread
  unfold TrackedQueue.retainAll
  simp only [stateAfter, bind_apply, hlist, current_apply, hqueued, Bool.false_and,
    Bool.false_eq_true, if_false, List.append_nil]
  by_cases hempty : (stored.filter fun e => !keep.contains e).isEmpty = true
  · rw [if_pos hempty, List.isEmpty_iff.mp hempty]
    exact hmade
  · rw [filter_contains_filter] at hremoved
    rw [if_neg hempty]
    exact hmade.trans hremoved

/-- Removing all elements empties the store. -/
theorem WriteThrough.clear :
    Makes o name [.collectionClear] scene (stateAfter TrackedQueue.clear scene) := by
  obtain ⟨⟨t, content⟩, s⟩ := scene
  have howner : t.owner = some o := h.owner
  let told : Session E := t.announce (.cleared content.elements) s
  have hreliable : (told.store name).Reliable := by
    rw [Session.store_of_stores_eq (t.stores_announce s _) name]
    exact h.reliable
  obtain ⟨mid, hforward, hadvances⟩ := exists_applied howner h.dispatch "clear" Store.clear
    (Store.carries_clear hreliable o.id)
  let content' : QueueContent E := { content with
    elements := []
    loaded := content.loaded || content.useCache }
  have hrun : TrackedQueue.clear ⟨⟨t, content⟩, s⟩ = .ok () ⟨⟨t, content'⟩, t.changed mid⟩ := by
    change (discard (forward "clear" Store.clear) >>= fun _ => changed)
      (⟨⟨t, content'⟩, told⟩ : Scene _ E) = _
    rw [bind_apply, discard_apply, forward_apply hforward]
    rfl
  rw [stateAfter_of_ok hrun]
  exact .of_advances h.dispatch rfl (.of_reported howner hadvances)

/-- Adding elements without a check adds them to the store. -/
theorem WriteThrough.addUnchecked [Element E] (operation : String)
    (store : ObjectId → Option Nat → StoreAction E Bool) {new : List E} {answer : Bool}
    (hstore : (scene.session.store name).Carries o.id (store o.id none) answer
      (new.map .collectionAdd)) :
    Makes o name (new.map .collectionAdd) scene
      (stateAfter (TrackedQueue.addUnchecked operation store new) scene) := by
  obtain ⟨⟨t, content⟩, s⟩ := scene
  have hhint : hint ⟨t, content⟩ = none := h.hint_eq
  obtain ⟨mid, hforward, hadvances⟩ := exists_applied h.owner h.dispatch operation (store · none)
    hstore
  unfold TrackedQueue.addUnchecked
  simp only [stateAfter, bind_apply, h.ensureLoaded_eq, current_apply, hhint,
    forward_apply hforward, setElements_apply, announce_apply, changed_apply, pure_apply]
  exact .of_advances h.dispatch rfl (hadvances.reported h.owner (.added new))

end Calls

end TrackedFields.TrackedQueue
