import TrackedFields.Proofs.TrackedQueue.Shows

/-!
# What looks at a queue come to

A look at a priority queue answers from the list that the queue shows, whether it reads the memory
or the store, and leaves that list as it is.
-/

namespace TrackedFields.TrackedQueue

variable {E α : Type} [DecidableEq E] [Element E]
variable {p : Profile E} {o : Owner} {es : List E} {scene : Scene (TrackedQueue E) E}

omit [DecidableEq E] [Element E] in
/-- A prepared queue with a store holds its elements in memory exactly if it uses its cache. -/
theorem Prepared.isAuthoritative_eq {q : TrackedQueue E} (h : Prepared q)
    (hstore : q.hasStore = true) : q.isAuthoritative = q.content.useCache := by
  cases huse : q.content.useCache with
  | true => exact h huse
  | false =>
    unfold isAuthoritative
    rw [hstore, huse]
    rfl

private theorem comesTo_of_read {action : ObjectId → StoreAction E α}
    {fromMemory : QueueContent E → α} {answer : α}
    (haction : ∀ (owner : ObjectId) (st : Store E), st.Reliable → st.contents owner = es →
      st.Carries owner (action owner) answer [])
    (hmemory : ∀ content : QueueContent E, fromMemory { content with elements := es } = answer) :
    ComesTo p es (do
      ensureLoaded
      readEither (!(← Tracked.content?).useCache) action fromMemory) (.silent answer es) := by
  apply comesTo_of_prepared
  intro o scene h hprepared
  have hasks : scene.value.hasStore = true →
      (!scene.value.content.useCache) = !scene.value.isAuthoritative := by
    intro hstore
    rw [hprepared.isAuthoritative_eq hstore]
  obtain ⟨s, hread, hbecomes⟩ :=
    h.exists_read hasks (haction o.id) (hmemory scene.value.content)
  exact ⟨_, hread, hbecomes⟩

private theorem comesTo_of_look {action : ObjectId → StoreAction E α}
    {fromMemory : QueueContent E → α} {answer : α}
    (haction : ∀ (owner : ObjectId) (st : Store E), st.Reliable → st.contents owner = es →
      st.Carries owner (action owner) answer [])
    (hmemory : ∀ content : QueueContent E, fromMemory { content with elements := es } = answer) :
    ComesTo p es (do readEither (!(← current).isAuthoritative) action fromMemory)
      (.silent answer es) := by
  intro o scene h
  obtain ⟨s, hread, hbecomes⟩ :=
    h.exists_read (fun _ => rfl) (haction o.id) (hmemory scene.value.content)
  exact ⟨_, hread, hbecomes⟩

/-- The number of elements. -/
theorem comesTo_length (p : Profile E) (es : List E) :
    ComesTo p es length (.silent es.length es) := by
  apply comesTo_of_look
  · intro owner st hreliable hcontents
    rw [← hcontents]
    exact Store.carries_reading hreliable owner .size fun st => (st.contents owner).length
  · exact fun _ => rfl

/-- Whether there are no elements. -/
theorem comesTo_isEmpty (p : Profile E) (es : List E) :
    ComesTo p es isEmpty (.silent (es.length == 0) es) :=
  (comesTo_length p es).map (· == 0)

/-- Whether an element is there. -/
theorem comesTo_contains (p : Profile E) (es : List E) (e : E) :
    ComesTo p es (contains e) (.silent (es.contains e) es) := by
  apply comesTo_of_look
  · intro owner st hreliable hcontents
    rw [← hcontents]
    exact Store.carries_reading hreliable owner (.contains e)
      fun st => (st.contents owner).contains e
  · exact fun _ => rfl

/-- The elements. -/
theorem comesTo_toList (p : Profile E) (es : List E) :
    ComesTo p es toList (.silent es es) := by
  apply comesTo_of_read
  · intro owner st hreliable hcontents
    have hcarries := Store.carries_elements hreliable owner
    rwa [hcontents] at hcarries
  · exact fun _ => rfl

/-- The head. -/
theorem comesTo_peek (p : Profile E) (es : List E) :
    ComesTo p es peek (.silent es.head? es) := by
  apply comesTo_of_read
  · intro owner st hreliable hcontents
    rw [← hcontents, List.head?_eq_getElem?]
    exact Store.carries_reading hreliable owner (.get 0) fun st => (st.contents owner)[0]?
  · exact fun _ => rfl

/-- Whether all listed elements are there. -/
theorem comesTo_containsAll (p : Profile E) (es wanted : List E) :
    ComesTo p es (containsAll wanted) (.silent (wanted.all es.contains) es) :=
  (comesTo_toList p es).map fun held : List E => wanted.all held.contains

/-- The elements in the order of the queue; they are in this order already. -/
theorem comesTo_snapshot (p : Profile E) (es : List E) :
    ComesTo p es snapshot (.silent es es) := by
  apply (comesTo_toList p es).bind_silent
  intro o scene h
  refine ⟨scene, ?_, h.becomes_silent es⟩
  have hsort : scene.value.content.order.sort es = es := by
    rw [h.order]
    exact Comparator.sort_of_sorted h.sorted
  change EStateM.Result.ok (scene.value.content.order.sort es) scene = .ok es scene
  rw [hsort]

end TrackedFields.TrackedQueue
