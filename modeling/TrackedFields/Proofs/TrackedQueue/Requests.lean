import TrackedFields.Proofs.TrackedQueue.Looks

/-!
# What requests to a queue come to

For each request to a priority queue, the outcome on a queue that shows a given list. A look answers
from the list. A change makes of the list what the operations that repeat it make of the container
of a store, and answers from the list as it was before.
-/

namespace TrackedFields.TrackedQueue

variable {E α : Type} [DecidableEq E] [Element E]
variable {p : Profile E} {o : Owner} {es : List E} {scene : Scene (TrackedQueue E) E}

/-! ### Changing -/

/-- A change is forwarded to the store if changes are made there right away, and then the store
answers; elsewhere the memory does, and it holds all elements. -/
private theorem Shows.exists_forwarded {t : Tracker} {content : QueueContent E}
    {s before : Session E} (h : Shows p o es ⟨⟨t, content⟩, s⟩) (hstores : before.stores = s.stores)
    (operation : String) (action : ObjectId → StoreAction E α) {answer : α}
    {kinds : List (OperationKind E)}
    (haction : ∀ st : Store E, st.Reliable → st.contents o.id = es →
      st.Carries o.id (action o.id) answer kinds) :
    ∃ forwarded mid, t.forward operation action before = (forwarded, mid) ∧
      Session.Advances t o [] 0 kinds before mid ∧
      ∀ inMemory failed, (isAuthoritative ⟨t, content⟩ = true → inMemory = answer) →
        forwarded.answer inMemory failed = answer := by
  have howner : t.owner = some o := h.owner
  have hcarries : ∀ name, t.dispatch = .immediate name →
      (before.store name).Carries o.id (action o.id) answer kinds := by
    intro name hname
    have hserves := (h.inStore name hname).of_stores_eq hstores
    exact haction _ hserves.reliable hserves.contents
  obtain ⟨forwarded, mid, hforward, hadvances, hcases⟩ :=
    Session.forward_advances howner operation action hcarries
  refine ⟨forwarded, mid, hforward, hadvances, fun inMemory failed hmemory => ?_⟩
  rcases hcases with rfl | ⟨rfl, hnot⟩
  · rfl
  · exact hmemory (h.whole hnot)

/-- What removing the head comes to. -/
def polled (es : List E) : Outcome E (Option E) where
  result := .ok es.head?
  elements := es.tail
  relations := es.head?.toList.map .removed
  changes := 1
  operations := if es.head?.isSome then [.listRemoveAt 0] else []

/-- Removing the head. -/
theorem comesTo_poll (p : Profile E) (es : List E) : ComesTo p es poll (polled es) := by
  apply comesTo_of_prepared
  rintro o ⟨⟨t, content⟩, s⟩ h -
  have howner : t.owner = some o := h.owner
  have hcarries (size : Option Nat) (st : Store E) (hreliable : st.Reliable)
      (hcontents : st.contents o.id = es) :
      st.Carries o.id (Store.removeAt o.id 0 size) es.head? (polled es).operations := by
    rw [← hcontents]
    exact Store.carries_removeAt_zero hreliable o.id size
  obtain ⟨forwarded, mid, hforward, hadvances, hanswer⟩ := h.exists_forwarded rfl "poll"
    (Store.removeAt · 0 (hint ⟨t, content⟩)) (hcarries _)
  have hmemory (hauthoritative : isAuthoritative ⟨t, content⟩ = true) :
      content.elements = es := h.inMemory hauthoritative
  have hhead (failed : Option E) :
      forwarded.answer content.elements.head? failed = es.head? :=
    hanswer _ failed fun hauthoritative => congrArg List.head? (hmemory hauthoritative)
  simp only [bind_apply, current_apply, setElements_apply, forward_apply hforward, announce_apply,
    changed_apply, pure_apply]
  rw [hhead none]
  refine ⟨_, rfl, h.becomes rfl ⟨rfl, rfl, id⟩ ?_ ?_ ?_ ?_ (hadvances.reported howner _)⟩
  · exact h.sorted.sublist (List.tail_sublist es)
  · intro rules _ hfits
    cases es with
    | nil => rfl
    | cons e es => exact OperationKind.carryOutAll_kept hfits rfl (List.sublist_cons_self e es) []
  · intro hauthoritative
    exact congrArg List.tail (hmemory hauthoritative)
  · intro _
    unfold polled
    rw [← hhead content.elements.head?]
    cases forwarded <;> rfl

/-- What removing an element comes to. -/
def removed (es : List E) (e : E) (cascade : Bool) : Outcome E Bool where
  result := .ok (es.contains e)
  elements := es.erase e
  relations := if es.contains e then [.removed e] else []
  changes := 1
  operations := [.collectionRemove e cascade]

/-- Removing one occurrence of an element. -/
theorem comesTo_removeWith (p : Profile E) (es : List E) (e : E) (cascade : Bool) :
    ComesTo p es (removeWith e cascade) (removed es e cascade) := by
  apply comesTo_of_prepared
  rintro o ⟨⟨t, content⟩, s⟩ h -
  have howner : t.owner = some o := h.owner
  have hcarries (size : Option Nat) (st : Store E) (hreliable : st.Reliable)
      (hcontents : st.contents o.id = es) :
      st.Carries o.id (Store.remove o.id e size cascade) (es.contains e)
        (removed es e cascade).operations := by
    rw [← hcontents]
    exact Store.carries_remove hreliable o.id e size cascade
  obtain ⟨forwarded, mid, hforward, hadvances, hanswer⟩ := h.exists_forwarded rfl "remove"
    (Store.remove · e (hint ⟨t, content⟩) cascade) (hcarries _)
  have hmemory (hauthoritative : isAuthoritative ⟨t, content⟩ = true) :
      content.elements = es := h.inMemory hauthoritative
  have hfound (failed : Bool) :
      forwarded.answer (content.elements.contains e) failed = es.contains e :=
    hanswer _ failed fun hauthoritative => congrArg (List.contains · e) (hmemory hauthoritative)
  have hknown := h.isAuthoritative_or_not_isQueued
  simp only [bind_apply, current_apply, Bool.or_assoc, hknown, Bool.or_true, if_true,
    setElements_apply, forward_apply hforward, announce_apply, changed_apply, pure_apply]
  rw [hfound false]
  refine ⟨_, rfl, h.becomes rfl ⟨rfl, rfl, id⟩ ?_ ?_ ?_ ?_ (hadvances.reported howner _)⟩
  · exact h.sorted.sublist List.erase_sublist
  · intro rules _ hfits
    exact OperationKind.carryOutAll_kept hfits rfl List.erase_sublist []
  · intro hauthoritative
    exact congrArg (List.erase · e) (hmemory hauthoritative)
  · intro _
    unfold removed
    rw [← hfound (content.elements.contains e)]
    cases forwarded <;> rfl

/-- What removing listed elements comes to. -/
def weeded (es doomed : List E) : Outcome E Bool where
  result := .ok (!(es.filter doomed.contains).isEmpty)
  elements := es.filter fun e => !doomed.contains e
  relations := (es.filter doomed.contains).map .removed
  changes := 1
  operations := (es.filter doomed.contains).map (.collectionRemove · true)

/-- Once it is known what is to be removed, that leaves the queue. -/
private theorem Shows.exists_weeded {t : Tracker} {content : QueueContent E} {s : Session E}
    (h : Shows p o es ⟨⟨t, content⟩, s⟩) (doomed : List E) :
    ∃ forwarded mid, t.forward "remove-all"
        (Store.removeAll · (es.filter doomed.contains) (hint ⟨t, content⟩))
        (t.announce (.removed (es.filter doomed.contains) true) s) = (forwarded, mid) ∧
      forwarded.answer (!(es.filter doomed.contains).isEmpty) false =
        !(es.filter doomed.contains).isEmpty ∧
      Becomes p o (weeded es doomed) ⟨⟨t, content⟩, s⟩ {
        value := { tracker := t, content := { content with
          elements := content.elements.filter fun e => !doomed.contains e } }
        session := t.changed mid } := by
  have howner : t.owner = some o := h.owner
  let report : Report E := .removed (es.filter doomed.contains) true
  have hany : (es.filter doomed.contains).any es.contains =
      !(es.filter doomed.contains).isEmpty := by
    have hall : ∀ e ∈ es.filter doomed.contains, es.contains e = true := by
      intro e he
      simpa using (List.mem_filter.mp he).1
    cases hcopies : es.filter doomed.contains with
    | nil => rfl
    | cons e copies =>
      have he : es.contains e = true := hall e (by rw [hcopies]; exact List.mem_cons_self)
      rw [List.any_cons, he]
      rfl
  have hcarries (size : Option Nat) (st : Store E) (hreliable : st.Reliable)
      (hcontents : st.contents o.id = es) :
      st.Carries o.id (Store.removeAll o.id (es.filter doomed.contains) size)
        (!(es.filter doomed.contains).isEmpty) (weeded es doomed).operations := by
    have hremove := Store.carries_removeAll hreliable o.id (es.filter doomed.contains) size
    rwa [hcontents, hany] at hremove
  obtain ⟨forwarded, mid, hforward, hadvances, hanswer⟩ :=
    h.exists_forwarded (t.stores_announce s report) "remove-all"
      (Store.removeAll · (es.filter doomed.contains) (hint ⟨t, content⟩)) (hcarries _)
  refine ⟨forwarded, mid, hforward, hanswer _ false fun _ => rfl,
    h.becomes rfl ⟨rfl, rfl, id⟩ ?_ ?_ ?_ ?_ (.of_reported howner hadvances)⟩
  · exact h.sorted.sublist List.filter_sublist
  · intro rules _ hfits
    have hremoved := OperationKind.carryOutAll_removed hfits (es.filter doomed.contains) true
    rwa [OperationKind.foldl_erase_filter] at hremoved
  · intro hauthoritative
    exact congrArg (List.filter fun e => !doomed.contains e) (h.inMemory hauthoritative)
  · exact fun _ => rfl

/-- Removing every occurrence of listed elements. -/
theorem comesTo_removeListed (p : Profile E) (es doomed : List E) :
    ComesTo p es (removeListed doomed) (weeded es doomed) := by
  apply comesTo_of_prepared
  rintro o ⟨⟨t, content⟩, s⟩ h -
  by_cases hauthoritative : isAuthoritative ⟨t, content⟩ = true
  · obtain rfl : content.elements = es := h.inMemory hauthoritative
    obtain ⟨forwarded, mid, hforward, hanswer, hbecomes⟩ := h.exists_weeded doomed
    -- Whatever the dispatch is, the elements in memory are searched.
    cases hdispatch : t.dispatch
    all_goals
      simp only [bind_apply, current_apply, if_pos hauthoritative, pure_apply, setElements_apply,
        hdispatch, List.filter_nil, List.nil_append, announce_apply, forward_apply hforward,
        changed_apply]
      rw [hanswer]
      exact ⟨_, rfl, hbecomes⟩
  · obtain ⟨name, hname, hchannel, hserves⟩ := h.exists_channel hauthoritative
    obtain ⟨mid, hread, hadvances⟩ :=
      read_of_carries hname (Store.carries_elements hserves.reliable o.id)
    have hmid : Becomes p o (.silent () es) ⟨⟨t, content⟩, s⟩ ⟨⟨t, content⟩, mid⟩ :=
      h.becomes_of_read () rfl ⟨rfl, rfl, id⟩ h.inMemory hadvances
    have hshows : Shows p o es ⟨⟨t, content⟩, mid⟩ := hmid.shows
    obtain ⟨forwarded, next, hforward, hanswer, hbecomes⟩ := hshows.exists_weeded doomed
    have hstored : readEither true Store.elements (fun _ => []) ⟨⟨t, content⟩, s⟩ =
        .ok es ⟨⟨t, content⟩, mid⟩ := by
      rw [readEither_of_channel hchannel, if_pos rfl, hread, hserves.contents]
    have hdispatch : t.dispatch = .immediate name := hname
    simp only [bind_apply, current_apply, if_neg hauthoritative, hstored, setElements_apply,
      hdispatch, announce_apply, forward_apply hforward, changed_apply, pure_apply]
    rw [hanswer]
    refine ⟨_, rfl, ?_⟩
    rw [← Outcome.silent_andThen () es (weeded es doomed)]
    exact hmid.trans hbecomes

/-- Removing what is listed, if anything is. -/
theorem comesTo_removeAll (p : Profile E) (es doomed : List E) :
    ComesTo p es (removeAll doomed)
      (if doomed.isEmpty then .silent false es else weeded es doomed) := by
  unfold removeAll
  split
  · exact .pure p es false
  · exact comesTo_removeListed p es doomed

/-- Keeping the listed elements only. -/
theorem comesTo_retainAll (p : Profile E) (es keep : List E) :
    ComesTo p es (retainAll keep)
      (let dropped := es.filter fun e => !keep.contains e
       if dropped.isEmpty then .silent false es else weeded es dropped) := by
  apply (comesTo_toList p es).bind_silent
  intro o scene h
  -- No elements in memory wait for a flush beyond those that the queue shows.
  have hunflushed : (scene.value.tracker.isQueued && !scene.value.isAuthoritative) = false := by
    have hknown := h.isAuthoritative_or_not_isQueued
    revert hknown
    cases scene.value.tracker.isQueued <;> cases scene.value.isAuthoritative <;> simp
  simp only [bind_apply, current_apply, hunflushed, Bool.false_eq_true, if_false, List.append_nil]
  split
  · exact ComesTo.pure p es false o scene h
  · exact comesTo_removeListed p es _ o scene h

/-- What removing everything comes to. -/
def cleared (es : List E) : Outcome E Unit where
  result := .ok ()
  elements := []
  relations := es.map .removed
  changes := 1
  operations := [.collectionClear]

/-- Removing everything, also before the queue has loaded. -/
theorem comesTo_clear (p : Profile E) (es : List E) : ComesTo p es clear (cleared es) := by
  rintro o ⟨⟨t, content⟩, s⟩ h
  have howner : t.owner = some o := h.owner
  let report : Report E := .cleared content.elements
  obtain ⟨forwarded, mid, hforward, hadvances, -⟩ :=
    h.exists_forwarded (t.stores_announce s report) "clear" Store.clear
      fun st hreliable _ => Store.carries_clear hreliable o.id
  refine ⟨{
    value := { tracker := t, content := { content with
      elements := []
      loaded := content.loaded || content.useCache } }
    session := t.changed mid }, ?_, ?_⟩
  · change (discard (forward "clear" Store.clear) >>= fun _ => changed)
      (⟨⟨t, _⟩, _⟩ : Scene _ E) = _
    rw [bind_apply, discard_apply, forward_apply hforward]
    rfl
  · refine h.becomes rfl ⟨rfl, rfl, ?_⟩ .nil ?_ (fun _ => rfl) ?_ (.of_reported howner hadvances)
    · intro hloaded
      rw [hloaded, Bool.true_or]
    · intro rules _ hfits
      exact OperationKind.carryOutAll_kept hfits rfl (List.nil_sublist es) []
    · intro hauthoritative
      exact congrArg (List.map RelationChange.removed) (h.inMemory hauthoritative)

/-- What adding elements comes to. -/
def joined (cmp : Comparator E) (es new : List E) : Outcome E Bool where
  result := .ok true
  elements := cmp.insertAll es new
  relations := new.map .added
  changes := 1
  operations := new.map .collectionAdd

private theorem comesTo_addUnchecked [Std.TransCmp p.order] {operation : String}
    {store : ObjectId → Option Nat → StoreAction E Bool} {new : List E}
    (hstore : ∀ (owner : ObjectId) (st : Store E) (size : Option Nat), st.Reliable →
      (∀ n, size = some n → n = es.length) →
      st.Carries owner (store owner size) true (new.map .collectionAdd)) :
    ComesTo p es (addUnchecked operation store new) (joined p.order es new) := by
  apply comesTo_of_prepared
  rintro o ⟨⟨t, content⟩, s⟩ h hprepared
  have howner : t.owner = some o := h.owner
  have hmemory (hauthoritative : isAuthoritative ⟨t, content⟩ = true) :
      content.elements = es := h.inMemory hauthoritative
  have hsize : ∀ n, hint ⟨t, content⟩ = some n → n = es.length := by
    intro n hn
    unfold hint at hn
    by_cases huse : content.useCache = true
    · rw [if_pos huse] at hn
      rw [← Option.some.inj hn]
      exact congrArg List.length (hmemory (hprepared huse))
    · rw [if_neg huse] at hn
      cases hn
  obtain ⟨forwarded, mid, hforward, hadvances, hcases⟩ := h.exists_forwarded rfl operation
    (store · (hint ⟨t, content⟩)) fun st hreliable _ =>
      hstore o.id st (hint ⟨t, content⟩) hreliable hsize
  have hanswer : forwarded.answer true false = true := hcases true false fun _ => rfl
  simp only [bind_apply, current_apply, forward_apply hforward, setElements_apply, announce_apply,
    changed_apply, pure_apply]
  rw [hanswer]
  have horder : content.order = p.order := h.order
  refine ⟨_, rfl, h.becomes rfl ⟨rfl, rfl, id⟩ ?_ ?_ ?_ ?_
    (hadvances.reported howner (.added new))⟩
  · exact h.sorted.insertAll new
  · intro rules hrules _
    exact OperationKind.carryOutAll_inserted hrules h.sorted new
  · intro hauthoritative
    change content.order.insertAll content.elements new = p.order.insertAll es new
    rw [horder, hmemory hauthoritative]
  · exact fun _ => rfl

/-- What a change comes to that is made only if a check passes. -/
def guarded (checked : Except Failure Unit) (es : List E) (outcome : Outcome E α) : Outcome E α :=
  match checked with
  | .ok _ => outcome
  | .error failure => { result := .error failure, elements := es }

private theorem comesTo_require {checked : Tracker → Except Failure Unit}
    {expected : Except Failure Unit} {next : Unit → Action E α} {outcome : Outcome E α}
    (hcheck : ∀ o scene, Shows p o es scene → checked scene.value.tracker = expected)
    (hnext : ComesTo p es (next ()) outcome) :
    ComesTo p es (Tracked.tracker? >>= fun t => Tracked.require (checked t) >>= next)
      (guarded expected es outcome) := by
  intro o scene h
  cases expected with
  | ok answer =>
    obtain ⟨after, hafter, hbecomes⟩ := hnext o scene h
    refine ⟨after, ?_, hbecomes⟩
    change _ = ended outcome.result after
    rw [← hafter]
    change (Tracked.require (checked scene.value.tracker) >>= next) scene = _
    rw [hcheck o scene h]
    rfl
  | error failure =>
    refine ⟨scene, ?_, (h.becomes_silent ()).of_result _⟩
    change (Tracked.require (checked scene.value.tracker) >>= next) scene = _
    rw [hcheck o scene h]
    rfl

/-- Adding an element. -/
theorem comesTo_add (p : Profile E) [Std.TransCmp p.order] (es : List E) (e : E) :
    ComesTo p es (add e) (guarded (p.check e) es (joined p.order es [e])) := by
  have hcheck (o : Owner) (scene : Scene (TrackedQueue E) E) (h : Shows p o es scene) :
      scene.value.tracker.check e = p.check e := by rw [h.check]
  exact comesTo_require hcheck (comesTo_addUnchecked fun owner _ size hreliable _ =>
    Store.carries_add hreliable owner e size)

/-- Adding several elements, as long as the length of the queue stays within a word. -/
theorem comesTo_addAll (p : Profile E) [Std.TransCmp p.order] {es new : List E}
    (hcount : es.length + new.length < Word.sizeLimit) :
    ComesTo p es (addAll new) (guarded (new.forM p.check) es
      (if new.isEmpty then .silent false es else joined p.order es new)) := by
  have hcheck (o : Owner) (scene : Scene (TrackedQueue E) E) (h : Shows p o es scene) :
      scene.value.tracker.checkAll new = new.forM p.check := by
    rw [Tracker.checkAll, h.check]
  apply comesTo_require hcheck
  by_cases hnone : new.isEmpty = true
  · rw [if_pos hnone, if_pos hnone]
    exact .pure p es false
  · rw [if_neg hnone, if_neg hnone]
    refine comesTo_addUnchecked fun owner st size hreliable hsize => ?_
    have hfits : ∀ n, size = some n → n + new.length ≤ Word.sizeLimit := by
      intro n hn
      rw [hsize n hn]
      exact Nat.le_of_lt hcount
    have hcarries := Store.carries_addAll hreliable owner new size hfits
    rwa [Bool.eq_false_iff.mpr hnone] at hcarries

/-! ### Attaching -/

/-- Elements from outside the session are taken in silently. -/
theorem comesTo_attach (p : Profile E) (es target : List E) :
    ComesTo p es (Tracked.attach target) (.silent () es) := by
  intro o scene h
  exact ⟨_, rfl, h.becomes_of_read () rfl ⟨rfl, rfl, id⟩ h.inMemory
    (.attach scene.value.tracker o target scene.session)⟩

private theorem settles_removeMissing (attached missing es : List E) :
    Settles p es (Container.removeMissing attached missing : Action E Unit) := by
  revert es
  apply (Container.isPass_removeMissing attached).closed (motive := (∀ es, Settles p es ·))
  · exact fun es => ⟨_, .pure p es ()⟩
  · intro e _ next hnext es
    have hremove : Settles p es (removeWith e false) := ⟨_, comesTo_removeWith p es e false⟩
    exact hremove.discard.bind fun _ after => hnext after

private theorem settles_addMissing [Std.TransCmp p.order] (current missing es : List E) :
    Settles p es (Container.addMissing current missing : Action E Unit) := by
  revert es
  apply (Container.isPass_addMissing current).closed (motive := (∀ es, Settles p es ·))
  · exact fun es => ⟨_, .pure p es ()⟩
  · intro e _ next hnext es
    have hadd : Settles p es (add e) := ⟨_, comesTo_add p es e⟩
    exact hadd.discard.bind fun _ after => hnext after

/-- Taking over a value from outside the session. -/
theorem settles_attachCopy [Std.TransCmp p.order] (es target : List E) :
    Settles p es (attachCopy target) := by
  have hattach : Settles p es (Tracked.attach target) := ⟨_, comesTo_attach p es target⟩
  have hlist (after : List E) : Settles p after toList := ⟨_, comesTo_toList p after⟩
  apply hattach.bind
  intro _ after
  apply (hlist after).bind
  intro current held
  apply (settles_removeMissing target current held).bind
  exact fun _ rest => settles_addMissing current target rest

/-! ### All requests -/

end TrackedFields.TrackedQueue

namespace TrackedFields

/-- What a priority queue is asked in the course of its use, with the type of the answer. -/
inductive QueueRequest (E : Type) : Type → Type where
  /-- Add an element; offering one is the same. -/
  | add (e : E) : QueueRequest E Bool
  | addAll (new : List E) : QueueRequest E Bool
  | poll : QueueRequest E (Option E)
  | peek : QueueRequest E (Option E)
  | length : QueueRequest E Nat
  | isEmpty : QueueRequest E Bool
  | contains (e : E) : QueueRequest E Bool
  | containsAll (wanted : List E) : QueueRequest E Bool
  | toList : QueueRequest E (List E)
  | snapshot : QueueRequest E (List E)
  | remove (e : E) : QueueRequest E Bool
  | removeWith (e : E) (cascade : Bool) : QueueRequest E Bool
  | removeAll (doomed : List E) : QueueRequest E Bool
  | retainAll (keep : List E) : QueueRequest E Bool
  | clear : QueueRequest E Unit
  | attachCopy (target : List E) : QueueRequest E Unit

namespace QueueRequest

variable {E α : Type} [DecidableEq E] [Element E]

/-- Make a request. -/
def run : QueueRequest E α → TrackedQueue.Action E α
  | add e => TrackedQueue.add e
  | addAll new => TrackedQueue.addAll new
  | poll => TrackedQueue.poll
  | peek => TrackedQueue.peek
  | length => TrackedQueue.length
  | isEmpty => TrackedQueue.isEmpty
  | contains e => TrackedQueue.contains e
  | containsAll wanted => TrackedQueue.containsAll wanted
  | toList => TrackedQueue.toList
  | snapshot => TrackedQueue.snapshot
  | remove e => TrackedQueue.remove e
  | removeWith e cascade => TrackedQueue.removeWith e cascade
  | removeAll doomed => TrackedQueue.removeAll doomed
  | retainAll keep => TrackedQueue.retainAll keep
  | clear => TrackedQueue.clear
  | attachCopy target => TrackedQueue.attachCopy target

omit [DecidableEq E] [Element E] in
/-- Whether a queue with the given elements stays countable: its length fits into a word, as that of
every list in memory does. Only additions in bulk count ahead. -/
def Countable (held : List E) : QueueRequest E α → Prop
  | addAll new => held.length + new.length < Word.sizeLimit
  | _ => True

/-- Every request comes to the same on all queues that show some list. -/
theorem settles {p : TrackedQueue.Profile E} [Std.TransCmp p.order] {es : List E}
    (request : QueueRequest E α) (hcount : request.Countable es) :
    TrackedQueue.Settles p es request.run := by
  cases request with
  | add e => exact ⟨_, TrackedQueue.comesTo_add p es e⟩
  | addAll new => exact ⟨_, TrackedQueue.comesTo_addAll p hcount⟩
  | poll => exact ⟨_, TrackedQueue.comesTo_poll p es⟩
  | peek => exact ⟨_, TrackedQueue.comesTo_peek p es⟩
  | length => exact ⟨_, TrackedQueue.comesTo_length p es⟩
  | isEmpty => exact ⟨_, TrackedQueue.comesTo_isEmpty p es⟩
  | contains e => exact ⟨_, TrackedQueue.comesTo_contains p es e⟩
  | containsAll wanted => exact ⟨_, TrackedQueue.comesTo_containsAll p es wanted⟩
  | toList => exact ⟨_, TrackedQueue.comesTo_toList p es⟩
  | snapshot => exact ⟨_, TrackedQueue.comesTo_snapshot p es⟩
  | remove e => exact ⟨_, TrackedQueue.comesTo_removeWith p es e true⟩
  | removeWith e cascade => exact ⟨_, TrackedQueue.comesTo_removeWith p es e cascade⟩
  | removeAll doomed => exact ⟨_, TrackedQueue.comesTo_removeAll p es doomed⟩
  | retainAll keep => exact ⟨_, TrackedQueue.comesTo_retainAll p es keep⟩
  | clear => exact ⟨_, TrackedQueue.comesTo_clear p es⟩
  | attachCopy target => exact TrackedQueue.settles_attachCopy es target

end QueueRequest

end TrackedFields
