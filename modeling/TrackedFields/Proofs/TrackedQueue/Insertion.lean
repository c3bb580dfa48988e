import TrackedFields.Proofs.Store.Disappearances
import TrackedFields.Proofs.TrackedQueue.Replacement
import TrackedFields.Proofs.TrackedQueue.Requests

/-!
# Insertion agrees with sorting

A priority queue inserts each new element at its place in a sorted list; a store with an order
appends it and sorts the whole container again; a queue that takes over a value sorts it once. All
of them come to the same list, the stable sort of the elements in the order of their arrival.
Elements may leave in between: what is left in a sorted list is sorted, and it is the stable sort of
what is left of the elements in the order of arrival.
-/

namespace TrackedFields

/-- What happens to a list of elements: one joins, one leaves, or all listed ones leave. -/
inductive Edit (E : Type) where
  | join (e : E)
  | leave (e : E) (cascade : Bool)
  | leaveAll (gone : List E)

namespace Edit

variable {E : Type} [DecidableEq E]

/-- The edit of a list that is kept in the order of arrival. -/
def arrival (es : List E) : Edit E → List E
  | join e => es ++ [e]
  | leave e _ => es.erase e
  | leaveAll gone => es.filter fun e => !gone.contains e

variable [Element E]

/-- The edit of a priority queue. -/
def onQueue : Edit E → TrackedQueue.Action E Bool
  | join e => TrackedQueue.add e
  | leave e cascade => TrackedQueue.removeWith e cascade
  | leaveAll gone => TrackedQueue.removeAll gone

/-- Whether a queue takes the element that joins, if there is one. -/
def Accepted (p : TrackedQueue.Profile E) : Edit E → Prop
  | join e => p.check e = .ok ()
  | leave _ _ | leaveAll _ => True

end Edit

/-- Those of the coming calls that an outage lets pass. -/
def Outage.admitted {α : Type} (o : Outage) : List α → List α
  | [] => []
  | a :: as => if o.now then o.next.admitted as else a :: o.next.admitted as

/-- Without outage, all calls pass. -/
@[simp] theorem Outage.admitted_never {α : Type} (as : List α) : never.admitted as = as := by
  induction as with
  | nil => rfl
  | cons a as ih => rw [admitted, next_never, ih, now_never, if_neg Bool.false_ne_true]

namespace Store.Request

variable {E : Type} [DecidableEq E] {owner : ObjectId} {st : Store E} {cmp : Comparator E}

/-- The additions of elements, each with its size hint. -/
def addEach (added : List (E × Option Nat)) : List (Request E) :=
  added.map fun (e, hint) => .add e hint

/-- A store with an order, which sorts after each addition, holds what inserting the admitted
elements makes of its container. -/
theorem contents_runAll_addEach [Std.TransCmp cmp] (horder : st.order = some cmp)
    (hsorted : cmp.Sorted (st.contents owner)) (added : List (E × Option Nat)) :
    (runAll owner st (addEach added)).contents owner =
      cmp.insertAll (st.contents owner) ((st.writes.admitted added).map Prod.fst) := by
  induction added generalizing st with
  | nil => rfl
  | cons first added ih =>
    obtain ⟨e, hint⟩ := first
    have hadd := add_eq owner st e hint
    change (runAll owner (stateAfter (discard (Store.add owner e hint)) st)
      (addEach added)).contents owner = _
    rw [stateAfter_discard, stateAfter, hadd, Outage.admitted]
    cases st.writes.now with
    | true => exact ih horder hsorted
    | false =>
      let after := st.written (.add e hint) owner (st.contents owner ++ [e]) []
      have hcontents : after.contents owner = cmp.insert (st.contents owner) e := by
        rw [contents_written_self, arrange, horder, hsorted.insert_eq_sort]
      have hafter : cmp.Sorted (after.contents owner) := by
        rw [hcontents]
        exact hsorted.insert e
      have hrest : (runAll owner after (addEach added)).contents owner = _ := ih horder hafter
      rw [hcontents] at hrest
      exact hrest

end Store.Request

namespace TrackedQueue

variable {E : Type}

/-- An action succeeds and leaves some elements in memory. -/
def Leaves (action : Action E Unit) (scene : Scene (TrackedQueue E) E) (es : List E) : Prop :=
  ∃ after, action scene = .ok () after ∧ after.value.content.elements = es

/-! ### Values that are taken over as a whole -/

section Whole

variable {scene : Scene (TrackedQueue E) E}

/-- A queue that is loaded sorts what its store holds. -/
theorem leaves_loadFromStore {name : StoreName} {owner : ObjectId}
    (hchannel : scene.value.tracker.channel = some (name, owner))
    (hloaded : scene.value.content.loaded = false)
    (hnow : (scene.session.store name).reads.now = false) :
    Leaves loadFromStore scene
      (scene.value.content.order.sort ((scene.session.store name).contents owner)) :=
  ⟨_, loadFromStore_of_read hchannel hloaded (read_elements_of_now hnow owner), rfl⟩

/-- A queue sorts a value that it takes over from its store. -/
theorem leaves_initialiseFrom (es : List E) (scene : Scene (TrackedQueue E) E) :
    Leaves (initialiseFrom es) scene (scene.value.content.order.sort es) :=
  ⟨_, rfl, rfl⟩

/-- A queue sorts a value that replaces its own. -/
theorem leaves_initialiseWith [DecidableEq E] (es : List E) (scene : Scene (TrackedQueue E) E) :
    Leaves (initialiseWith es) scene (scene.value.content.order.sort es) :=
  ⟨_, initialiseWith_apply es scene, rfl⟩

end Whole

/-! ### Edits of a queue -/

section Edits

variable [DecidableEq E] [Element E] {p : Profile E} {o : Owner}
  {scene : Scene (TrackedQueue E) E}

/-- On a queue that shows the sorted list of some elements, an edit succeeds and comes to the sorted
list of what it makes of the elements in the order of arrival. -/
theorem exists_comesTo_onQueue [Std.TransCmp p.order] (es : List E) {edit : Edit E}
    (haccepted : edit.Accepted p) :
    ∃ outcome answer, ComesTo p (p.order.sort es) edit.onQueue outcome ∧
      outcome.result = .ok answer ∧ outcome.elements = p.order.sort (edit.arrival es) := by
  cases edit with
  | join e =>
    have hadd := comesTo_add p (p.order.sort es) e
    rw [show p.check e = .ok () from haccepted] at hadd
    exact ⟨_, true, hadd, rfl, (p.order.sort_append es [e]).symm⟩
  | leave e cascade =>
    exact ⟨_, _, comesTo_removeWith p (p.order.sort es) e cascade, rfl,
      (p.order.sort_erase e es).symm⟩
  | leaveAll gone =>
    have hremove := comesTo_removeAll p (p.order.sort es) gone
    have hleft := p.order.sort_filter (fun e => !gone.contains e) es
    cases gone with
    | nil =>
      -- Nobody is asked to leave, and nobody is told.
      have hall : (p.order.sort es).filter (fun e => !([] : List E).contains e) =
          p.order.sort es := List.filter_eq_self.mpr fun _ _ => rfl
      exact ⟨_, false, hremove, rfl, (hleft.trans hall).symm⟩
    | cons e gone => exact ⟨_, _, hremove, rfl, hleft.symm⟩

/-- Edits of a queue, one after the other. -/
theorem Shows.exists_onQueue_all [Std.TransCmp p.order] {es : List E}
    (h : Shows p o (p.order.sort es) scene) {edits : List (Edit E)}
    (haccepted : ∀ edit ∈ edits, edit.Accepted p) :
    ∃ after, edits.forM (fun edit => discard edit.onQueue) scene = .ok () after ∧
      after.value.tracker = scene.value.tracker ∧
      scene.value.content.Continues after.value.content ∧
      Shows p o (p.order.sort (edits.foldl Edit.arrival es)) after := by
  induction edits generalizing es scene with
  | nil => exact ⟨scene, rfl, rfl, ⟨rfl, rfl, id⟩, h⟩
  | cons edit edits ih =>
    obtain ⟨hfirst, hrest⟩ := List.forall_mem_cons.mp haccepted
    obtain ⟨outcome, answer, hcomes, hanswer, helements⟩ := exists_comesTo_onQueue es hfirst
    obtain ⟨mid, hrun, hbecomes⟩ := hcomes o scene h
    have hmid := hbecomes.shows
    rw [helements] at hmid
    obtain ⟨after, hafter, htracker, hcontent, hshows⟩ := ih hmid hrest
    refine ⟨after, ?_, htracker.trans hbecomes.tracker, hbecomes.content.trans hcontent, hshows⟩
    change (discard edit.onQueue >>= fun _ => edits.forM fun edit => discard edit.onQueue) scene = _
    rw [bind_apply, discard_apply, hrun, hanswer]
    exact hafter

end Edits

/-- Insertion agrees with sorting. The stable sort of a list is the one sorted list that has the
elements of each kind in the same order. Inserting elements into a sorted list by bisection comes to
the stable sort of the list followed by these elements. So does what a store with an order makes of
them, which sorts after each addition, and what a queue makes of them, which sorts once, when it is
loaded from a store, sorted or not, or given them as its value. Removals, of an element, of all that
satisfy a condition or at a position, leave a sorted list, and they may be made before or after the
sorting. So a queue that shows a sorted list shows the stable sort of the elements in the order of
arrival, after any edits, and that is what it holds in memory and what its store holds. -/
theorem insertion_agrees_with_sorting [DecidableEq E] [Element E] (cmp : Comparator E)
    [Std.TransCmp cmp] {d : List E} (hd : cmp.Sorted d) :
    (∀ es out : List E, out = cmp.sort es ↔
      cmp.Sorted out ∧ ∀ e, out.filter (cmp.ties e) = es.filter (cmp.ties e)) ∧
    (∀ x : E, cmp.insert d x = cmp.sort (d ++ [x])) ∧
    (∀ xs : List E, cmp.insertAll d xs = cmp.sort (d ++ xs)) ∧
    (∀ (st : Store E) (owner : ObjectId), st.order = some cmp → st.contents owner = d →
      ∀ added : List (E × Option Nat),
        (Store.Request.runAll owner st (Store.Request.addEach added)).contents owner =
          cmp.insertAll d ((st.writes.admitted added).map Prod.fst) ∧
        (st.writes = .never →
          (Store.Request.runAll owner st (Store.Request.addEach added)).contents owner =
            cmp.sort (d ++ added.map Prod.fst))) ∧
    (∀ (xs : List E) (scene : Scene (TrackedQueue E) E), scene.value.content.order = cmp →
      (∀ name owner, scene.value.tracker.channel = some (name, owner) →
        scene.value.content.loaded = false → (scene.session.store name).reads.now = false →
        ((scene.session.store name).contents owner = d ++ xs ∨
          (scene.session.store name).contents owner = cmp.insertAll d xs) →
          Leaves loadFromStore scene (cmp.insertAll d xs)) ∧
      Leaves (initialiseFrom (d ++ xs)) scene (cmp.insertAll d xs) ∧
      Leaves (initialiseWith (d ++ xs)) scene (cmp.insertAll d xs)) ∧
    (∀ (xs : List E) (e : E), cmp.Sorted (d.erase e) ∧
      (cmp.insertAll d xs).erase e = cmp.sort ((d ++ xs).erase e) ∧
      (cmp.insertAll d xs).erase e =
        cmp.insertAll (d.erase e) (if e ∈ d then xs else xs.erase e)) ∧
    (∀ (xs : List E) (stays : E → Bool), cmp.Sorted (d.filter stays) ∧
      (cmp.insertAll d xs).filter stays = cmp.sort ((d ++ xs).filter stays) ∧
      (cmp.insertAll d xs).filter stays = cmp.insertAll (d.filter stays) (xs.filter stays)) ∧
    (∀ (xs : List E) (index : Nat), index < (d ++ xs).length → cmp.Sorted (d.eraseIdx index) ∧
      ∃ place, (d ++ xs)[place]? = (cmp.insertAll d xs)[index]? ∧
        (cmp.insertAll d xs).eraseIdx index = cmp.sort ((d ++ xs).eraseIdx place)) ∧
    ∀ (p : Profile E) (o : Owner) (scene : Scene (TrackedQueue E) E), p.order = cmp →
      Shows p o d scene → ∀ edits : List (Edit E), (∀ edit ∈ edits, edit.Accepted p) →
        ∃ after, edits.forM (fun edit => discard edit.onQueue) scene = .ok () after ∧
          Shows p o (cmp.sort (edits.foldl Edit.arrival d)) after ∧
          (scene.value.isAuthoritative = true →
            after.value.content.elements = cmp.sort (edits.foldl Edit.arrival d)) ∧
          ∀ name, scene.value.tracker.dispatch = .immediate name →
            (after.session.store name).contents o.id = cmp.sort (edits.foldl Edit.arrival d) := by
  have hall (xs : List E) : cmp.insertAll d xs = cmp.sort (d ++ xs) := hd.insertAll_eq_sort xs
  refine ⟨fun es out => cmp.eq_sort_iff, hd.insert_eq_sort, hall, ?_, ?_, ?_, ?_, ?_, ?_⟩
  · rintro st owner horder rfl added
    have hadded := Store.Request.contents_runAll_addEach horder hd added
    refine ⟨hadded, fun hnever => ?_⟩
    rw [hadded, hnever, Outage.admitted_never, hall]
  · rintro xs scene rfl
    refine ⟨fun name owner hchannel hloaded hnow hcontents => ?_, ?_, ?_⟩
    · have hload := leaves_loadFromStore hchannel hloaded hnow
      rcases hcontents with hcontents | hcontents
      · rwa [hcontents, ← hall] at hload
      · rwa [hcontents, Comparator.sort_of_sorted (hd.insertAll xs)] at hload
    · rw [hall]
      exact leaves_initialiseFrom (d ++ xs) scene
    · rw [hall]
      exact leaves_initialiseWith (d ++ xs) scene
  · intro xs e
    refine ⟨hd.sublist List.erase_sublist, ?_, hd.erase_insertAll e xs⟩
    rw [hall, cmp.sort_erase]
  · intro xs stays
    refine ⟨hd.sublist List.filter_sublist, ?_, hd.filter_insertAll stays xs⟩
    rw [hall, cmp.sort_filter]
  · intro xs index hindex
    obtain ⟨place, hplace, herase⟩ := cmp.exists_sort_eraseIdx hindex
    rw [hall]
    exact ⟨hd.sublist (List.eraseIdx_sublist d index), place, hplace, herase.symm⟩
  · rintro p o scene rfl hshows edits haccepted
    rw [← Comparator.sort_of_sorted hd] at hshows
    obtain ⟨after, hrun, htracker, hcontent, hafter⟩ := hshows.exists_onQueue_all haccepted
    refine ⟨after, hrun, hafter, fun hauthoritative => ?_, fun name hname => ?_⟩
    · exact hafter.inMemory (isAuthoritative_of_continues htracker hcontent hauthoritative)
    · rw [← htracker] at hname
      exact (hafter.inStore name hname).contents

/-- A store and a queue whose elements compare by their tens. New elements find their places behind
those of the same tens; an addition that the store rejects is left out. The queue is loaded with
what the store holds, and after some edits the store holds what is left in the order of arrival,
sorted by tens. -/
theorem insertion_agrees_with_sorting_among_ties :
    let cmp : Comparator Int32 := compareOn fun e => e.toInt / 10
    let d : List Int32 := [11, 25, 21]
    let o : Owner := { id := .ofNat 7, descriptor := { name := "books", ordinal := ⟨3⟩ } }
    let st : Store Int32 := Store.put { order := some cmp, dependent := true } o.id d
    let failing : Store Int32 := { st with writes := .after 2 }
    let scene : Scene (TrackedQueue Int32) Int32 := {
      value := {
        tracker := { owner := some o, dispatch := .immediate "books", allowNulls := false }
        content := { order := cmp, useCache := true, lazily := true } }
      session := { stores := Table.empty.set "books" st } }
    cmp.Sorted d ∧ cmp.insertAll d [27, 13, 20] = cmp.sort (d ++ [27, 13, 20]) ∧
      cmp.insertAll d [27, 13, 20] = [11, 13, 25, 21, 27, 20] ∧
      (Store.Request.runAll o.id failing
        (Store.Request.addEach [(27, some 3), (13, some 4), (20, none)])).contents o.id =
          cmp.insertAll d [27, 13] ∧
      Leaves loadFromStore scene d ∧
      ∃ after, [Edit.join 27, .leave 25 true, .leaveAll [11], .join 20].forM
          (fun edit => discard edit.onQueue) scene = .ok () after ∧
        (after.session.store "books").contents o.id = [21, 27, 20] := by
  intro cmp d o st failing scene
  have hd : cmp.Sorted d := by
    unfold Comparator.Sorted
    decide
  obtain ⟨-, -, hinserted, hstore, hloaded, -, -, -, hedits⟩ :=
    insertion_agrees_with_sorting cmp hd
  have hload := (hloaded [] scene rfl).1 "books" o.id rfl rfl rfl (.inl rfl)
  let p : Profile Int32 := ⟨cmp, scene.value.tracker.check⟩
  have hshows : Shows p o d scene := by
    refine ⟨rfl, rfl, rfl, hd, fun h => (by cases h), ?_, fun hnot => absurd rfl (hnot "books")⟩
    rintro name hname
    obtain rfl : "books" = name := Dispatch.immediate.inj hname
    exact ⟨rfl, ⟨rfl, rfl⟩, rfl⟩
  let edits : List (Edit Int32) := [.join 27, .leave 25 true, .leaveAll [11], .join 20]
  have haccepted : ∀ edit ∈ edits, edit.Accepted p := by
    intro edit _
    cases edit with
    | join e => rfl
    | leave e cascade => trivial
    | leaveAll gone => trivial
  obtain ⟨after, hafter, -, -, hends⟩ := hedits p o scene rfl hshows edits haccepted
  have harrived : edits.foldl Edit.arrival d = [21, 27, 20] := by decide
  rw [harrived] at hends
  exact ⟨hd, hinserted _, by cbv, (hstore failing o.id rfl rfl _).1, hload, after, hafter,
    (hends "books" rfl).trans (by cbv)⟩

end TrackedQueue

end TrackedFields
