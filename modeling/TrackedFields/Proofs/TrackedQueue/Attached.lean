import TrackedFields.Proofs.TrackedQueue.Settled

/-!
# What attaching a priority queue reaches

Attaching goes by what a queue lists, and asks of an element only whether the other side has one
that denotes the same. Each listed element that the attached value lacks leaves once, and each
element of the attached value that the list lacks joins once. So elements that occur on both sides
stay as often as they are held, and a queue that lets its changes wait without keeping its content
in memory, which lists what its store holds, goes by a list without what waits.
-/

namespace TrackedFields

open TrackedList (countSame)

namespace TrackedQueue

variable {E : Type} [DecidableEq E] [Element E] {target : List E}
  {scene after : Scene (TrackedQueue E) E} {o : Owner} {name : StoreName}

/-! ### Attaching -/

omit [Element E] in
/-- What operations make of a container that fits, if elements leave it first and others join it. -/
private theorem exists_carried {rules : Store.Rules E} {es : List E} (hfits : rules.Fits es)
    (gone new : List E) : ∃ next, OperationKind.carryOutAll rules es
        (gone.map (.collectionRemove · false) ++ new.map .collectionAdd) = some next ∧
      next.Perm (gone.foldl List.erase es ++ new) := by
  obtain ⟨next, hnext, hperm⟩ :=
    OperationKind.exists_carryOutAll_joined rules (gone.foldl List.erase es) new
  refine ⟨next, ?_, hperm⟩
  rw [OperationKind.carryOutAll_append, OperationKind.carryOutAll_removed hfits, Option.bind_some]
  exact hnext

/-- What attaching makes of the value of a served queue. -/
structure Attached (target : List E) (scene after : Scene (TrackedQueue E) E) : Prop where
  blocked : Blocked after ↔ Blocked scene
  reconciled : ¬ Blocked scene → (value after).Perm (reconciled target (listed scene) (value scene))
  unchanged : Blocked scene → value after = value scene

omit [DecidableEq E] in
/-- Taking in elements from outside does not change what is listed. -/
theorem listed_attached (target : List E) (scene : Scene (TrackedQueue E) E) :
    listed (Tracked.attached target scene) = listed scene := by
  have hstore (name : StoreName) :
      (Tracked.attached target scene).session.store name = scene.session.store name :=
    Session.store_of_stores_eq (Tracker.stores_attach scene.value.tracker scene.session target) name
  unfold listed
  simp only [hstore]
  rfl

private theorem attached_of_memory (hserved : Served scene)
    (hmemory : scene.value.content.useCache = true ∨ scene.value.hasStore = false)
    (haccepts : scene.value.tracker.Accepts target) :
    ∃ after, attachCopy target scene = .ok () after ∧ Attached target scene after ∧
      listed (settled after) = value after := by
  have hattached : Served (Tracked.attached target scene) :=
    invariant_served.attach target scene hserved
  obtain ⟨mid, hlist, hwhole, helements, htracker⟩ := exists_whole hattached.readable hmemory
  obtain ⟨after, hattach, htracker', hafter, hperm⟩ :=
    reconcile_of_whole hlist hwhole helements (htracker ▸ haccepts)
  rw [listed_attached] at hperm
  obtain ⟨hvalue', hlisted'⟩ := value_of_whole hafter
  obtain ⟨hnot, hvalue⟩ := not_blocked_of_direct (hmemory.imp_right .inl)
  refine ⟨after, hattach, ⟨iff_of_false (not_blocked_of_whole hafter) hnot, fun _ => ?_,
    fun hblocked => absurd hblocked hnot⟩, hlisted'⟩
  rwa [hvalue', hvalue]

/-- A queue that goes by its store is attached. -/
private theorem Fed.attached (h : Fed o name scene) (hserved : Served scene)
    (haccepts : scene.value.tracker.Accepts target) :
    ∃ after, TrackedQueue.attachCopy target scene = .ok () after ∧ Attached target scene after ∧
      listed (settled after) = value after := by
  obtain ⟨after, relations, remaining, hattach, hpasses⟩ := h.attachCopy haccepts
  have hafter : Served after := by
    rw [← stateAfter_of_ok hattach]
    exact invariant_served.attachCopy target scene hserved
  obtain ⟨hblocked, hmade, hstays⟩ := hpasses.made_of_value h hserved hafter fun kind hkind => by
    rcases List.mem_append.mp hkind with hkind | hkind
    · obtain ⟨e, -, rfl⟩ := List.mem_map.mp hkind
      exact trivial
    · obtain ⟨e, -, rfl⟩ := List.mem_map.mp hkind
      exact trivial
  refine ⟨after, hattach, ⟨hblocked, fun hnot => ?_, hstays⟩, ?_⟩
  · -- What the store holds, or will hold, is kept by its rules.
    have hchannel : (settled scene).value.tracker.channel = some (name, o.id) := by
      rw [value_settled]
      exact h.channel
    have hfits := (hserved.settled.proper hchannel).inOrder.fits o.id
    have hrules : ((settled scene).session.store name).rules = scene.session.rules name := by
      unfold settled
      split
      · next hqueued => exact ((hserved.dedicated h.channel hqueued).flushed none).rules
      · rfl
    rw [hrules] at hfits
    have hvalue : value scene = held o name (settled scene) := h.value_eq
    obtain ⟨next, hnext, hperm⟩ := exists_carried hfits
      ((held o name scene).filter fun e => !target.any (Element.same e))
      (target.filter fun e => !(held o name scene).any (Element.same · e))
    have hcarried := hmade hnot
    rw [hvalue] at hcarried
    rw [h.listed_eq, hvalue, Option.some.inj (hcarried.symm.trans hnext)]
    exact hperm
  · rw [value, (hpasses.fed h).useCache]
    rfl

/-- A served queue is attached, if no null element is refused, and lists in the end what it
holds. -/
theorem exists_attached (hserved : Served scene) (haccepts : scene.value.tracker.Accepts target) :
    ∃ after last, attachCopy target scene = .ok () after ∧ Attached target scene after ∧
      toList (settled after) = .ok (value after) last := by
  have hattached : ∃ after, attachCopy target scene = .ok () after ∧ Attached target scene after ∧
      listed (settled after) = value after := by
    by_cases hmemory : scene.value.content.useCache = true ∨ scene.value.hasStore = false
    · exact attached_of_memory hserved hmemory haccepts
    · obtain ⟨huse, hstore⟩ := not_or.mp hmemory
      obtain ⟨⟨name, owner⟩, hchannel⟩ := Option.isSome_iff_exists.mp (Bool.not_eq_false _ ▸ hstore)
      obtain ⟨o, howner, rfl, hname⟩ := Tracker.exists_owner_of_channel hchannel
      have hfed : Fed o name scene :=
        ⟨howner, hname.symm, Bool.not_eq_true _ ▸ huse, (hserved.proper hchannel).reliable⟩
      exact hfed.attached hserved haccepts
  obtain ⟨after, hattach, hafter, hlisted⟩ := hattached
  have hserved' : Served after := by
    rw [← stateAfter_of_ok hattach]
    exact invariant_served.attachCopy target scene hserved
  obtain ⟨last, hlast, -⟩ := exists_toList hserved'.settled.readable
  exact ⟨after, last, hattach, hafter, hlisted ▸ hlast⟩

/-- Attaching always goes well, on any queue that a run of a served one reaches, and so does listing
it once what waits is flushed. Elements leave and join by what the queue lists and by what the
attached value has, as far as the queue is not blocked; then each kind is held as often as the value
has it, exactly if the two lists and what the queue holds with all that waits go together. For
queues that list what they hold, this says that no kind is on both sides in different numbers. -/
theorem attached_by_membership {start scene : Scene (TrackedQueue E) E} (hstart : Served start)
    (hrun : Relation.ReflTransGen (Tracked.Step (Admits fun _ => True)) start scene)
    (haccepts : scene.value.tracker.Accepts target) :
    let shown := listed scene
    let held := value scene
    (∃ mid, toList scene = .ok shown mid) ∧
    ∃ after left last, attachCopy target scene = .ok () after ∧
      toList (settled after) = .ok left last ∧ (Blocked after ↔ Blocked scene) ∧
      (Blocked scene → left = held) ∧
      (¬ Blocked scene →
        left.Perm (reconciled target shown held) ∧
          ((∀ e, countSame left e = countSame target e) ↔ Reconcilable target shown held)) ∧
      (scene.value.content.useCache = true ∨ scene.value.hasStore = false ∨
          scene.value.tracker.isQueued = false →
        ((∀ e, countSame left e = countSame target e) ↔
          ∀ e ∈ target, 0 < countSame shown e → countSame shown e = countSame target e)) := by
  intro shown held
  have hserved : Served scene := hstart.run hrun
  obtain ⟨mid, hlist, -⟩ := exists_toList hserved.readable
  obtain ⟨after, last, hattach, hattached, hlast⟩ := exists_attached hserved haccepts
  have hmatches (hnot : ¬ Blocked scene) :
      (∀ e, countSame (value after) e = countSame target e) ↔ Reconcilable target shown held := by
    rw [← reconciled_matches_iff]
    exact forall_congr' fun e => by
      rw [countSame, (hattached.reconciled hnot).countP_eq, ← countSame]
  refine ⟨⟨mid, hlist⟩, after, value after, last, hattach, hlast, hattached.blocked,
    hattached.unchanged, fun hnot => ⟨hattached.reconciled hnot, hmatches hnot⟩, fun hdirect => ?_⟩
  obtain ⟨hnot, hheld⟩ := not_blocked_of_direct hdirect
  rw [hmatches hnot, ← reconcilable_of_shown_iff]
  exact iff_of_eq (congrArg _ hheld)

/-- A queue that goes by a store of 1 and 2 adds a 1, which a flush writes, and takes over the value
of 2 and twice 3. -/
theorem attached_by_membership_of_single_copies :
    let cmp : Comparator Int32 := compareOn Int32.toInt
    let o : Owner := { id := .ofNat 7, descriptor := { name := "scores", ordinal := ⟨2⟩ } }
    let session : Session Int32 := {
      settings := { Settings.queued with cacheCollections := false }
      entities := Table.empty.set o.id { typeName := "Game" }
      stores := Table.empty.set "scores" (Store.seed { order := some cmp } o.id [2, 1])
      registry := Table.empty.set (o.id, o.field) "scores" }
    let start : Scene (TrackedQueue Int32) Int32 := ⟨owned o cmp session, session⟩
    let added := stateAfter (add 1) start
    let scene : Scene (TrackedQueue Int32) Int32 :=
      ⟨added.value, stateAfter (Session.flush none) added.session⟩
    let target : List Int32 := [2, 3, 3]
    Served start ∧ Relation.ReflTransGen (Tracked.Step (Admits fun _ => True)) start scene ∧
      scene.value.tracker.Accepts target ∧ listed scene = [1, 1, 2] ∧ value scene = [1, 1, 2] ∧
      ¬ Blocked scene ∧ Reconcilable target (listed scene) (value scene) ∧
      ∃ after left last, attachCopy target scene = .ok () after ∧
        toList (settled after) = .ok left last ∧ left.Perm target ∧
        ∀ e, countSame left e = countSame target e := by
  intro cmp o session start added scene target
  have hstart : Served start := .seeded (by cbv) rfl rfl
  have hrun : Relation.ReflTransGen (Tracked.Step (Admits fun _ => True)) start scene :=
    (Relation.ReflTransGen.single (.call (.ordinary (.add 1)) start)).tail (.flush none _)
  have haccepts : scene.value.tracker.Accepts target := .inr fun _ _ => rfl
  have hshown : listed scene = [1, 1, 2] := by
    subst scene added start session
    cbv
  have hheld : value scene = [1, 1, 2] := by
    subst scene added start session
    cbv
  have hpending : scene.session.pending = [] := by
    subst scene added start session
    cbv
  have hnot : ¬ Blocked scene := not_blocked_of_nil hpending
  have hgoes : Reconcilable target (listed scene) (value scene) := by
    rw [hshown, hheld, reconcilable_of_shown_iff]
    simp only [target, List.forall_mem_cons]
    exact ⟨by decide, by decide, by decide, List.forall_mem_nil _⟩
  obtain ⟨-, after, left, last, hattach, hlist, -, -, hreached, -⟩ :=
    attached_by_membership hstart hrun haccepts
  obtain ⟨hperm, hmatches⟩ := hreached hnot
  have hresult : reconciled target [1, 1, 2] [1, 1, 2] = [2, 3, 3] := by decide
  rw [hshown, hheld, hresult] at hperm
  exact ⟨hstart, hrun, haccepts, hshown, hheld, hnot, hgoes, after, left, last, hattach, hlist,
    hperm, hmatches.mpr hgoes⟩

/-- A queue with two copies of an element keeps both when a value with one is attached, a queue with
one copy takes no second, and a queue that goes by its store takes an element again that it has let
wait. -/
theorem attach_by_membership_miscounts :
    let cmp : Comparator Int32 := compareOn Int32.toInt
    let o : Owner := { id := .ofNat 7, descriptor := { name := "scores", ordinal := ⟨2⟩ } }
    let session (settings : Settings) (stored : List Int32) : Session Int32 := {
      settings
      entities := Table.empty.set o.id { typeName := "Game" }
      stores := Table.empty.set "scores" (Store.seed { order := some cmp } o.id stored)
      registry := Table.empty.set (o.id, o.field) "scores" }
    let uncached : Settings := { Settings.queued with cacheCollections := false }
    let start (settings : Settings) (stored : List Int32) : Scene (TrackedQueue Int32) Int32 :=
      ⟨owned o cmp (session settings stored), session settings stored⟩
    let twice := start {} [1, 1]
    let once := start {} [1]
    let waiting := stateAfter (add 1) (start uncached [])
    let Leaves (target left : List Int32) (scene : Scene (TrackedQueue Int32) Int32) : Prop :=
      scene.value.tracker.Accepts target ∧ ∃ after last,
        attachCopy target scene = .ok () after ∧ toList (settled after) = .ok left last
    (∀ settings stored, Served (start settings stored)) ∧
      Relation.ReflTransGen (Tracked.Step (Admits fun _ => True)) (start uncached []) waiting ∧
      Leaves [1] [1, 1] twice ∧ Leaves [1, 1] [1] once ∧ Leaves [1] [1, 1] waiting ∧
      countSame [(1 : Int32), 1] 1 ≠ countSame [(1 : Int32)] 1 := by
  intro cmp o session uncached start twice once waiting Leaves
  have hserved (settings : Settings) (stored : List Int32) : Served (start settings stored) :=
    .seeded rfl rfl rfl
  have hrun : Relation.ReflTransGen (Tracked.Step (Admits fun _ => True)) (start uncached [])
      waiting := .single (.call (.ordinary (.add 1)) _)
  have hleaves {target left : List Int32} {scene : Scene (TrackedQueue Int32) Int32}
      (hscene : Served scene) (hvalue : value (stateAfter (attachCopy target) scene) = left) :
      Leaves target left scene := by
    have haccepts : scene.value.tracker.Accepts target := .inr fun _ _ => rfl
    obtain ⟨after, last, hattach, -, hlist⟩ := exists_attached hscene haccepts
    rw [stateAfter_of_ok hattach] at hvalue
    exact ⟨haccepts, after, last, hattach, hvalue ▸ hlist⟩
  exact ⟨hserved, hrun, hleaves (hserved _ _) (by cbv), hleaves (hserved _ _) (by cbv),
    hleaves ((hserved _ _).run hrun) (by cbv), by decide⟩

end TrackedQueue

end TrackedFields
