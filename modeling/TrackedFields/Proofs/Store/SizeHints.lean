import TrackedFields.Proofs.Store.Disappearances

/-!
# Size hints

The calls that add or remove a single element carry a size hint. A store records its calls with
their hints, and calls that were recorded can be made anew one by one, so that a hint can be
compared with the size that the container has when its call is made. For a reliable store, it is
said here when the hints of some series of calls are all true: additions whose hint counts on,
removals whose hint counts down, and removals that all carry one hint.
-/

namespace TrackedFields

/-- The size hint of a call of a kind that carries one. -/
def StoreCall.hint? {E : Type} : StoreCall E → Option (Option Nat)
  | .add _ hint | .remove _ hint _ | .removeAt _ hint => some hint
  | .size | .contains _ | .elements | .get _ | .insert _ _ | .set _ _ _ | .clear
  | .updateEmbedded _ _ => none

/-- A recorded call, to be made on the container of some owner. -/
def StoreCall.request {E : Type} : StoreCall E → Store.Request E
  | .size => .size
  | .contains e => .contains e
  | .elements => .elements
  | .get position => .get position
  | .add e hint => .add e hint
  | .insert position e => .insert position e
  | .remove e hint cascade => .remove e hint cascade
  | .removeAt position hint => .removeAt position hint
  | .set position e cascade => .set position e cascade
  | .clear => .clear
  | .updateEmbedded e field => .updateEmbedded e field

namespace Store

variable {E : Type} [DecidableEq E] {owner : ObjectId} {st : Store E}

/-- The store once some recorded calls are made on the container of an owner. -/
def remade (owner : ObjectId) (st : Store E) (calls : List (StoreCall E)) : Store E :=
  Request.runAll owner st (calls.map StoreCall.request)

/-- The size hint of every call is the size that the owner's container has once the calls before it
are made. -/
def HintsTrue (owner : ObjectId) (st : Store E) (calls : List (StoreCall E)) : Prop :=
  ∀ done call rest, calls = done ++ call :: rest →
    ∀ hint ∈ call.hint?, hint = some ((st.remade owner done).contents owner).length

/-- A store that recorded a call and otherwise does what no call changes. -/
structure Recorded (call : StoreCall E) (st after : Store E) : Prop where
  calls : after.calls = st.calls ++ [call]
  continues : st.Continues after

/-! ### Calls made anew -/

/-- Calls are made again one after the other. -/
theorem remade_cons (owner : ObjectId) (st : Store E) (call : StoreCall E)
    (calls : List (StoreCall E)) :
    st.remade owner (call :: calls) = (st.remade owner [call]).remade owner calls := rfl

/-- Calls are made one after the other. -/
theorem remade_append (owner : ObjectId) (st : Store E) (calls more : List (StoreCall E)) :
    st.remade owner (calls ++ more) = (st.remade owner calls).remade owner more := by
  unfold remade Request.runAll
  rw [List.map_append, List.foldl_append]

omit [DecidableEq E] in
private theorem recorded_reading {α : Type} (call : StoreCall E) (answer : Store E → α)
    (st : Store E) : Recorded call st (stateAfter (discard (reading call answer)) st) := by
  rw [stateAfter_discard, stateAfter, reading_eq]
  cases st.reads.now with
  | true => exact ⟨rfl, st.continues_afterRead call⟩
  | false => exact ⟨rfl, st.continues_afterRead call⟩

private theorem recorded_writing {α : Type} {action : StoreAction E α} {call : StoreCall E}
    {owner : ObjectId} {failure : StoreError} {answer : α} {es gone : List E}
    (h : action st = if st.writes.now then .error failure (st.noted call)
      else .ok answer (st.written call owner es gone)) :
    Recorded call st (stateAfter (discard action) st) := by
  rw [stateAfter_discard, stateAfter, h]
  cases st.writes.now with
  | true => exact ⟨rfl, st.continues_noted call⟩
  | false => exact ⟨rfl, st.continues_written call owner es gone⟩

/-- A call is recorded when it is made anew, whether it answers or fails. -/
theorem recorded_remade (owner : ObjectId) (st : Store E) (call : StoreCall E) :
    Recorded call st (st.remade owner [call]) := by
  cases call with
  | size => exact recorded_reading _ _ st
  | contains e => exact recorded_reading _ _ st
  | get position => exact recorded_reading _ _ st
  | updateEmbedded e field => exact recorded_reading _ _ st
  | elements =>
    change Recorded _ st (stateAfter (discard (Store.elements owner)) st)
    rw [stateAfter_discard, stateAfter, elements_eq]
    cases st.reads.now with
    | true => exact ⟨rfl, st.continues_afterRead _⟩
    | false => exact ⟨rfl, st.continues_iterated⟩
  | add e hint => exact recorded_writing (add_eq owner st e hint)
  | remove e hint cascade => exact recorded_writing (remove_eq owner st e hint cascade)
  | removeAt position hint => exact recorded_writing (removeAt_eq owner st position hint)
  | clear =>
    have hclear := recorded_writing (clear_eq owner st)
    rwa [stateAfter_discard] at hclear
  | insert position e =>
    change Recorded _ st (stateAfter (Store.insert owner position e) st)
    rw [stateAfter, insert_eq]
    cases st.writes.now with
    | true => exact ⟨rfl, st.continues_noted _⟩
    | false =>
      by_cases hposition : (st.contents owner).length < position
      · rw [if_neg Bool.false_ne_true, if_pos hposition]
        exact ⟨rfl, st.continues_refused _ owner⟩
      · rw [if_neg Bool.false_ne_true, if_neg hposition]
        exact ⟨rfl, st.continues_written _ owner _ _⟩
  | set position e cascade =>
    change Recorded _ st (stateAfter (discard (Store.set owner position e cascade)) st)
    rw [stateAfter_discard, stateAfter, set_eq]
    cases st.writes.now with
    | true => exact ⟨rfl, st.continues_noted _⟩
    | false =>
      cases (st.contents owner)[position]? with
      | none => exact ⟨rfl, st.continues_refused _ owner⟩
      | some previous => exact ⟨rfl, st.continues_written _ owner _ _⟩

/-- All calls are recorded when they are made anew. -/
theorem calls_remade (owner : ObjectId) (st : Store E) (calls : List (StoreCall E)) :
    (st.remade owner calls).calls = st.calls ++ calls := by
  induction calls generalizing st with
  | nil => exact (List.append_nil _).symm
  | cons call calls ih =>
    rw [remade_cons, ih, (recorded_remade owner st call).calls, List.append_assoc]
    rfl

/-- Calls that are made anew continue a store. -/
theorem continues_remade (owner : ObjectId) (st : Store E) (calls : List (StoreCall E)) :
    st.Continues (st.remade owner calls) := by
  induction calls generalizing st with
  | nil => exact ⟨rfl, id⟩
  | cons call calls ih => exact (recorded_remade owner st call).continues.trans (ih _)

/-! ### Hints that are true -/

/-- Without calls there is no hint to be false. -/
theorem hintsTrue_nil (owner : ObjectId) (st : Store E) : st.HintsTrue owner [] :=
  fun _ _ _ h => absurd h.symm (by simp)

/-- The hints of some calls are true if that of the first one is, and then those of the others. -/
theorem hintsTrue_cons (owner : ObjectId) (st : Store E) (call : StoreCall E)
    (calls : List (StoreCall E)) :
    st.HintsTrue owner (call :: calls) ↔
      (∀ hint ∈ call.hint?, hint = some (st.contents owner).length) ∧
        (st.remade owner [call]).HintsTrue owner calls := by
  constructor
  · intro h
    exact ⟨h [] call calls rfl, fun done later rest hcalls =>
      h (call :: done) later rest (congrArg (call :: ·) hcalls)⟩
  · rintro ⟨hfirst, hrest⟩ done later rest hcalls
    cases done with
    | nil =>
      cases hcalls
      exact hfirst
    | cons first done =>
      cases hcalls
      exact hrest done later rest rfl

/-- The hint of a single call. -/
theorem hintsTrue_singleton {call : StoreCall E} {n : Nat} (hhint : call.hint? = some (some n)) :
    st.HintsTrue owner [call] ↔ n = (st.contents owner).length := by
  rw [hintsTrue_cons, hhint, and_iff_left (hintsTrue_nil owner _)]
  simp

/-- A call without a hint tells nothing that could be untrue. -/
theorem hintsTrue_cons_of_none {call : StoreCall E} (hhint : call.hint? = none)
    (calls : List (StoreCall E)) :
    st.HintsTrue owner (call :: calls) ↔ (st.remade owner [call]).HintsTrue owner calls := by
  rw [hintsTrue_cons, hhint]
  simp

/-! ### Series of calls of a reliable store -/

/-- Additions whose hint counts on. -/
def additions (n : Nat) : List E → List (StoreCall E)
  | [] => []
  | e :: es => .add e (some n) :: additions (n + 1) es

/-- Removals without deletion whose hint counts down. -/
def withdrawals (n : Nat) : List E → List (StoreCall E)
  | [] => []
  | e :: es => .remove e (some n) false :: withdrawals (n - 1) es

/-- Removals that all carry one hint. -/
def removals (n : Nat) (es : List E) : List (StoreCall E) := es.map (.remove · (some n) true)

/-- The removals of an exchange after which some other call follows. -/
def followed (gone new : List E) : List E := if new.isEmpty then gone.dropLast else gone

omit [DecidableEq E] in
private theorem followed_cons {e : E} {gone new : List E} (h : ¬ (gone = [] ∧ new = [])) :
    followed (e :: gone) new = e :: followed gone new := by
  unfold followed
  cases new with
  | nil =>
    have hgone : gone ≠ [] := fun hgone => h ⟨hgone, rfl⟩
    exact List.dropLast_cons_of_ne_nil hgone
  | cons a new => rfl

/-- A list with one more element is part of another one if the others are part of what is left
without a copy of it. -/
theorem cons_subperm_iff {e : E} {es others : List E} :
    (e :: es).Subperm others ↔ e ∈ others ∧ es.Subperm (others.erase e) := by
  constructor
  · intro h
    have hless := h.erase e
    rw [List.erase_cons_head] at hless
    exact ⟨h.subset List.mem_cons_self, hless⟩
  · rintro ⟨he, hless⟩
    exact ((List.subperm_cons e).mpr hless).trans (List.perm_cons_erase he).symm.subperm

section Reliable

variable (h : st.Reliable)

include h

/-- An addition that is made anew is carried out. -/
theorem remade_add (e : E) (hint : Option Nat) :
    st.remade owner [.add e hint] =
      st.written (.add e hint) owner (st.contents owner ++ [e]) [] := by
  change stateAfter (discard (Store.add owner e hint)) st = _
  rw [stateAfter_discard, stateAfter, add_eq, h.writes]
  rfl

/-- A removal that is made anew is carried out. -/
theorem remade_remove (e : E) (hint : Option Nat) (cascade : Bool) :
    st.remade owner [.remove e hint cascade] =
      st.written (.remove e hint cascade) owner ((st.contents owner).erase e)
        (if cascade then (if (st.contents owner).contains e then [e] else []) else []) := by
  change stateAfter (discard (Store.remove owner e hint cascade)) st = _
  rw [stateAfter_discard, stateAfter, remove_eq, h.writes]
  rfl

/-- An element joins. -/
theorem length_contents_add (e : E) (hint : Option Nat) :
    ((st.remade owner [.add e hint]).contents owner).length = (st.contents owner).length + 1 := by
  rw [remade_add h, contents_written_self, (st.arrange_perm _).length_eq,
    List.length_append]
  rfl

/-- One copy of an element leaves. -/
theorem contents_remove_perm (e : E) (hint : Option Nat) (cascade : Bool) :
    ((st.remade owner [.remove e hint cascade]).contents owner).Perm
      ((st.contents owner).erase e) := by
  rw [remade_remove h, contents_written_self]
  exact st.arrange_perm _

/-- All elements leave. -/
theorem contents_clear : (st.remade owner [.clear]).contents owner = [] := by
  change (stateAfter (Store.clear owner) st).contents owner = _
  rw [stateAfter, clear_eq, h.writes]
  change (st.written _ owner _ _).contents owner = _
  rw [contents_written_self]
  exact (st.arrange_perm []).eq_nil

/-- Adding several elements adds them one by one, until the hint leaves its word. -/
theorem stateAfter_addAll (n : Nat) (es : List E) :
    stateAfter (Store.addAll owner es (some n)) st =
      st.remade owner (additions n (es.take (Word.sizeLimit - n))) := by
  have hfrom (offset : Nat) : stateAfter (addFrom owner (some n) offset es) st =
      st.remade owner (additions (n + offset) (es.take (Word.sizeLimit - (n + offset)))) := by
    induction es generalizing st offset with
    | nil =>
      rw [List.take_nil]
      rfl
    | cons e es ih =>
      by_cases hword : n + offset < Word.sizeLimit
      · have hreliable := (continues_remade owner st [.add e (some (n + offset))]).reliable h
        have hmade : Store.add owner e (some (n + offset)) st =
            .ok true (st.remade owner [.add e (some (n + offset))]) := by
          rw [remade_add h, add_eq, h.writes]
          rfl
        have htake : Word.sizeLimit - (n + offset) =
            Word.sizeLimit - (n + (offset + 1)) + 1 := by omega
        rw [addFrom, advanceHint_of_lt hword, pure_bind]
        rw [stateAfter_bind, hmade, htake, List.take_succ_cons, additions]
        dsimp only
        rw [stateAfter_bind_pure, ih hreliable]
        rfl
      · have hnone : Word.sizeLimit - (n + offset) = 0 := by omega
        rw [addFrom, advanceHint_of_le (Nat.not_lt.mp hword)]
        rw [hnone]
        rfl
  exact hfrom 0

/-- Removing several elements removes them one by one. -/
theorem stateAfter_removeAll (n : Nat) (es : List E) :
    stateAfter (Store.removeAll owner es (some n)) st = st.remade owner (removals n es) := by
  induction es generalizing st with
  | nil => rfl
  | cons e es ih =>
    have hreliable := (continues_remade owner st [.remove e (some n) true]).reliable h
    have hmade : Store.remove owner e (some n) true st =
        .ok ((st.contents owner).contains e) (st.remade owner [.remove e (some n) true]) := by
      rw [remade_remove h, remove_eq, h.writes]
      rfl
    rw [Store.removeAll, stateAfter_bind, hmade]
    dsimp only
    rw [stateAfter_bind_pure, ih hreliable]
    rfl

/-- Hints that count on are true if the first one is. -/
theorem hintsTrue_additions (n : Nat) (es : List E) :
    st.HintsTrue owner (additions n es) ↔ es = [] ∨ n = (st.contents owner).length := by
  induction es generalizing st n with
  | nil => exact iff_of_true (hintsTrue_nil owner st) (.inl rfl)
  | cons e es ih =>
    have hreliable := (continues_remade owner st [.add e (some n)]).reliable h
    rw [additions, hintsTrue_cons, ih hreliable, length_contents_add h]
    simp only [StoreCall.hint?, Option.mem_def, Option.some.injEq, forall_eq', List.cons_ne_nil,
      false_or]
    omega

/-- Removals that all carry one hint tell the truth if the first one does and none but the last one
finds its element. -/
theorem hintsTrue_removals (n : Nat) (es : List E) :
    st.HintsTrue owner (removals n es) ↔
      es = [] ∨ n = (st.contents owner).length ∧ ∀ e ∈ es.dropLast, e ∉ st.contents owner := by
  induction es generalizing st with
  | nil => exact iff_of_true (hintsTrue_nil owner st) (.inl rfl)
  | cons e es ih =>
    have hreliable := (continues_remade owner st [.remove e (some n) true]).reliable h
    have hperm : ((st.remade owner [.remove e (some n) true]).contents owner).Perm
        ((st.contents owner).erase e) := contents_remove_perm h e (some n) true
    change st.HintsTrue owner (.remove e (some n) true :: removals n es) ↔ _
    rw [hintsTrue_cons, ih hreliable, hperm.length_eq]
    simp only [hperm.mem_iff, StoreCall.hint?, Option.mem_def, Option.some.injEq, forall_eq',
      List.cons_ne_nil, false_or]
    cases es with
    | nil => simp
    | cons a es =>
      simp only [List.cons_ne_nil, false_or, List.dropLast_cons_cons, List.forall_mem_cons]
      by_cases he : e ∈ st.contents owner
      · have hpos := List.length_pos_of_mem he
        simp only [List.length_erase_of_mem he, he, not_true, false_and, and_false, iff_false]
        omega
      · simp only [List.erase_of_not_mem he, he, not_false_eq_true, true_and]
        tauto

/-- Hints that count down with removals, and then on with additions, are true if the first one is
and every removal that some other call follows takes a copy of its own. -/
theorem hintsTrue_exchange (n : Nat) (gone new : List E) (hgone : gone.length ≤ n) :
    st.HintsTrue owner (withdrawals n gone ++ additions (n - gone.length) new) ↔
      gone = [] ∧ new = [] ∨
        n = (st.contents owner).length ∧ (followed gone new).Subperm (st.contents owner) := by
  induction gone generalizing st n with
  | nil =>
    change st.HintsTrue owner (additions n new) ↔ _
    rw [hintsTrue_additions h]
    simp [followed]
  | cons e gone ih =>
    have hreliable := (continues_remade owner st [.remove e (some n) false]).reliable h
    have hperm : ((st.remade owner [.remove e (some n) false]).contents owner).Perm
        ((st.contents owner).erase e) := contents_remove_perm h e (some n) false
    have hrest : gone.length ≤ n - 1 := by
      rw [List.length_cons] at hgone
      omega
    have hlength : n - (e :: gone).length = n - 1 - gone.length := by
      rw [List.length_cons]
      omega
    rw [hlength, withdrawals, List.cons_append, hintsTrue_cons, ih hreliable _ hrest,
      hperm.length_eq, hperm.subperm_left]
    simp only [StoreCall.hint?, Option.mem_def, Option.some.injEq, forall_eq', List.cons_ne_nil,
      false_and, false_or]
    by_cases hlast : gone = [] ∧ new = []
    · obtain ⟨rfl, rfl⟩ := hlast
      simp [followed]
    · rw [followed_cons hlast, cons_subperm_iff, or_iff_right hlast]
      constructor
      · rintro ⟨hn, hless, hrest⟩
        refine ⟨hn, ?_, hrest⟩
        by_contra he
        rw [List.erase_of_not_mem he] at hless
        rw [List.length_cons] at hgone
        omega
      · rintro ⟨hn, he, hrest⟩
        exact ⟨hn, by rw [List.length_erase_of_mem he, hn], hrest⟩

end Reliable

end Store

end TrackedFields
