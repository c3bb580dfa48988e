import Mathlib.Data.List.Basic
import TrackedFields.Proofs.Lockstep
import TrackedFields.Proofs.Store.Calls
import TrackedFields.Store.Bulk

/-!
# Size hints without influence

No write of a store looks at its size hint: the hint is written down with the call, and that is all.
Single additions and removals, and bulk removals, therefore end alike whatever hints they are given.
A bulk addition counts its hint on for every element and stops where the count leaves its word, with
the elements before that already added. The main statement says which hints decide nothing, and what
a bulk addition leaves that is stopped by its hint.
-/

namespace TrackedFields

/-- A call without its size hint. -/
def StoreCall.unhinted {E : Type} : StoreCall E → StoreCall E
  | .add e _ => .add e none
  | .remove e _ cascade => .remove e none cascade
  | .removeAt position _ => .removeAt position none
  | call => call

namespace Store

/-! ### Ends that are alike but for the hints -/

section Alike

variable {E α : Type}

/-- Two stores that differ at most in the size hints of the calls that they recorded. -/
def SameButHints (st other : Store E) : Prop :=
  ∃ calls, other = { st with calls } ∧
    calls.map StoreCall.unhinted = st.calls.map StoreCall.unhinted

/-- Two failures that are both a rejected write. -/
def Rejections (owner : ObjectId) (failure failure' : StoreError) : Prop :=
  failure = .writeRejected owner ∧ failure' = .writeRejected owner

/-- Two actions on one store end alike: with the same answer or the same failure, and with stores
that differ at most in the size hints of the calls that they recorded. -/
def EndAlike (st : Store E) (first second : StoreAction E α) : Prop :=
  Agree SameButHints Eq Eq (first st) (second st)

namespace SameButHints

variable {st mid other : Store E}

/-- Every store is the same as itself but for hints. -/
theorem refl (st : Store E) : st.SameButHints st := ⟨st.calls, rfl, rfl⟩

/-- Being the same but for hints has no direction. -/
theorem symm (h : st.SameButHints other) : other.SameButHints st := by
  obtain ⟨calls, rfl, hcalls⟩ := h
  exact ⟨st.calls, rfl, hcalls.symm⟩

/-- Stores that are the same as a third but for hints are so among each other. -/
theorem trans (h : st.SameButHints mid) (h' : mid.SameButHints other) :
    st.SameButHints other := by
  obtain ⟨calls, rfl, hcalls⟩ := h
  obtain ⟨more, rfl, hmore⟩ := h'
  exact ⟨more, rfl, hmore.trans hcalls⟩

/-- The writes that a store counts carry no hints. -/
theorem mutations (h : st.SameButHints other) : other.mutations = st.mutations := by
  obtain ⟨calls, rfl, -⟩ := h
  rfl

/-- One more write on either side, with whatever hints. -/
theorem noted (h : st.SameButHints other) {call call' : StoreCall E}
    (hcall : call.unhinted = call'.unhinted) :
    (st.noted call).SameButHints (other.noted call') := by
  obtain ⟨calls, rfl, hcalls⟩ := h
  refine ⟨calls ++ [call'], rfl, ?_⟩
  simp only [Store.noted, List.map_append, List.map_cons, List.map_nil, hcalls, hcall]

/-- The same content for an owner on either side. -/
theorem put (h : st.SameButHints other) (owner : ObjectId) (es : List E) :
    (st.put owner es).SameButHints (other.put owner es) := by
  obtain ⟨calls, rfl, hcalls⟩ := h
  exact ⟨calls, rfl, hcalls⟩

end SameButHints

namespace EndAlike

variable {st : Store E} {first second third : StoreAction E α}

/-- An action ends as it ends. -/
theorem refl (st : Store E) (action : StoreAction E α) : st.EndAlike action action := by
  unfold EndAlike
  cases action st with
  | ok answer after => exact .ok rfl (.refl after)
  | error failure after => exact .error rfl (.refl after)

/-- Ending alike has no direction. -/
theorem symm (h : st.EndAlike first second) : st.EndAlike second first := by
  unfold EndAlike at h ⊢
  generalize first st = result, second st = result' at h ⊢
  cases h with
  | ok answers states => exact .ok answers.symm states.symm
  | error failures states => exact .error failures.symm states.symm

/-- Actions that end like a third end alike. -/
theorem trans (h : st.EndAlike first second) (h' : st.EndAlike second third) :
    st.EndAlike first third := by
  unfold EndAlike at h h' ⊢
  generalize first st = result, second st = result', third st = result'' at h h' ⊢
  cases h with
  | ok answers states =>
    cases h' with
    | ok answers' states' => exact .ok (answers.trans answers') (states.trans states')
  | error failures states =>
    cases h' with
    | error failures' states' => exact .error (failures.trans failures') (states.trans states')

/-- Actions that are rejected with the same error, or else agree, end alike. -/
theorem of_rejections {owner : ObjectId}
    (h : Agree SameButHints (Rejections owner) Eq (first st) (second st)) :
    st.EndAlike first second :=
  Agree.imp h (fun _ _ hstores => hstores) fun _ _ hfailures =>
    hfailures.1.trans hfailures.2.symm

end EndAlike

end Alike

/-! ### Single calls and bulk removals -/

section Calls

variable {E α : Type}

/-- A write does not look at the hint of its call. It fails by a rejection or a refusal. -/
theorem lockstep_writing {call call' : StoreCall E} (hcall : call.unhinted = call'.unhinted)
    {owner : ObjectId} {change : List E → Except StoreError (α × List E)}
    {F : StoreError → StoreError → Prop}
    (hrejected : F (.writeRejected owner) (.writeRejected owner))
    (hrefused : ∀ es failure, change es = .error failure → F failure failure) :
    Lockstep SameButHints F Eq (writing call owner change) (writing call' owner change) := by
  intro st other h
  have hnoted := h.noted hcall
  obtain ⟨calls, rfl, -⟩ := h
  have hwrites : ({ st with calls } : Store E).writes.now = st.writes.now := rfl
  have hcontents : ({ st with calls } : Store E).contents owner = st.contents owner := rfl
  rw [writing_eq, writing_eq, hwrites, hcontents]
  split
  · exact .error hrejected hnoted
  · cases hchange : change (st.contents owner) with
    | error failure =>
      exact .error (hrefused _ failure hchange) (hnoted.put owner (st.contents owner))
    | ok result => exact .ok rfl (hnoted.put owner (st.arrange result.2))

/-- Adding an element. Only a rejected write stops it. -/
theorem lockstep_add (owner : ObjectId) (e : E) (hint other : Option Nat) :
    Lockstep SameButHints (Rejections owner) Eq (add owner e hint) (add owner e other) := by
  have hcall : (StoreCall.add e hint).unhinted = (StoreCall.add e other).unhinted := rfl
  exact lockstep_writing hcall ⟨rfl, rfl⟩ nofun

variable [DecidableEq E]

/-- Deleting what has lost its last place. -/
theorem lockstep_deleteOrphans (owner : ObjectId) (cascade : Bool) (removed : List E) :
    Lockstep SameButHints Eq Eq (deleteOrphans owner cascade removed)
      (deleteOrphans owner cascade removed) := by
  refine Lockstep.mono (Lockstep.of_modify ?_) fun _ _ _ => rfl
  rintro st other ⟨calls, rfl, hcalls⟩
  change SameButHints _ (if (st.dependent && cascade) = true then _ else _)
  split
  · exact ⟨calls, rfl, hcalls⟩
  · exact ⟨calls, rfl, hcalls⟩

/-- Removing an element. -/
theorem lockstep_remove (owner : ObjectId) (e : E) (cascade : Bool) (hint other : Option Nat) :
    Lockstep SameButHints Eq Eq (remove owner e hint cascade) (remove owner e other cascade) := by
  have hcall : (StoreCall.remove e hint cascade).unhinted =
      (StoreCall.remove e other cascade).unhinted := rfl
  apply (lockstep_writing hcall rfl fun _ _ _ => rfl).bind
  rintro found _ rfl
  apply (lockstep_deleteOrphans owner cascade _).bind
  exact fun _ _ _ => .pure rfl

/-- Removing at a position. -/
theorem lockstep_removeAt (owner : ObjectId) (position : Nat) (hint other : Option Nat) :
    Lockstep SameButHints Eq Eq (removeAt (E := E) owner position hint)
      (removeAt owner position other) := by
  have hcall : (StoreCall.removeAt position hint : StoreCall E).unhinted =
      (StoreCall.removeAt position other).unhinted := rfl
  apply (lockstep_writing hcall rfl fun _ _ _ => rfl).bind
  rintro removed _ rfl
  apply (lockstep_deleteOrphans owner true _).bind
  exact fun _ _ _ => .pure rfl

/-- Removing several elements, one by one. -/
theorem lockstep_removeAll (owner : ObjectId) (es : List E) (hint other : Option Nat) :
    Lockstep SameButHints Eq Eq (removeAll owner es hint) (removeAll owner es other) := by
  induction es with
  | nil => exact .pure rfl
  | cons e es ih =>
    apply (lockstep_remove owner e true hint other).bind
    rintro removed _ rfl
    apply ih.bind
    rintro more _ rfl
    exact .pure rfl

end Calls

/-! ### Bulk additions -/

section Bulk

variable {E : Type} {st other after : Store E} {owner : ObjectId} {n : Nat} {e : E} {es : List E}

/-- A hint overruns in a bulk addition if there are more elements than it can be counted on for, and
the store takes all those that it can be counted on for. -/
def Overruns (st : Store E) (n : Nat) (es : List E) : Prop :=
  Word.sizeLimit - n < es.length ∧ ∀ i < Word.sizeLimit - n, st.writes.rejects i = false

/-- A hint that has left its word overruns right away. -/
theorem overruns_of_le (h : Word.sizeLimit ≤ n) : st.Overruns n (e :: es) := by
  unfold Overruns
  rw [Nat.sub_eq_zero_of_le h]
  exact ⟨Nat.succ_pos _, fun i hi => absurd hi (Nat.not_lt_zero i)⟩

/-- Any other hint overruns if it does so, one further on, in the addition of the other elements
that follows the first write. -/
theorem overruns_cons (hn : n < Word.sizeLimit) (hafter : after.writes = st.writes.next) :
    st.Overruns n (e :: es) ↔ st.writes.now = false ∧ after.Overruns (n + 1) es := by
  have hleft : Word.sizeLimit - n = Word.sizeLimit - (n + 1) + 1 := by omega
  unfold Overruns
  rw [hleft, hafter, List.length_cons, Nat.add_lt_add_iff_right, Nat.forall_lt_succ_left']
  exact and_left_comm

/-- Without elements, nothing overruns. -/
theorem not_overruns_nil : ¬ st.Overruns n [] := fun h => Nat.not_lt_zero _ h.1

/-- A bulk addition goes on after its first element. -/
theorem addFrom_cons_of_ok {hint passed : Option Nat} {offset : Nat} {added : Bool}
    (hpassed : advanceHint (E := E) hint offset = return passed)
    (hadded : add owner e passed st = .ok added after) :
    addFrom owner hint offset (e :: es) st =
      (addFrom owner hint (offset + 1) es >>= fun more => return added || more) after := by
  rw [addFrom, hpassed, pure_bind, bind_apply, hadded]

variable [DecidableEq E]

/-- An addition that succeeds makes one write. -/
theorem writes_of_add_ok {hint : Option Nat} {answer : Bool}
    (h : add owner e hint st = .ok answer after) :
    st.writes.now = false ∧ after.writes = st.writes.next := by
  rw [add_eq] at h
  split at h
  · cases h
  · next hnow =>
    cases h
    exact ⟨Bool.eq_false_iff.mpr hnow, rfl⟩

/-- As long as its hint does not overrun, a bulk addition goes like one that has no hint: both add
the same elements, and only a rejected write stops them. -/
theorem addFrom_agree (owner : ObjectId) {hint : Option Nat} {offset : Nat} (offset' : Nat)
    (hfits : ∀ n ∈ hint, ¬ st.Overruns (n + offset) es) (h : st.SameButHints other) :
    Agree SameButHints (Rejections owner) Eq (addFrom owner hint offset es st)
      (addFrom owner none offset' es other) := by
  induction es generalizing st other offset offset' with
  | nil => exact .ok rfl h
  | cons e es ih =>
    have hword (n : Nat) (hn : n ∈ hint) : n + offset < Word.sizeLimit := by
      by_contra hle
      exact hfits n hn (overruns_of_le (Nat.not_lt.mp hle))
    obtain ⟨passed, hpassed⟩ : ∃ passed, advanceHint (E := E) hint offset = return passed := by
      cases hint with
      | none => exact ⟨none, rfl⟩
      | some n => exact ⟨some (n + offset), advanceHint_of_lt (hword n rfl)⟩
    rw [addFrom, addFrom, hpassed, advanceHint_none, pure_bind, pure_bind]
    apply (lockstep_add owner e passed none st other h).bind
    rintro added _ after after' hadded - rfl hafter
    obtain ⟨hnow, hwrites⟩ := writes_of_add_ok hadded
    have hrest : ∀ n ∈ hint, ¬ after.Overruns (n + (offset + 1)) es := fun n hn hover =>
      hfits n hn ((overruns_cons (hword n hn) hwrites).mpr ⟨hnow, hover⟩)
    apply (ih (offset' + 1) hrest hafter).bind
    rintro more _ rest rest' - - rfl hstores
    exact .ok rfl hstores

/-- Once its hint overruns, a bulk addition fails, and leaves what the addition of those elements
leaves that its hint can be counted on for. -/
theorem addFrom_of_overruns (owner : ObjectId) {offset : Nat} (offset' : Nat)
    (hover : st.Overruns (n + offset) es) (h : st.SameButHints other) :
    ∃ after, addFrom owner (some n) offset es st = .error .hintOverflow after ∧
      after.mutations = st.mutations + (Word.sizeLimit - (n + offset)) ∧
      ∃ answer after', addFrom owner none offset' (es.take (Word.sizeLimit - (n + offset))) other =
        .ok answer after' ∧ after.SameButHints after' := by
  induction es generalizing st other offset offset' with
  | nil => exact absurd hover not_overruns_nil
  | cons e es ih =>
    by_cases hword : n + offset < Word.sizeLimit
    · have hleft : Word.sizeLimit - (n + offset) = Word.sizeLimit - (n + (offset + 1)) + 1 := by
        omega
      -- Both add the first element; the hint overruns in the addition of the others.
      have hnow : st.writes.now = false := hover.2 0 (by omega)
      have hadded := add_eq owner st e (some (n + offset))
      rw [hnow, if_neg Bool.false_ne_true] at hadded
      have hend := lockstep_add owner e (some (n + offset)) none st other h
      rw [hadded] at hend
      generalize hother : add owner e none other = result at hend
      cases hend with
      | ok answers hbegun =>
        have hrest : Overruns _ (n + (offset + 1)) es :=
          ((overruns_cons hword (writes_of_add_ok hadded).2).mp hover).2
        obtain ⟨after, hfails, hcount, answer, after', hdone, hsame⟩ :=
          ih (offset' + 1) hrest hbegun
        refine ⟨after, ?_, ?_, true || answer, after', ?_, hsame⟩
        · rw [addFrom_cons_of_ok (advanceHint_of_lt hword) hadded, bind_apply, hfails]
        · rw [hcount, hleft]
          change st.mutations + 1 + _ = _
          omega
        · rw [hleft, List.take_succ_cons, addFrom_cons_of_ok (advanceHint_none offset') hother,
            bind_apply, hdone]
          rw [answers]
          rfl
    · rw [addFrom, advanceHint_of_le (Nat.not_lt.mp hword),
        Nat.sub_eq_zero_of_le (Nat.not_lt.mp hword), List.take_zero]
      exact ⟨st, rfl, rfl, false, other, rfl, h⟩

/-- A bulk addition whose hint overruns stops after the elements that the hint can be counted on
for. -/
theorem addAll_of_overruns (owner : ObjectId) (hover : st.Overruns n es) :
    ∃ after, addAll owner es (some n) st = .error .hintOverflow after ∧
      after.mutations = st.mutations + (Word.sizeLimit - n) ∧
      ∃ answer after', addAll owner (es.take (Word.sizeLimit - n)) none st = .ok answer after' ∧
        after.SameButHints after' := by
  have hfirst : st.Overruns (n + 0) es := hover
  exact addFrom_of_overruns owner 0 hfirst (.refl st)

/-- A bulk addition whose hint does not overrun is stopped by nothing but a rejected write, and
where one without a hint is stopped. -/
theorem addAll_agree {hint : Option Nat} (owner : ObjectId)
    (hfits : ∀ n ∈ hint, ¬ st.Overruns n es) :
    Agree SameButHints (Rejections owner) Eq (addAll owner es hint st)
      (addAll owner es none st) := by
  have hfirst : ∀ n ∈ hint, ¬ st.Overruns (n + 0) es := hfits
  exact addFrom_agree owner 0 hfirst (.refl st)

/-- A bulk addition whose hint does not overrun ends like one that has no hint. -/
theorem endAlike_addAll_none {hint : Option Nat} (owner : ObjectId)
    (hfits : ∀ n ∈ hint, ¬ st.Overruns n es) :
    st.EndAlike (addAll owner es hint) (addAll owner es none) :=
  .of_rejections (addAll_agree owner hfits)

/-- A bulk addition whose hint overruns does not end like one whose hint does not. -/
theorem not_endAlike_addAll {hint : Option Nat} (owner : ObjectId)
    (hfits : ∀ m ∈ hint, ¬ st.Overruns m es) (hover : st.Overruns n es) :
    ¬ st.EndAlike (addAll owner es (some n)) (addAll owner es hint) := by
  intro h
  obtain ⟨after, hfails, -⟩ := addAll_of_overruns owner hover
  have hend := addAll_agree owner hfits
  unfold EndAlike at h
  rw [hfails] at h
  generalize addAll owner es hint st = result, addAll owner es none st = unhinted at h hend
  cases h with
  | error failures _ =>
    subst failures
    cases hend with
    | error rejected _ => cases rejected.1

/-- Where two hints overrun and the bulk additions end alike, the hints are the same. -/
theorem eq_of_endAlike_addAll {m : Nat} (owner : ObjectId) (hn : n < Word.sizeLimit)
    (hm : m < Word.sizeLimit) (hover : st.Overruns n es) (hover' : st.Overruns m es)
    (h : st.EndAlike (addAll owner es (some n)) (addAll owner es (some m))) : n = m := by
  obtain ⟨after, hfails, hcount, -⟩ := addAll_of_overruns owner hover
  obtain ⟨after', hfails', hcount', -⟩ := addAll_of_overruns owner hover'
  unfold EndAlike at h
  rw [hfails, hfails'] at h
  cases h with
  | error _ stores =>
    have hsame := stores.mutations
    rw [hcount, hcount'] at hsame
    omega

/-- A size hint, if it is given, fits in a word. -/
def IsHint (hint : Option Nat) : Prop := ∀ n ∈ hint, n < Word.sizeLimit

/-- A size that fits into a word can be given as a hint. -/
theorem isHint_some (hn : n < Word.sizeLimit) : IsHint (some n) := by
  rintro _ ⟨⟩
  exact hn

/-- Two bulk additions of the same elements end alike if they have the same hint, or if neither hint
overruns. -/
theorem endAlike_addAll_iff {hint other : Option Nat} (owner : ObjectId) (hhint : IsHint hint)
    (hother : IsHint other) :
    st.EndAlike (addAll owner es hint) (addAll owner es other) ↔
      hint = other ∨ (∀ n ∈ hint, ¬ st.Overruns n es) ∧ ∀ n ∈ other, ¬ st.Overruns n es := by
  constructor
  · intro h
    by_cases hfits : ∀ n ∈ hint, ¬ st.Overruns n es
    · by_cases hfits' : ∀ n ∈ other, ¬ st.Overruns n es
      · exact .inr ⟨hfits, hfits'⟩
      · push Not at hfits'
        obtain ⟨m, rfl, hover'⟩ := hfits'
        exact absurd h.symm (not_endAlike_addAll owner hfits hover')
    · push Not at hfits
      obtain ⟨n, rfl, hover⟩ := hfits
      by_cases hfits' : ∀ n ∈ other, ¬ st.Overruns n es
      · exact absurd h (not_endAlike_addAll owner hfits' hover)
      · push Not at hfits'
        obtain ⟨m, rfl, hover'⟩ := hfits'
        rw [eq_of_endAlike_addAll owner (hhint n rfl) (hother m rfl) hover hover' h]
        exact .inl rfl
  · rintro (rfl | ⟨hfits, hfits'⟩)
    · exact .refl st _
    · exact (endAlike_addAll_none owner hfits).trans (endAlike_addAll_none owner hfits').symm

omit [DecidableEq E] in
/-- Some hint overruns if there are several elements and the store takes the first one. -/
theorem exists_overruns_iff :
    (∃ n < Word.sizeLimit, st.Overruns n es) ↔ 1 < es.length ∧ st.writes.now = false := by
  constructor
  · rintro ⟨n, hn, hlong, hpasses⟩
    exact ⟨by omega, hpasses 0 (by omega)⟩
  · rintro ⟨hlong, hnow⟩
    refine ⟨Word.sizeLimit - 1, by decide, ?_, ?_⟩
    · change 1 < es.length
      exact hlong
    · intro i hi
      have hfirst : i = 0 := Nat.lt_one_iff.mp hi
      rw [hfirst]
      exact hnow

/-- Which hints decide nothing. Additions, removals, removals at a position and bulk removals end
alike whatever hints they are given. Two bulk additions with different hints end alike exactly if
neither hint overruns. One that overruns makes the addition fail once the elements are added that it
can be counted on for. So no hint decides anything in a bulk addition exactly if it adds at most one
element, or if its first write is rejected. -/
theorem hints_without_influence_iff (st : Store E) (owner : ObjectId) :
    (∀ (e : E) (hint other : Option Nat),
      st.EndAlike (add owner e hint) (add owner e other)) ∧
    (∀ (e : E) (cascade : Bool) (hint other : Option Nat),
      st.EndAlike (remove owner e hint cascade) (remove owner e other cascade)) ∧
    (∀ (position : Nat) (hint other : Option Nat),
      st.EndAlike (removeAt owner position hint) (removeAt owner position other)) ∧
    (∀ (es : List E) (hint other : Option Nat),
      st.EndAlike (removeAll owner es hint) (removeAll owner es other)) ∧
    ∀ es : List E,
      (∀ hint other, IsHint hint → IsHint other →
        (st.EndAlike (addAll owner es hint) (addAll owner es other) ↔
          hint = other ∨ (∀ n ∈ hint, ¬ st.Overruns n es) ∧ ∀ n ∈ other, ¬ st.Overruns n es)) ∧
      (∀ n, st.Overruns n es → ∃ after, addAll owner es (some n) st = .error .hintOverflow after ∧
        after.mutations = st.mutations + (Word.sizeLimit - n) ∧
        ∃ answer after', addAll owner (es.take (Word.sizeLimit - n)) none st = .ok answer after' ∧
          after.SameButHints after') ∧
      ((∀ hint other, IsHint hint → IsHint other →
        st.EndAlike (addAll owner es hint) (addAll owner es other)) ↔
          es.length ≤ 1 ∨ st.writes.now = true) := by
  refine ⟨fun e hint other => ?_, fun e cascade hint other => ?_, fun position hint other => ?_,
    fun es hint other => ?_, fun es => ⟨fun hint other => endAlike_addAll_iff owner,
      fun n => addAll_of_overruns owner, ?_⟩⟩
  · exact .of_rejections (lockstep_add owner e hint other st st (.refl st))
  · exact lockstep_remove owner e cascade hint other st st (.refl st)
  · exact lockstep_removeAt owner position hint other st st (.refl st)
  · exact lockstep_removeAll owner es hint other st st (.refl st)
  · rw [← not_iff_not, not_or, Nat.not_le, Bool.not_eq_true, ← exists_overruns_iff]
    constructor
    · intro hdiffers
      by_contra hfits
      push Not at hfits
      refine hdiffers fun hint other hhint hother => (endAlike_addAll_iff owner hhint hother).mpr ?_
      exact .inr ⟨fun n hn => hfits n (hhint n hn), fun n hn => hfits n (hother n hn)⟩
    · rintro ⟨n, hn, hover⟩ halike
      have hnone : ∀ m ∈ none, ¬ st.Overruns m es := nofun
      exact not_endAlike_addAll owner hnone hover (halike _ none (isHint_some hn) nofun)

/-- In a sorted store that rejects the second write, a hint two below its limit decides nothing
about the addition of three elements. In a store that takes all writes, it overruns. -/
theorem hints_without_influence_of_rejected_write :
    let owner : ObjectId := .ofNat 7
    let st : Store Int32 :=
      Store.seed { order := some fun a b => compare a.toInt b.toInt, dependent := true } owner [2]
    let failing : Store Int32 := { st with writes := .after 1 }
    let hint := some (Word.sizeLimit - 2)
    IsHint hint ∧ failing.EndAlike (addAll owner [3, 1, 2] hint) (addAll owner [3, 1, 2] none) ∧
      st.Overruns (Word.sizeLimit - 2) [3, 1, 2] ∧
      ¬ st.EndAlike (addAll owner [3, 1, 2] hint) (addAll owner [3, 1, 2] none) := by
  intro owner st failing hint
  have hhint : IsHint hint := isHint_some (by decide)
  have hover : st.Overruns (Word.sizeLimit - 2) [3, 1, 2] := ⟨by decide, fun i hi => rfl⟩
  have hfits : ∀ n ∈ some (Word.sizeLimit - 2), ¬ failing.Overruns n [3, 1, 2] := by
    rintro _ ⟨⟩ ⟨-, hpasses⟩
    cases hpasses 1 (by decide)
  refine ⟨hhint, ?_, hover, ?_⟩
  · exact (((hints_without_influence_iff failing owner).2.2.2.2 _).1 hint none hhint nofun).mpr
      (.inr ⟨hfits, nofun⟩)
  · intro halike
    rcases (((hints_without_influence_iff st owner).2.2.2.2 _).1 hint none hhint nofun).mp halike
      with hsame | ⟨hnever, -⟩
    · exact absurd hsame (Option.some_ne_none _)
    · exact hnever _ rfl hover

/-- Of two elements that are added with the largest hint, the second one is not added, and the
addition fails; without a hint, both are added. -/
theorem largest_hint_stops_addition :
    let owner : ObjectId := .ofNat 0
    let st : Store Int32 := {}
    let hinted := addAll owner [1, 2] (some 18446744073709551615)
    let unhinted := addAll owner [1, 2] none
    (∃ after, hinted st = .error .hintOverflow after ∧ after.contents owner = [1] ∧
        after.mutations = 1) ∧
      (∃ after, unhinted st = .ok true after ∧ after.contents owner = [1, 2] ∧
        after.mutations = 2) ∧
      ¬ st.EndAlike hinted unhinted := by
  refine ⟨⟨_, rfl, rfl, rfl⟩, ⟨_, rfl, rfl, rfl⟩, ?_⟩
  intro h
  cases h

end Bulk

end Store

end TrackedFields
