import TrackedFields.Proofs.Store.View

/-!
# What operations make of one container

The effect of operations, seen from the container of their owner alone: one after the other, each
on the arranged result of those before it. Operations that only take elements out of a sorted
container never rearrange it.
-/

namespace TrackedFields

open Store (Rules View)

namespace OperationKind

variable {E : Type} [DecidableEq E]

/-- What an operation makes of a container that is kept by the rules; none if the container has
no such position. -/
def carryOut (rules : Rules E) (es : List E) (kind : OperationKind E) : Option (List E) :=
  (kind.change es).map fun result => rules.arrange result.1

/-- What operations make of a container, one after the other. -/
def carryOutAll (rules : Rules E) (es : List E) (kinds : List (OperationKind E)) :
    Option (List E) :=
  kinds.foldlM (carryOut rules) es

/-- Without operations, a container stays as it is. -/
@[simp] theorem carryOutAll_nil (rules : Rules E) (es : List E) :
    carryOutAll rules es [] = some es := rfl

/-- Operations are carried out from the first one on. -/
theorem carryOutAll_cons (rules : Rules E) (es : List E) (kind : OperationKind E)
    (kinds : List (OperationKind E)) :
    carryOutAll rules es (kind :: kinds) =
      (carryOut rules es kind).bind (carryOutAll rules · kinds) :=
  List.foldlM_cons

/-- Operations are carried out one after the other. -/
theorem carryOutAll_append (rules : Rules E) (es : List E) (kinds more : List (OperationKind E)) :
    carryOutAll rules es (kinds ++ more) =
      (carryOutAll rules es kinds).bind (carryOutAll rules · more) :=
  List.foldlM_append

/-- An operation that only takes elements out of a container which fits needs no arranging. -/
theorem carryOutAll_kept {rules : Rules E} {es next gone : List E} (h : rules.Fits es)
    {kind : OperationKind E} (hchange : kind.change es = some (next, gone))
    (hpart : next.Sublist es) (kinds : List (OperationKind E)) :
    carryOutAll rules es (kind :: kinds) = carryOutAll rules next kinds := by
  rw [carryOutAll_cons, carryOut, hchange, Option.map_some, h.arrange_sublist hpart,
    Option.bind_some]

/-- Taking out elements that satisfy a condition, each at least as often as it is there, leaves the
others in order. -/
theorem foldl_erase_covered {doomed : E → Bool} {gone es : List E}
    (hgone : ∀ e ∈ gone, doomed e = true)
    (hcount : ∀ e, doomed e = true → es.count e ≤ gone.count e) :
    gone.foldl List.erase es = es.filter fun e => !doomed e := by
  induction gone generalizing es with
  | nil =>
    rw [List.foldl_nil]
    refine (List.filter_eq_self.mpr fun e he => ?_).symm
    have hpos := List.count_pos_iff.mpr he
    cases hdoomed : doomed e with
    | false => rfl
    | true =>
      have hle := hcount e hdoomed
      rw [List.count_nil] at hle
      omega
  | cons a gone ih =>
    have ha : doomed a = true := hgone a List.mem_cons_self
    have hrest : (es.erase a).filter (fun e => !doomed e) = es.filter fun e => !doomed e := by
      rw [← List.erase_filter]
      exact List.erase_of_not_mem (by simp [ha])
    rw [List.foldl_cons, ih (fun e he => hgone e (List.mem_cons_of_mem a he)) ?_, hrest]
    intro e he
    have hle := hcount e he
    rw [List.count_cons] at hle
    rw [List.count_erase]
    omega

/-- Taking out the elements that satisfy a condition one by one, each at its first occurrence,
leaves the others in order. -/
theorem foldl_erase_filter (doomed : E → Bool) (es : List E) :
    (es.filter doomed).foldl List.erase es = es.filter fun e => !doomed e := by
  apply foldl_erase_covered
  · exact fun e he => (List.mem_filter.mp he).2
  · intro e he
    exact Nat.le_of_eq (List.count_filter he).symm

/-- Taking out elements one by one leaves a part of the container. -/
theorem foldl_erase_sublist (gone es : List E) : (gone.foldl List.erase es).Sublist es := by
  induction gone generalizing es with
  | nil => exact .refl es
  | cons e gone ih => exact (ih (es.erase e)).trans List.erase_sublist

/-- What is not taken out stays. -/
theorem mem_foldl_erase {gone es : List E} {e : E} (hes : e ∈ es) (hgone : e ∉ gone) :
    e ∈ gone.foldl List.erase es := by
  induction gone generalizing es with
  | nil => exact hes
  | cons a gone ih =>
    rw [List.mem_cons, not_or] at hgone
    obtain ⟨ha, hrest⟩ := hgone
    exact ih ((List.mem_erase_of_ne ha).mpr hes) hrest

/-- A container without duplicates holds nothing any more that is taken out. -/
theorem mem_foldl_erase_iff {gone es : List E} (h : es.Nodup) (e : E) :
    e ∈ gone.foldl List.erase es ↔ e ∈ es ∧ e ∉ gone := by
  induction gone generalizing es with
  | nil => simp
  | cons a gone ih =>
    rw [List.foldl_cons, ih (h.erase a), h.mem_erase_iff, List.mem_cons, not_or]
    exact ⟨fun ⟨⟨hne, hes⟩, hgone⟩ => ⟨hes, hne, hgone⟩,
      fun ⟨hes, hne, hgone⟩ => ⟨⟨hne, hes⟩, hgone⟩⟩

/-- Elements that leave by value leave one by one, each at its first occurrence. -/
theorem carryOutAll_removed {rules : Rules E} {es : List E} (h : rules.Fits es) (gone : List E)
    (cascade : Bool) :
    carryOutAll rules es (gone.map (collectionRemove · cascade)) =
      some (gone.foldl List.erase es) := by
  induction gone generalizing es with
  | nil => rfl
  | cons e gone ih =>
    have hpart : (es.erase e).Sublist es := List.erase_sublist
    rw [List.map_cons, carryOutAll_kept h rfl hpart, ih (h.sublist hpart), List.foldl_cons]

/-- Elements that join a container one by one all join it, wherever the rules put them. -/
theorem exists_carryOutAll_joined (rules : Rules E) (es new : List E) :
    ∃ after, carryOutAll rules es (new.map collectionAdd) = some after ∧
      after.Perm (es ++ new) := by
  induction new generalizing es with
  | nil => exact ⟨es, rfl, by rw [List.append_nil]⟩
  | cons e new ih =>
    obtain ⟨after, hafter, hperm⟩ := ih (rules.arrange (es ++ [e]))
    refine ⟨after, hafter, hperm.trans ?_⟩
    have hplaced := (rules.arrange_perm (es ++ [e])).append_right new
    rwa [List.append_assoc] at hplaced

/-- What operations make of a container that fits, fits, if the order of the rules is a total
preorder. -/
theorem fits_carryOutAll {rules : Rules E}
    (hlaws : ∀ cmp, rules.order = some cmp → Std.TransCmp cmp) {es next : List E}
    (hfits : rules.Fits es) {kinds : List (OperationKind E)}
    (h : carryOutAll rules es kinds = some next) : rules.Fits next := by
  induction kinds generalizing es with
  | nil =>
    rw [← Option.some.inj h]
    exact hfits
  | cons kind kinds ih =>
    rw [carryOutAll_cons] at h
    obtain ⟨mid, hmid, hrest⟩ := Option.bind_eq_some_iff.mp h
    obtain ⟨result, -, rfl⟩ := Option.map_eq_some_iff.mp hmid
    refine ih ?_ hrest
    intro cmp hcmp
    have := hlaws cmp hcmp
    rw [Rules.arrange, hcmp]
    exact cmp.sorted_sort result.1

/-- Elements that join a sorted container one by one find their places as by insertion. -/
theorem carryOutAll_inserted {rules : Rules E} {cmp : Comparator E} [Std.TransCmp cmp]
    (h : rules.order = some cmp) {es : List E} (hsorted : cmp.Sorted es) (new : List E) :
    carryOutAll rules es (new.map collectionAdd) = some (cmp.insertAll es new) := by
  induction new generalizing es with
  | nil => rfl
  | cons e new ih =>
    have hplace : carryOut rules es (collectionAdd e) = some (cmp.insert es e) := by
      change some (rules.arrange (es ++ [e])) = _
      rw [Rules.arrange, h]
      change some (cmp.sort (es ++ [e])) = _
      rw [hsorted.insert_eq_sort]
    rw [List.map_cons, carryOutAll_cons, hplace, Option.bind_some, ih (hsorted.insert e)]
    rfl

/-- The effects of operations of one owner, seen from the container of that owner. -/
theorem effects_of_carryOutAll {rules : Rules E} {owner : ObjectId}
    {operations : List (Operation E)} (howner : ∀ operation ∈ operations, operation.owner = owner)
    {v : View E} {es : List E}
    (h : carryOutAll rules (v.contents owner) (operations.map Operation.kind) = some es) :
    ∃ after, operations.foldlM
        (fun v operation => operation.kind.effect rules operation.owner v) v = some after ∧
      after.contents owner = es := by
  induction operations generalizing v with
  | nil => exact ⟨v, rfl, Option.some.inj h⟩
  | cons operation rest ih =>
    rw [List.map_cons, carryOutAll_cons] at h
    obtain ⟨mid, hmid, h⟩ := Option.bind_eq_some_iff.mp h
    obtain ⟨⟨next, gone⟩, hchange, harrange⟩ := Option.map_eq_some_iff.mp hmid
    have hfirst : operation.owner = owner := howner operation List.mem_cons_self
    obtain ⟨w, hw, hcontents⟩ : ∃ w, operation.kind.effect rules operation.owner v = some w ∧
        w.contents owner = mid := by
      rw [effect, hfirst, hchange]
      refine ⟨_, rfl, ?_⟩
      change (if owner = owner then rules.arrange next else v.contents owner) = mid
      rw [if_pos rfl]
      exact harrange
    rw [← hcontents] at h
    obtain ⟨after, hafter, hes⟩ :=
      ih (fun operation h => howner operation (List.mem_cons_of_mem _ h)) h
    refine ⟨after, ?_, hes⟩
    rw [List.foldlM_cons, hw]
    exact hafter

end OperationKind

end TrackedFields
