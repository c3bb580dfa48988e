import TrackedFields.Proofs.Store.Losses
import TrackedFields.Tracker.Report

/-!
# Reports that tell exactly what is lost

A dependent element is to be deleted when a change takes its last occurrence out of a container. In
memory the container itself finds out and reports orphans; where changes are queued, the operations
of the report lose elements when they are replayed. A report is exact if both come to the same: the
elements that the container held before and holds no more. A container whose reports are exact
requests the right deletions in memory, and makes the right deletions due where it queues.
-/

namespace TrackedFields

open Store (Rules)

namespace Report

variable {E : Type} [DecidableEq E]

/-- A report tells exactly what a change loses, if losing is allowed: its orphans are what the
container lost, and so is what its operations delete on a container with the same elements. -/
structure Exact (allowed : Bool) (es next : List E) (report : Report E) : Prop where
  orphans : LostForGood allowed es next report.orphans
  operations : ∀ rules : Rules E, rules.dependent = true → rules.Fits es →
    LostForGood allowed es next (OperationKind.losses rules es report.operations)

variable {allowed : Bool} {es next : List E} {report : Report E}

/-- A report without orphans and with gentle operations is exact if nothing is lost. -/
theorem exact_of_gentle (hkept : allowed = true → ∀ e ∈ es, e ∈ next)
    (horphans : report.orphans = []) (hgentle : ∀ kind ∈ report.operations, kind.Gentle) :
    report.Exact allowed es next := by
  constructor
  case orphans =>
    rw [horphans]
    exact .nil hkept
  case operations =>
    intro rules _ _
    rw [OperationKind.losses_of_gentle hgentle]
    exact .nil hkept

/-- A report of a single element that leaves is exact. -/
theorem exact_of_departure {e : E} {kind : OperationKind E} (hmem : e ∈ es)
    (hothers : ∀ a ∈ es, a = e ∨ a ∈ next)
    (hchange : kind.change es = some (next, if allowed then [e] else []))
    (horphans : report.orphans = if allowed && !next.contains e then [e] else [])
    (hoperations : report.operations = [kind]) : report.Exact allowed es next := by
  have hlost (a : E) : a ∈ (if allowed then [e] else []) ∧ a ∉ next ↔
      allowed = true ∧ a ∈ es ∧ a ∉ next := by
    cases allowed with
    | false => simp
    | true =>
      rw [if_pos rfl, List.mem_singleton]
      constructor
      · rintro ⟨rfl, hout⟩
        exact ⟨rfl, hmem, hout⟩
      · rintro ⟨-, ha, hout⟩
        exact ⟨(hothers a ha).resolve_right hout, hout⟩
  constructor
  case orphans =>
    intro a
    rw [← hlost a, horphans]
    cases allowed with
    | false => simp
    | true =>
      by_cases hnext : e ∈ next
      · have hout : a ∈ [e] → a ∈ next := fun ha => List.mem_singleton.mp ha ▸ hnext
        simpa [hnext] using hout
      · have hout : a ∈ [e] → a ∉ next := fun ha => List.mem_singleton.mp ha ▸ hnext
        simpa [hnext] using hout
  case operations =>
    intro rules hdependent _ a
    rw [← hlost a, hoperations, OperationKind.mem_losses_single hdependent hchange]

/-- A report of elements that leave by value is exact if no occurrence of them is left. -/
theorem exact_removed {gone : List E} (hmem : ∀ e ∈ gone, e ∈ es)
    (hgone : ∀ e ∈ gone, e ∉ gone.foldl List.erase es) (cascade : Bool) :
    (Report.removed gone cascade).Exact cascade es (gone.foldl List.erase es) := by
  constructor
  case orphans =>
    intro e
    cases cascade with
    | false => simp [Report.removed]
    | true =>
      change e ∈ gone ↔ true = true ∧ e ∈ es ∧ e ∉ gone.foldl List.erase es
      constructor
      · exact fun he => ⟨rfl, hmem e he, hgone e he⟩
      · rintro ⟨-, hes, hout⟩
        exact Decidable.byContradiction fun he => hout (OperationKind.mem_foldl_erase hes he)
  case operations =>
    intro rules hdependent hfits
    exact OperationKind.lostForGood_removed hdependent hfits gone cascade

/-- A report is exact that what satisfies a condition leaves, each of its occurrences. -/
theorem exact_filtered (doomed : E → Bool) (es : List E) :
    (Report.removed (es.filter doomed) true).Exact true es (es.filter fun e => !doomed e) := by
  have hrest := OperationKind.foldl_erase_filter doomed es
  have hgone : ∀ e ∈ es.filter doomed, e ∉ (es.filter doomed).foldl List.erase es := by
    intro e he hkept
    rw [hrest] at hkept
    have hdoomed := (List.mem_filter.mp he).2
    have hspared := (List.mem_filter.mp hkept).2
    rw [hdoomed] at hspared
    cases hspared
  rw [← hrest]
  exact exact_removed (fun e he => (List.mem_filter.mp he).1) hgone true

/-- A report that everything leaves is exact, in whatever order it lists what leaves. -/
theorem exact_cleared {listed : List E} (hlisted : ∀ e, e ∈ listed ↔ e ∈ es) :
    (Report.cleared listed).Exact true es [] := by
  constructor
  case orphans =>
    intro e
    simp [Report.cleared, hlisted e]
  case operations =>
    intro rules hdependent _ e
    change e ∈ OperationKind.losses rules es [.collectionClear] ↔ _
    rw [OperationKind.mem_losses_single hdependent rfl]
    simp

/-- Exactness does not depend on the order of what is left. -/
theorem Exact.congr {next' : List E} (h : report.Exact allowed es next)
    (hnext : ∀ e, e ∈ next' ↔ e ∈ next) : report.Exact allowed es next' :=
  ⟨h.orphans.congr (fun _ => .rfl) hnext, fun rules hdependent hfits =>
    (h.operations rules hdependent hfits).congr (fun _ => .rfl) hnext⟩

end Report

end TrackedFields
