import Conference.Proofs.Report.Growth

/-!
# Reports to blame

What it takes for a forest to explain a failure: the way up from its cause leads over errors only,
up to where the failure has come out. And what it takes to explain why a resource was not used: an
error about it, with an error below that is classified.
-/

namespace Conference.ReportForest

variable {f g : ReportForest} {top : Option Nat} {id own : Nat} {e : Entry} {resource : ResourceId}

/-- On the way up from a report there are only errors, of which the last one comes under `top`. -/
inductive Blamed (f : ReportForest) (top : Option Nat) : Nat → Prop where
  | last {id : Nat} {e : Entry} : f.get? id = some e → e.isError → e.parent = top → Blamed f top id
  | up {id parent : Nat} {e : Entry} : f.get? id = some e → e.isError → e.parent = some parent →
    Blamed f top parent → Blamed f top id

namespace Blamed

theorem of_extends (blamed : f.Blamed top id) (extend : f.Extends g) : g.Blamed top id := by
  induction blamed with
  | last found error parent =>
    obtain ⟨e, found', -, parent', marked⟩ := extend _ _ found
    exact last found' (marked error) (parent'.trans parent)
  | up found error parent _ ih =>
    obtain ⟨e, found', -, parent', marked⟩ := extend _ _ found
    exact up found' (marked error) (parent'.trans parent) ih

theorem exists_error (blamed : f.Blamed top id) : ∃ e, f.get? id = some e ∧ e.isError := by
  cases blamed with
  | last found error _ => exact ⟨_, found, error⟩
  | up found error _ _ => exact ⟨_, found, error⟩

/-- The way up goes on where it has ended, if there is an error too. -/
theorem trans (blamed : f.Blamed (some own) id) (outer : f.Blamed top own) : f.Blamed top id := by
  induction blamed with
  | last found error parent => exact up found error parent outer
  | up found error parent _ ih => exact up found error parent ih

/-- The report under which the last error comes is above all of them. -/
theorem above (blamed : f.Blamed (some own) id) : f.Above own id := by
  induction blamed with
  | last found _ parent => exact .single (parent?_eq_some.2 ⟨_, found, parent⟩)
  | up found _ parent _ ih => exact .head (parent?_eq_some.2 ⟨_, found, parent⟩) ih

/-- Where nothing is above the last error, all that is above a report is an error. -/
theorem of_above (blamed : f.Blamed none id) {i : Nat} (above : f.Above i id) :
    f.Blamed none i := by
  induction above with
  | refl => exact blamed
  | tail _ link ih =>
    obtain ⟨e, found, under⟩ := parent?_eq_some.1 link
    cases ih with
    -- a report with a parent is not the last one up
    | last found' _ parent =>
      rw [found] at found'
      cases found'
      rw [under] at parent
      cases parent
    | up found' _ parent rest =>
      rw [found] at found'
      cases found'
      rw [under] at parent
      cases parent
      exact rest

theorem exists_root (blamed : f.Blamed none id) :
    ∃ r e, f.Above r id ∧ f.get? r = some e ∧ e.parent = none := by
  induction blamed with
  | last found _ parent => exact ⟨_, _, .refl, found, parent⟩
  | up found _ parent _ ih =>
    obtain ⟨r, e, above, rest⟩ := ih
    exact ⟨r, e, .head (parent?_eq_some.2 ⟨_, found, parent⟩) above, rest⟩

end Blamed

/-- There is an error about the resource, and in its subtree an error that stands for a kind of
failure. -/
def Accounts (f : ReportForest) (resource : ResourceId) : Prop :=
  ∃ about reason, f.Above about reason
    ∧ (∃ e, f.get? about = some e ∧ e.isError ∧ e.report.resource? = some resource)
    ∧ ∃ e, f.get? reason = some e ∧ e.isError ∧ e.report.failureKind?.isSome

namespace Accounts

theorem of_extends (accounts : f.Accounts resource) (extend : f.Extends g) :
    g.Accounts resource := by
  obtain ⟨about, reason, above, ⟨e, found, error, named⟩, d, there, wrong, kind⟩ := accounts
  obtain ⟨e', found', report, -, marked⟩ := extend _ _ found
  obtain ⟨d', there', report', -, marked'⟩ := extend _ _ there
  refine ⟨about, reason, above.of_extends extend, ⟨e', found', marked error, ?_⟩, d',
    there', marked' wrong, ?_⟩
  · rw [report]
    exact named
  · rw [report']
    exact kind

/-- An error about a resource that says itself what kind of failure it is. -/
theorem of_self (found : f.get? id = some e) (error : e.isError)
    (named : e.report.resource? = some resource) (kind : e.report.failureKind?.isSome) :
    f.Accounts resource :=
  ⟨id, id, .refl, ⟨e, found, error, named⟩, e, found, error, kind⟩

end Accounts

/-- The kind of a failure is read off a report that stands for it itself. -/
theorem failureKind?_eq {kind : FailureKind} (found : f.get? id = some e)
    (classified : e.report.failureKind? = some kind) : f.failureKind? id = some kind := by
  have below := lt_size_of_get? found
  unfold failureKind?
  cases size : f.size with
  | zero => omega
  | succ n =>
    unfold failureWithin
    simp only [found, classified]

end Conference.ReportForest
