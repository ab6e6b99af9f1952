import Conference.Proofs.Pass.Run
import Conference.Proofs.Sample

/-!
# No value is handed out twice

A claim for a value is admitted if no allocation that overlaps its slot holds the value. Allocations
that cover one instant of the working interval overlap there, also after clipping, so no two of them
hold the same value.
-/

namespace Conference

/-- Both allocations hold the same value of the same provider at an instant. -/
def Allocation.SharesValueAt (instant : Int) (a b : Allocation) : Prop :=
  ∃ value, a.usage = .value value ∧ b.usage = .value value ∧ a.resource = b.resource
    ∧ a.slot.Covers instant ∧ b.slot.Covers instant

theorem Allocation.SharesValueAt.symm {instant : Int} {a b : Allocation}
    (h : a.SharesValueAt instant b) :
    b.SharesValueAt instant a := by
  obtain ⟨value, ha, hb, same, ca, cb⟩ := h
  exact ⟨value, hb, ha, same.symm, cb, ca⟩

/-- No tentative allocation shares a value with another one or with a committed one. -/
structure Allocation.ValuesApart (instant : Int) (committed applied : List Allocation) : Prop where
  pairwise : applied.Pairwise fun a b => ¬ a.SharesValueAt instant b
  disjoint : ∀ a ∈ applied, ∀ b ∈ committed, ¬ a.SharesValueAt instant b

/-- A session admits a value that neither a tentative nor a committed allocation holds. -/
theorem Session.Admits.not_sharesValueAt {s : Session} {a : Allocation}
    (admits : s.Admits a.resource a.slot a.usage) {instant : Int}
    (within : s.ledger.workingInterval.Covers instant) {b : Allocation}
    (present : b ∈ s.ledger.applied ∨ b ∈ s.inventory.allocations) :
    ¬ a.SharesValueAt instant b := by
  rintro ⟨value, ha, hb, same, asked, covers⟩
  refine admits.free value ha ?_
  rw [same]
  rcases present with tentative | committed
  · exact Registry.mem_valuesDuring_of_applied tentative hb covers asked
  · exact Registry.mem_valuesDuring_of_committed committed hb covers asked within

theorem Session.Admits.valuesApart {s : Session} {a : Allocation}
    (admits : s.Admits a.resource a.slot a.usage) {instant : Int}
    (within : s.ledger.workingInterval.Covers instant)
    (before : Allocation.ValuesApart instant s.inventory.allocations s.ledger.applied) :
    Allocation.ValuesApart instant s.inventory.allocations (s.ledger.applied ++ [a]) where
  pairwise := by
    rw [List.pairwise_append]
    refine ⟨before.pairwise, List.pairwise_singleton _ _, ?_⟩
    intro b hb c hc shared
    rw [List.mem_singleton.1 hc] at shared
    exact admits.not_sharesValueAt within (Or.inl hb) shared.symm
  disjoint := by
    intro b hb c hc
    -- an older claim keeps apart from committed ones as before
    rcases List.mem_append.1 hb with old | this
    · exact before.disjoint b old c hc
    · rw [List.mem_singleton.1 this]
      exact admits.not_sharesValueAt within (Or.inr hc)

/-- At no instant of the working interval do two tentative allocations, or a tentative and a
committed one, hold the same value of the same provider. -/
theorem Pass.values_apart {scheduler : Scheduler} {pass : String} {interval : Slot}
    {requests : List Request} {outcomes : List Outcome} {last : State}
    (run : Pass.run (opened scheduler pass interval) requests = .ok (outcomes, last))
    {instant : Int} (start_le : interval.start ≤ instant) (lt_stop : instant < interval.stop) :
    Allocation.ValuesApart instant scheduler.inventory.allocations last.ledger.applied := by
  have within : interval.Covers instant := by
    rw [Slot.covers_iff]
    exact ⟨start_le, Or.inl lt_stop⟩
  refine applied_of_run (P := Allocation.ValuesApart instant
    scheduler.inventory.allocations) ?_ ?_ run
  · intro u a inventory _ here admits before
    rw [← inventory] at before ⊢
    rw [← here] at within
    exact admits.valuesApart within before
  · exact ⟨List.Pairwise.nil, fun a ha => nomatch ha⟩

/-- While a committed allocation holds the first number, a meeting of the sample gets another
one. -/
theorem Pass.sample_values_apart :
    let start := opened (.ofInventory Sample.inventory) "pass" ⟨0, 100, by decide⟩
    ∃ outcomes last, Pass.run start Sample.requests = .ok (outcomes, last)
      ∧ Allocation.ValuesApart 4 Sample.inventory.allocations last.ledger.applied := by
  intro start
  have finishes : (Pass.run start Sample.requests).isOk = true := by decide +kernel
  cases run : Pass.run start Sample.requests with
  | error fault =>
    rw [run] at finishes
    cases finishes
  | ok p =>
    refine ⟨p.1, p.2, rfl, ?_⟩
    exact Pass.values_apart run (by decide) (by decide)

end Conference
