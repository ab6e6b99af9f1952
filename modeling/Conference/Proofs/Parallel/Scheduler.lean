import Conference.Proofs.Parallel.Compartment
import Conference.Proofs.Parallel.Recording
import Conference.Scheduler

/-!
# Schedulers that allocate alike

What alike sessions do is seen from the outside as the results of two allocations: equal trees but
for the keys, or refusals with the same reports. An allocation that finishes has made nodes for one
slot only, so the check of the finished tree finds nothing.
-/

namespace Conference

variable {slot : Slot} {G : Ground} {k : Likeness slot} {allowed : Fault → Prop}

variable (slot) in
/-- Nodes that are all for one slot lie within the slots of each other. -/
theorem ReservationForest.violation?_eq_none {f : ReservationForest}
    (slots : ∀ e ∈ f.entries, e.node.slot = slot) : f.violation? = none := by
  unfold violation?
  rw [List.findSome?_eq_none_iff]
  intro e he
  rw [Option.map_eq_none_iff, List.find?_eq_none]
  intro child _
  cases found : f.get? child with
  | none => simp
  | some node =>
    obtain ⟨e', there, rfl⟩ := Option.map_eq_some_iff.1 found
    have within : e.node.slot.contains e'.node.slot := by
      rw [slots e he, slots e' (List.mem_of_find?_eq_some there), Slot.contains_iff_bounds]
      omega
    simp [within]

theorem Work.job_steady (exact_keys : k.ahead = 0) (exact_reports : k.Reports)
    (overflow : allowed .countOverflow) (work : Work) : (work.job slot).Steady allowed G k := by
  cases work with
  | resource id => exact Exclusive.job_steady id
  | endpoint id label => exact Exclusive.endpointJob_steady id label
  | room spec => exact spec.job_steady
  | recording spec => exact spec.job_steady
  | dialAlias spec target => exact spec.job_steady target
  | compartment participants =>
    exact Compartment.job_steady exact_keys exact_reports participants fun _ => overflow

namespace Scheduler

/-- Equal trees but for a shift of the keys, or refusals that are the same where reports are. -/
def ResultsAlike (k : Likeness slot) :
    Except Refusal ReservationForest → Except Refusal ReservationForest → Prop
  | .ok tree, .ok tree' => tree' = tree.shift k.ahead
  | .error refusal, .error refusal' => k.Reports → refusal' = refusal
  | _, _ => False

theorem ResultsAlike.eq (exact_keys : k.ahead = 0) (exact_reports : k.Reports)
    {result result' : Except Refusal ReservationForest} (same : ResultsAlike k result result') :
    result' = result := by
  unfold ResultsAlike at same
  cases result with
  | ok tree =>
    cases result' with
    | error _ => exact same.elim
    | ok tree' =>
      rw [exact_keys] at same
      exact congrArg Except.ok (same.trans (ReservationForest.shift_zero tree))
  | error refusal =>
    cases result' with
    | ok _ => exact same.elim
    | error refusal' => exact congrArg Except.error (same exact_reports)

/-- Two allocations have come to the same, and have left registries behind that show the same. -/
structure AllocatedAlike (G : Ground) (k : Likeness slot) (done done' : Allocated) : Prop where
  result : ResultsAlike k done.result done'.result
  ledger : k.Ledgers done.ledger done'.ledger
  left : done.scheduler.registry.roll = G.roll
  right : done'.scheduler.registry.roll = G.roll

theorem conclude_alike (s s' : Scheduler) {r r' : Except Failure Nat} {u v : Session}
    (met : Attempt.Meet (Session.KeyAlike G k []) (Session.FailAlike G k []) r u r' v) :
    ∃ done done', s.conclude r u = .ok done ∧ s'.conclude r' v = .ok done'
      ∧ AllocatedAlike G k done done' := by
  cases r with
  | ok key =>
    cases r' with
    | error _ => exact met.elim
    | ok key' =>
      obtain ⟨rfl, alike⟩ := met
      -- the right tree is the left one with later keys, so both pass the check of the slots
      have tree : v.reservations.setRoot (key + k.ahead)
          = (u.reservations.setRoot key).shift k.ahead := by
        rw [alike.reservations, ReservationForest.setRoot_shift]
      have sound : (u.reservations.setRoot key).violation? = none :=
        ReservationForest.violation?_eq_none slot alike.slots
      have sound' : (v.reservations.setRoot (key + k.ahead)).violation? = none := by
        refine ReservationForest.violation?_eq_none slot fun e he => ?_
        rw [tree] at he
        obtain ⟨e', there, rfl⟩ := List.mem_map.1 he
        exact alike.slots e' there
      unfold conclude
      simp only [sound, sound']
      exact ⟨_, _, rfl, rfl, tree, alike.ledger, alike.left.roll, alike.right.roll⟩
  | error e =>
    cases r' with
    | ok _ => exact met.elim
    | error e' =>
      obtain ⟨same, alike⟩ := met
      refine ⟨_, _, rfl, rfl, ?_, alike.ledger, alike.left.roll, alike.right.roll⟩
      intro reports
      have account := alike.account reports
      rw [Session.account, Session.account, Prod.mk.injEq] at account
      rw [same reports, account.1]

/-- From alike sessions, allocations come to the same or meet the same fault. -/
theorem allocate_alike {s t : Scheduler} {spec : Specification} {l m : Ledger}
    (steady : ((Work.ofSpecification spec).job slot).Steady allowed G k)
    (h : (s.session l).Alike G k [] (t.session m)) :
    (∃ done done', s.allocate spec slot l = .ok done ∧ t.allocate spec slot m = .ok done'
        ∧ AllocatedAlike G k done done')
      ∨ ∃ fault, allowed fault ∧ s.allocate spec slot l = .error fault
        ∧ t.allocate spec slot m = .error fault := by
  unfold allocate
  rcases Job.perform_pairs steady h
    with ⟨⟨r, _⟩, u, ⟨r', _⟩, v, left, right, met⟩ | ⟨fault, may, left, right⟩
  · rw [left, right]
    exact Or.inl (conclude_alike s t met)
  · rw [left, right]
    exact Or.inr ⟨fault, may, rfl, rfl⟩

end Scheduler

end Conference
