import Conference.Proofs.Sample
import Conference.Proofs.Scheduler.History

/-!
# No allocation breaks integrity

An allocation asks only for what has been read, books only what is left, performs each job once and
attaches only trees that are whole and loose. So there is but one fault that it can meet: the
participants of a compartment may be too many to be counted in 32 bits. This does not depend on what
has happened to the scheduler before, on the snapshots that it holds or on what the inventory has
committed, so no interleaving of calls leads to another one.
-/

namespace Conference

/-- The participants of a compartment are too many to be counted in 32 bits. -/
def Specification.Overflows : Specification → Prop
  | compartment participants => Compartment.maxCount < Compartment.endpointCount participants
  | resource _ | room _ | recording _ | dialAlias _ => False

namespace Scheduler

variable {slot : Slot}

/-- The work for a specification goes the same way beside itself, up to the one fault that it may
meet. -/
theorem steady_work {G : Ground} {k : Likeness slot} (exact_keys : k.ahead = 0)
    (exact_reports : k.Reports) (spec : Specification) :
    ((Work.ofSpecification spec).job slot).Steady (fun fault => fault = .countOverflow
      ∧ spec.Overflows) G k := by
  cases spec with
  | resource id => exact Exclusive.job_steady id
  | room spec => exact spec.job_steady
  | recording spec => exact spec.job_steady
  | dialAlias spec => exact spec.job_steady none
  | compartment participants =>
    exact Compartment.job_steady exact_keys exact_reports participants fun above => ⟨rfl, above⟩

/-- An allocation comes to an end, or the participants of a compartment are too many. -/
theorem allocate_ends (s : Scheduler) (spec : Specification) (slot : Slot) (l : Ledger) :
    (∃ done, s.allocate spec slot l = .ok done)
      ∨ s.allocate spec slot l = .error .countOverflow ∧ spec.Overflows := by
  have stands := stands_session s l
  have itself : (s.session l).Alike (s.session l).ground (.claims slot 0 True) [] (s.session l) :=
    session_alike rfl stands stands rfl
  rcases allocate_alike (steady_work rfl trivial spec) itself with
    ⟨done, -, run, -⟩ | ⟨fault, ⟨rfl, above⟩, run, -⟩
  · exact Or.inl ⟨done, run⟩
  · exact Or.inr ⟨run, above⟩

theorem allocate_fault {s : Scheduler} {spec : Specification} {slot : Slot} {l : Ledger}
    {fault : Fault} (met : s.allocate spec slot l = .error fault) :
    fault = .countOverflow ∧ spec.Overflows := by
  rcases s.allocate_ends spec slot l with ⟨done, run⟩ | ⟨run, above⟩
  · rw [met] at run
    cases run
  · rw [met] at run
    cases run
    exact ⟨rfl, above⟩

/-- A check meets the faults of the allocation that it tries. -/
theorem check_fault {s : Scheduler} {spec : Specification} {slot : Slot} {l : Ledger}
    {fault : Fault} (met : s.check spec slot l = .error fault) :
    fault = .countOverflow ∧ spec.Overflows := by
  rw [check_eq] at met
  cases run : s.allocate spec slot l with
  | ok done =>
    rw [run] at met
    cases met
  | error other =>
    rw [run] at met
    cases met
    exact allocate_fault run

/-- What a call asks to have allocated, if anything. -/
def Call.specification? : Call → Option Specification
  | openPass .. => none
  | allocate _ spec _ | check _ spec _ => some spec

namespace Desk

/-- The calls of a history, each with the answer that it got. -/
def transcript (d : Desk) : List Deed → List (Call × Answer)
  | [] => []
  | .call call :: deeds => (call, (d.respond call).1) :: transcript (d.perform (.call call)) deeds
  | deed :: deeds => transcript (d.perform deed) deeds

/-- The answer reports no fault, unless the call asks for a compartment with too many
participants. -/
def Intact (entry : Call × Answer) : Prop :=
  ∀ fault, entry.2 = .fault fault →
    fault = .countOverflow ∧ ∃ spec, entry.1.specification? = some spec ∧ spec.Overflows

/-- One call, whatever the desk has come to. -/
theorem intact_respond (d : Desk) (call : Call) : Intact (call, (d.respond call).1) := by
  intro fault answered
  cases call with
  | openPass pass interval => cases answered
  | allocate context spec slot =>
    unfold respond at answered
    simp only at answered
    split at answered
    · -- without the context there is an answer, and no fault
      cases answered
    · split at answered
      · rename_i met
        cases answered
        obtain ⟨overflow, above⟩ := allocate_fault met
        exact ⟨overflow, spec, rfl, above⟩
      · cases answered
  | check context spec slot =>
    unfold respond at answered
    simp only at answered
    split at answered
    · cases answered
    · split at answered
      · rename_i met
        cases answered
        obtain ⟨overflow, above⟩ := check_fault met
        exact ⟨overflow, spec, rfl, above⟩
      · cases answered

/-- By induction on the history, since nothing that has happened before a call matters for it. -/
theorem intact_transcript (deeds : List Deed) :
    ∀ d : Desk, ∀ entry ∈ d.transcript deeds, Intact entry := by
  induction deeds with
  | nil => exact fun _ _ never => nomatch never
  | cons deed deeds ih =>
    intro d entry mem
    cases deed with
    | call call =>
      rcases List.mem_cons.1 mem with rfl | later
      · exact intact_respond d call
      · exact ih _ entry later
    -- the other deeds are no entries of the transcript
    | runPass context requests => exact ih _ entry mem
    | commit tree => exact ih _ entry mem
    | addAllocation allocation => exact ih _ entry mem
    | addResource resource => exact ih _ entry mem
    | removeResource id => exact ih _ entry mem
    | reload => exact ih _ entry mem

/-- However calls, commits and registrations follow one another on any inventory, the only fault
that is ever reported is that of a compartment with too many participants. -/
theorem only_overflow_is_met (inv : Inventory) (deeds : List Deed) (call : Call) (fault : Fault)
    (met : (call, .fault fault) ∈ transcript ⟨ofInventory inv, []⟩ deeds) :
    fault = .countOverflow ∧ ∃ spec, call.specification? = some spec ∧ spec.Overflows :=
  intact_transcript deeds _ _ met fault rfl

/-- Participants from outside, one more than can be counted. -/
def crowd : List Participant :=
  [.external (.ofList [.h323]) Compartment.maxCount, .external (.ofList [.h323]) 1]

/-- The crowd is too large to ask for a room, also behind a history that has used up the studio. -/
theorem crowd_is_not_counted :
    let ask : Call := .allocate 0 (.compartment crowd) ⟨1, 5, by decide⟩
    let deeds : List Deed :=
      [.addAllocation ⟨⟨"c1"⟩, Sample.studio.id, ⟨0, 9, by decide⟩, .exclusive⟩, .reload,
        .call (.openPass "pass" ⟨0, 100, by decide⟩), .call ask]
    (ask, .fault .countOverflow) ∈ transcript ⟨ofInventory Sample.exchange, []⟩ deeds
      ∧ ∃ spec, ask.specification? = some spec ∧ spec.Overflows := by
  intro ask deeds
  have met : (ask, .fault .countOverflow) ∈ transcript ⟨ofInventory Sample.exchange, []⟩ deeds :=
    List.mem_cons_of_mem _ (List.mem_cons.2 (Or.inl rfl))
  exact ⟨met, (only_overflow_is_met Sample.exchange deeds ask .countOverflow met).2⟩

end Desk

end Scheduler

end Conference
