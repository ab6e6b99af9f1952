import Conference.Proofs.Feasible.Kinds
import Conference.Proofs.Scheduler.FreeSearch
import Conference.Proofs.Scheduler.Standing

/-!
# When a request is granted

A request for a resource, a room without aliases, a recording or an alias is granted just if its
slot lies within the working interval and the ground and the ledger leave room for it.
-/

namespace Conference

/-- Neither a compartment, nor a room that is to have aliases. -/
def Specification.IsPlain : Specification → Prop
  | .room spec => spec.aliases = []
  | .compartment _ => False
  | .resource _ | .recording _ | .dialAlias _ => True

/-- The ground and the ledger leave room for what is asked for. -/
def Ground.Feasible (G : Ground) (l : Ledger) (slot : Slot) : Specification → Prop
  | .resource id => (G.allowed? id slot).isSome ∧ G.load l id slot .exclusive = 0
  | .room spec => ∃ id ∈ G.eligible spec.resource slot spec.isUsable,
    ∃ c, G.candidate? l slot .roomLicenses id = some c ∧ spec.participants ≤ c.available
  | .recording spec => spec.executable.slot.contains slot
    ∧ ∃ id ∈ G.eligible spec.resource slot spec.isUsable,
      if spec.enabled then ∃ c, G.candidate? l slot .recordingLicenses id = some c
        ∧ spec.licenses ≤ c.available
      else (G.allowed? id slot).isSome
  | .dialAlias spec => ∃ id ∈ G.eligible spec.resource slot (spec.isUsable none),
    (G.candidate? l slot .values id).isSome ∧ spec.Serves G l slot id
  | .compartment _ => False

namespace Scheduler

variable {G : Ground} {s : Scheduler} {spec : Specification} {slot : Slot}
  {l : Ledger} {base : Session}

theorem work_decides (plain : spec.IsPlain) (fresh : base.reservations = .empty) :
    (spec.work slot).Decides base G (G.Feasible base.ledger slot spec) := by
  cases spec with
  | resource id =>
    have decided : (Exclusive.allocate id none slot).Decides base G _ :=
      Exclusive.allocate_decides id none
    -- a single resource need not be a terminal unless a label is asked for
    have same : (∃ r, G.allowed? id slot = some r
        ∧ ((none : Option String).isSome → r.terminal?.isSome))
        ↔ (G.allowed? id slot).isSome := by
      cases G.allowed? id slot <;> simp
    rw [same] at decided
    exact decided
  | room spec => exact spec.allocate_decides plain
  | recording spec => exact spec.allocate_decides
  | dialAlias spec => exact spec.allocate_decides fresh none
  | compartment participants => exact plain.elim

theorem job_steady (plain : spec.IsPlain) {k : Likeness slot} {allowed : Fault → Prop} :
    ((Work.ofSpecification spec).job slot).Steady allowed G k := by
  cases spec with
  | resource id => exact Exclusive.job_steady id
  | room spec => exact spec.job_steady
  | recording spec => exact spec.job_steady
  | dialAlias spec => exact spec.job_steady none
  | compartment participants => exact plain.elim

/-- Such an allocation meets no fault. -/
theorem exists_allocate (plain : spec.IsPlain) (s : Scheduler) (slot : Slot) (l : Ledger) :
    ∃ done, s.allocate spec slot l = .ok done := by
  have stands := stands_session s l
  have itself : (s.session l).Alike (s.session l).ground (.claims slot 0 True) [] (s.session l) :=
    session_alike rfl stands stands rfl
  have steady : ((Work.ofSpecification spec).job slot).Steady (fun _ => False) (s.session l).ground
      (.claims slot 0 True) := job_steady plain
  rcases allocate_alike steady itself with ⟨done, -, run, -⟩ | ⟨-, never, -⟩
  · exact ⟨done, run⟩
  · exact never.elim

/-- A plain request is granted just if its slot lies within the working interval, and the ground and
the ledger leave room for it. -/
theorem grants_iff_feasible (plain : spec.IsPlain) :
    s.Grants spec slot l
      ↔ l.workingInterval.contains slot ∧ (s.session l).ground.Feasible l slot spec := by
  have entered : (s.session l).Stays (s.session l).ground [] (s.entered l spec slot) :=
    Session.Stays.report (Session.reporting_enter _) (.refl (stands_session s l))
  -- the work decides: it succeeds just if the request is feasible
  obtain ⟨r, t, run, ends⟩ := work_decides plain rfl (s.entered l spec slot) entered
  constructor
  · intro grants
    by_contra unfit
    refine not_grants_of_error (fun within => ?_) grants
    cases r with
    | ok key => exact absurd ⟨within, ends⟩ unfit
    | error e => exact ⟨e, t, run⟩
  · rintro ⟨within, feasible⟩
    cases r with
    | error e => exact absurd feasible ends.1
    | ok key =>
      obtain ⟨done, ran⟩ := exists_allocate plain s slot l
      have concluded := ran
      rw [allocate_of_ok within run] at concluded
      unfold conclude at concluded
      simp only at concluded
      split at concluded
      · cases concluded
      · cases concluded
        exact ⟨_, _, ran, rfl⟩

end Scheduler

end Conference
