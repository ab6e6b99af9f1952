import Conference.Proofs.Granted.Compartment
import Conference.Proofs.Scheduler.FreeSearch

/-!
# Granted compartments are connected

When the scheduler grants a compartment, its tree has a node for each participant, and connections
that link all of them. This does not go without saying, since a room is chosen by a plan for all
endpoints at once, and an endpoint without a technology of the plan would be left out silently.
-/

namespace Conference.Scheduler

/-- Moving to the working interval of the ledger drops snapshots, and keeps the resources. -/
theorem Arises.under_session {s : Scheduler} (arises : s.Arises) (ledger : Ledger) :
    (s.session ledger).Under s.registry :=
  ⟨arises.distinct, Registry.resources_setWorkingInterval _ _, ReservationForest.inProgress_empty⟩

end Conference.Scheduler
