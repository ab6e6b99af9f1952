import Conference.CommandLine.Simulation
import Conference.Main
import Conference.Proofs.Pass.Capacity
import Conference.Proofs.Pass.Failures
import Conference.Proofs.Pass.Values
import Conference.Proofs.Scheduler.FreeSearch
import Conference.Proofs.Registry.Clipping
import Conference.Proofs.Scheduler.Compartment
import Conference.Proofs.Scheduler.DryRun
import Conference.Proofs.Scheduler.Failure
import Conference.Proofs.Scheduler.History
import Conference.Proofs.Scheduler.Integrity
import Conference.Proofs.Scheduler.Tree
import Conference.Proofs.Inventory.Commit
import Conference.Proofs.Pass.Commit
import Conference.Proofs.Feasible.Ground
import Conference.Proofs.Feasible.Survey
import Conference.Proofs.Feasible.Kinds
import Conference.Proofs.Scheduler.Feasible
import Conference.Proofs.Scheduler.Release
import Conference.Proofs.Causes.Kinds
import Conference.Proofs.Causes.Compartment
import Conference.Proofs.Feasible.Bridge
import Conference.Proofs.Connectivity
import Conference.Proofs.Granted.Labels
import Conference.Proofs.Scheduler.Connectivity
import Conference.Proofs.Report.Blame
import Conference.Proofs.Session.Tells
import Conference.Proofs.Told.Kinds
import Conference.Proofs.Told.Compartment
import Conference.Proofs.Scheduler.Explained
import Conference.Proofs.Told.Candidates
import Conference.Proofs.Scheduler.Accounted
import Conference.Proofs.Granted.Kinds
import Conference.Proofs.Scheduler.Fulfilled
import Conference.Proofs.Causes.Classified
import Conference.Proofs.Scheduler.Classified
import Conference.Proofs.Reservation.Runs
import Conference.Proofs.Scenario.Loading
import Conference.Proofs.Scenario.References
import Conference.Proofs.Told.Scopes
import Conference.Proofs.Registry.Operations
import Conference.Proofs.Identifier.Grammar
import Conference.Proofs.Value.Language
import Conference.Proofs.Ledger.Replay
import Conference.Proofs.Registry.History
import Conference.Proofs.Reservation.Swept
import Conference.Proofs.Reservation.Inverse
import Conference.Proofs.Reservation.Containment
import Conference.Proofs.Slot.Algebra
import Conference.Proofs.Timeline.Peak
import Conference.Proofs.Timeline.Area
import Conference.Proofs.Value.Enumeration
import Conference.Proofs.Value.FirstFree
import Conference.Proofs.TechnologyPlan.Choices
import Conference.Proofs.Ranking
import Conference.Proofs.Report.Drawing
import Conference.Proofs.Scheduler.Seats
