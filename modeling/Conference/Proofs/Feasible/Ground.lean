import Conference.Proofs.Parallel.Alike

/-!
# What the ground settles

Which resources may be used, how much of them is in use and which values are handed out can be read
off from the ground and the ledger. A session *stays* where it was as long as it makes nothing, and
all its questions are answered from the same ground then.
-/

namespace Conference

namespace Ground

variable (G : Ground) (l : Ledger)

def resource? (id : ResourceId) : Option Resource := (G.roll.1.find? (·.1.id == id)).map (·.1)

/-- The place of a resource in the order of registration. -/
def index (id : ResourceId) : Nat := ((G.roll.1.find? (·.1.id == id)).map (·.2)).getD G.roll.2

/-- The resources that satisfy `p`, in order of registration. -/
def select (p : Resource → Bool) : List ResourceId := ((G.roll.1.map (·.1)).filter p).map (·.id)

/-- The resource, if it may be used for a slot. -/
def allowed? (id : ResourceId) (slot : Slot) : Option Resource :=
  (G.resource? id).filter fun r => r.allocatable && r.isWithinMaximumFuture slot G.interval.start

/-- The allocations of a resource in one dimension, the committed ones first. -/
def usage (id : ResourceId) (dimension : Dimension) : Timeline Allocation :=
  Registry.usageOf (G.shown id) id dimension l

/-- The largest amount of capacity of a resource in use at once during a slot. -/
def load (id : ResourceId) (slot : Slot) (dimension : Dimension) : Nat :=
  (G.usage l id dimension).peak slot.start slot.stop (·.usage.units)

/-- The values of a provider that are handed out during a slot. -/
def values (id : ResourceId) (slot : Slot) : List String :=
  ((G.usage l id .values).overlapping slot).filterMap (·.usage.value?)

/-- The resources that come into question: the given one, if it may be used and is usable, or else
all usable ones. -/
def eligible (given : Option ResourceId) (slot : Slot) (usable : Resource → Bool) :
    List ResourceId :=
  match given with
  | some id => if (G.allowed? id slot).any usable then [id] else []
  | none => G.select usable

/-- What a survey finds of a resource that may be used and has capacity left. -/
def candidate? (slot : Slot) (dimension : Dimension) (id : ResourceId) : Option Candidate :=
  (G.allowed? id slot).bind fun r =>
    let maximum := (r.capacity? dimension).getD 0
    let used := G.load l id slot dimension
    if maximum ≤ used then none else some ⟨id, G.index id, maximum, maximum - used⟩

variable {G l}

section Candidates

variable {slot : Slot} {dimension : Dimension} {id : ResourceId} {c : Candidate}

/-- A resource is a candidate if it is allowed and has capacity left. -/
theorem candidate?_eq_some :
    G.candidate? l slot dimension id = some c ↔ ∃ r, G.allowed? id slot = some r
    ∧ G.load l id slot dimension < (r.capacity? dimension).getD 0
    ∧ c = ⟨id, G.index id, (r.capacity? dimension).getD 0,
      (r.capacity? dimension).getD 0 - G.load l id slot dimension⟩ := by
  unfold candidate?
  rw [Option.bind_eq_some_iff]
  refine exists_congr fun r => and_congr_right fun _ => ?_
  simp only
  split
  · rename_i full
    simp [Nat.not_lt.2 full]
  · rename_i free
    simp [Nat.lt_of_not_le free, eq_comm]

theorem resource_of_candidate? (found : G.candidate? l slot dimension id = some c) :
    c.resource = id := by
  obtain ⟨r, -, -, rfl⟩ := candidate?_eq_some.1 found
  rfl

/-- What is left is the difference of the capacity and the load. -/
theorem available_of_candidate? (found : G.candidate? l slot dimension id = some c) :
    c.available = c.maximum - G.load l id slot dimension := by
  obtain ⟨r, -, -, rfl⟩ := candidate?_eq_some.1 found
  rfl

end Candidates

/-- An allowed resource is registered. -/
theorem resource?_of_allowed? {slot : Slot} {id : ResourceId} {r : Resource}
    (allowed : G.allowed? id slot = some r) : G.resource? id = some r :=
  (Option.filter_eq_some_iff.1 allowed).1

end Ground

namespace Session

variable {G : Ground} {base s t : Session} {read : List ResourceId}

namespace Stands

/-- A session on the ground finds the resources of the ground. -/
theorem resource? (h : s.Stands G read) (id : ResourceId) : s.resource? id = G.resource? id := by
  rw [Ground.resource?, ← h.roll, Session.resource?, Registry.get?, Registry.find?, Registry.roll,
    List.find?_map, Option.map_map]
  rfl

/-- It gives them the same indexes. -/
theorem index (h : s.Stands G read) (id : ResourceId) :
    (s.registry.index? id).getD s.registry.nextIndex = G.index id := by
  rw [Ground.index, ← h.roll, Registry.index?, Registry.find?, Registry.roll,
    List.find?_map, Option.map_map]
  rfl

/-- It selects the same ones. -/
theorem select (h : s.Stands G read) (p : Resource → Bool) : s.registry.select p = G.select p := by
  rw [Ground.select, ← h.roll, Registry.roll, List.map_map]
  rfl

/-- The check lets pass what may be used. -/
theorem checked (h : s.Stands G read) (id : ResourceId) (slot : Slot) :
    (s.checkResource id slot).1.toOption = G.allowed? id slot := by
  have reference : s.ledger.workingInterval.start = G.interval.start := by rw [h.interval]
  unfold Session.checkResource Ground.allowed?
  rw [h.resource?]
  cases G.resource? id with
  | none => rfl
  | some r =>
    rw [Option.filter_some]
    simp only [reference]
    cases allocatable : r.allocatable with
    | false => simp [Except.toOption]
    | true =>
      simp only [Bool.not_true, Bool.false_eq_true, if_false, Bool.true_and]
      cases near : r.isWithinMaximumFuture slot G.interval.start <;> simp [Except.toOption]

/-- A resource that passes the check is allowed. -/
theorem allowed_of_ok (h : s.Stands G read) {id : ResourceId} {slot : Slot} {r : Resource}
    (passed : (s.checkResource id slot).1 = .ok r) : G.allowed? id slot = some r := by
  rw [← h.checked, passed]
  rfl

/-- One that does not pass is not. -/
theorem allowed_of_error (h : s.Stands G read) {id : ResourceId} {slot : Slot} {reason : Report}
    (refused : (s.checkResource id slot).1 = .error reason) : G.allowed? id slot = none := by
  rw [← h.checked, refused]
  rfl

end Stands

/-! ## Sessions that stay where they were -/

/-- The session stands on the ground, and nothing has been made since `base`. -/
structure Stays (base : Session) (G : Ground) (read : List ResourceId) (t : Session) : Prop
    extends t.Stands G read where
  quiet : base.Quiet t

namespace Stays

theorem refl (h : base.Stands G read) : base.Stays G read base := ⟨h, .refl base⟩

theorem of_subset (h : base.Stays G read t) {read' : List ResourceId} (subset : read' ⊆ read) :
    base.Stays G read' t :=
  ⟨h.toStands.of_subset subset, h.quiet⟩

/-- Reports are all that such a step writes. -/
theorem report {f : Session → Session} (reporting : Reporting f) (h : base.Stays G read t) :
    base.Stays G read (f t) where
  toStands :=
    h.toStands.congr (reporting.registry t) (reporting.inventory t) (by rw [reporting.ledger t])
  quiet :=
    h.quiet.trans (.of_registry (reporting.ledger t) (reporting.inventory t)
      (reporting.reservations t) (reporting.registry t))

/-- A failure that is reported changes nothing of the ground. -/
theorem fail (h : base.Stays G read t) (report : Report) : base.Stays G read (t.fail report).2 :=
  h.report (reporting_addError report)

/-- Passing a check has the snapshot of the resource read. -/
theorem check_ok (h : base.Stays G read t) {id : ResourceId} {slot : Slot} {r : Resource}
    (passed : (t.checkResource id slot).1 = .ok r) :
    base.Stays G (id :: read) (t.checkResource id slot).2 :=
  ⟨h.toStands.checkResource passed, h.quiet.trans (t.quiet_checkResource id slot)⟩

/-- Not passing has none read. -/
theorem check_error (h : base.Stays G read t) {id : ResourceId} {slot : Slot} {reason : Report}
    (refused : (t.checkResource id slot).1 = .error reason) :
    base.Stays G read (t.checkResource id slot).2 := by
  rw [checkResource_of_error refused]
  exact h

/-- The usage that is read is the load on the ground. -/
theorem used (h : base.Stays G read t) {id : ResourceId} (mem : id ∈ read) (slot : Slot)
    (dimension : Dimension) :
    t.used id slot dimension = .ok (G.load base.ledger id slot dimension) := by
  rw [h.toStands.used mem, h.quiet.ledger]
  rfl

/-- So are the values in use. -/
theorem allocatedValues (h : base.Stays G read t) {id : ResourceId} (mem : id ∈ read)
    (slot : Slot) :
    t.allocatedValues id slot = .ok (G.values base.ledger id slot) := by
  rw [h.toStands.allocatedValues mem, h.quiet.ledger]
  rfl

/-- A rollback to where the session has stayed changes nothing. -/
theorem rollback (h : base.Stays G read t) : base.Stays G read (t.rollback base.savepoint) := by
  have ledger : (t.rollback base.savepoint).ledger = base.ledger := by
    show t.ledger.rollback base.ledger.savepoint = base.ledger
    rw [h.quiet.ledger, Ledger.rollback, Ledger.savepoint, Ledger.size, List.take_length]
  have reservations : (t.rollback base.savepoint).reservations = base.reservations := by
    show (t.reservations.truncate base.reservations.mark).2 = base.reservations
    rw [h.quiet.reservations, ReservationForest.truncate, ReservationForest.mark, Nat.sub_self]
    rfl
  have same : t.Quiet (t.rollback base.savepoint) :=
    .of_registry (ledger.trans h.quiet.ledger.symm) rfl
      (reservations.trans h.quiet.reservations.symm) rfl
  exact ⟨h.toStands.congr rfl rfl rfl, h.quiet.trans same⟩

end Stays

end Session

end Conference
