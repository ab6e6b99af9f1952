import Conference.Proofs.Scheduler.Standing

/-!
# Dry runs are invisible

A check whether an allocation would succeed works on the registry that all contexts share: it reads
snapshots, moves to the working interval of its context and drops the snapshots of others. As long
as the inventory stays as it is, each snapshot is what reading it at any later time would give. So
other calls cannot tell which snapshots there are, and with that whether there has been a check.
-/

namespace Conference

/-- Two sessions that differ in nothing but the snapshots which they hold. -/
def Likeness.identity (slot : Slot) : Likeness slot where
  Ledgers := Eq
  ahead := 0
  Reports := True
  peak := by
    rintro l _ rfl
    exact fun _ _ _ => rfl
  values := by
    rintro l _ rfl
    exact fun _ _ => rfl
  apply := by
    rintro l _ rfl
    exact fun _ _ => rfl
  rollback := by
    rintro l _ l' _ rfl rfl
    rfl

namespace Scheduler

/-- The registry shows the inventory as it is, with the given resources in their places. -/
structure Tidy (inv : Inventory) (roll : List (Resource × Nat) × Nat) (s : Scheduler) : Prop where
  inventory : s.inventory = inv
  roll : s.registry.roll = roll
  reflects : s.registry.Reflects s.inventory

variable {inv : Inventory} {roll : List (Resource × Nat) × Nat} {s t : Scheduler}

theorem Tidy.openPass (h : s.Tidy inv roll) (pass : String) (interval : Slot) :
    (s.openPass pass interval).2.Tidy inv roll where
  inventory := h.inventory
  roll := (s.retains_openPass pass interval).roll.trans h.roll
  reflects := s.reflects_openPass pass interval

/-- Whatever snapshots a tidy registry holds, it shows what the inventory says. -/
theorem Tidy.stands (h : s.Tidy inv roll) (l : Ledger) :
    (s.session l).Stands
      ⟨inv, roll, l.workingInterval, fun id =>
        Registry.readSnapshot inv id l.workingInterval⟩ [] := by
  obtain ⟨rfl, rfl, reflects⟩ := h
  exact stands_of_reflects reflects l

theorem Tidy.left {spec : Specification} {slot : Slot} {l : Ledger} {done : Allocated}
    (h : s.Tidy inv roll) (run : s.allocate spec slot l = .ok done) :
    done.scheduler.Tidy inv roll := by
  have retains := retains_allocate run
  refine ⟨retains.inventory.trans h.inventory, retains.roll.trans h.roll, ?_⟩
  obtain ⟨after, reached, -, left⟩ := exists_reaches run
  obtain ⟨made, builds⟩ := reached.exists_builds
  have reflects := (builds.current (current_session h.reflects l)).reflects
  rw [builds.agrees.inventory] at reflects
  rw [left]
  exact reflects

/-- Two tidy schedulers give the same results on one ledger, and stay tidy. -/
theorem Tidy.allocate (hs : s.Tidy inv roll) (ht : t.Tidy inv roll) (spec : Specification)
    (slot : Slot) (l : Ledger) :
    (∃ done done', s.allocate spec slot l = .ok done ∧ t.allocate spec slot l = .ok done'
        ∧ done'.result = done.result ∧ done'.ledger = done.ledger
        ∧ done.scheduler.Tidy inv roll ∧ done'.scheduler.Tidy inv roll)
      ∨ ∃ fault, s.allocate spec slot l = .error fault ∧ t.allocate spec slot l = .error fault := by
  rcases allocate_eq (k := .identity slot) rfl trivial (hs.stands l) (ht.stands l) rfl spec with
    ⟨done, done', ran, ran', result, ledger⟩ | ⟨fault, ran, ran'⟩
  · exact Or.inl ⟨done, done', ran, ran', result, ledger.symm, hs.left ran, ht.left ran'⟩
  · exact Or.inr ⟨fault, ran, ran'⟩

/-! ## Runs of calls -/

/-- A scheduler with the contexts that have been created on it, in this order. -/
structure Desk where
  scheduler : Scheduler
  contexts : List Ledger

inductive Call where
  | openPass (pass : String) (interval : Slot)
  | allocate (context : Nat) (spec : Specification) (slot : Slot)
  | check (context : Nat) (spec : Specification) (slot : Slot)

inductive Answer where
  | opened
  | allocated (result : Except Refusal ReservationForest)
  | checked (refusal : Option Refusal)
  | fault (fault : Fault)
  | noContext

namespace Desk

/-- Answers a call. One that runs into a fault changes nothing. -/
def respond (d : Desk) : Call → Answer × Desk
  | .openPass pass interval =>
    let opened := d.scheduler.openPass pass interval
    (.opened, ⟨opened.2, d.contexts ++ [opened.1]⟩)
  | .allocate context spec slot =>
    match d.contexts[context]? with
    | none => (.noContext, d)
    | some ledger =>
      match d.scheduler.allocate spec slot ledger with
      | .error fault => (.fault fault, d)
      | .ok done => (.allocated done.result, ⟨done.scheduler, d.contexts.set context done.ledger⟩)
  | .check context spec slot =>
    match d.contexts[context]? with
    | none => (.noContext, d)
    | some ledger =>
      match d.scheduler.check spec slot ledger with
      | .error fault => (.fault fault, d)
      | .ok (refusal, scheduler) => (.checked refusal, { d with scheduler := scheduler })

/-- A step of a script: a call that belongs to it, or a further check. -/
inductive Step where
  | own (call : Call)
  | extra (context : Nat) (spec : Specification) (slot : Slot)

def Step.call : Step → Call
  | own call => call
  | extra context spec slot => .check context spec slot

def Step.isOwn : Step → Bool
  | own _ => true
  | extra .. => false

/-- Takes the steps of a script one after the other. The answers to the calls that belong to it come
with the result, each with the contents of all contexts at that time. -/
def run (d : Desk) : List Step → List (Answer × List Ledger) × Desk
  | [] => ([], d)
  | step :: steps =>
    let (answer, next) := d.respond step.call
    let (answers, last) := run next steps
    (if step.isOwn then (answer, next.contexts) :: answers else answers, last)

/-- The desk once its first context has been created. -/
def opened (s : Scheduler) (pass : String) (interval : Slot) : Desk :=
  ⟨(s.openPass pass interval).2, [(s.openPass pass interval).1]⟩

/-- Both desks have the same contexts, and schedulers that can be told apart by their snapshots
only. -/
structure Similar (inv : Inventory) (roll : List (Resource × Nat) × Nat) (d d' : Desk) : Prop where
  left : d.scheduler.Tidy inv roll
  right : d'.scheduler.Tidy inv roll
  contexts : d'.contexts = d.contexts

variable {d d' : Desk}

theorem check_alike (h : Similar inv roll d d') (spec : Specification) (slot : Slot) (l : Ledger) :
    (∃ refusal s' t', d.scheduler.check spec slot l = .ok (refusal, s')
        ∧ d'.scheduler.check spec slot l = .ok (refusal, t') ∧ s'.Tidy inv roll ∧ t'.Tidy inv roll)
      ∨ ∃ fault, d.scheduler.check spec slot l = .error fault
        ∧ d'.scheduler.check spec slot l = .error fault := by
  rw [check_eq, check_eq]
  rcases h.left.allocate h.right spec slot l with
    ⟨done, done', left, right, result, -, tidy, tidy'⟩ | ⟨fault, left, right⟩
  · rw [left, right]
    refine Or.inl ⟨done.refusal?, done.scheduler, done'.scheduler, rfl, ?_, tidy, tidy'⟩
    rw [← Allocated.refusal?_congr result]
    rfl
  · rw [left, right]
    exact Or.inr ⟨fault, rfl, rfl⟩

/-- Similar desks give the same answer, and are similar after it. -/
theorem Similar.respond (h : Similar inv roll d d') (call : Call) :
    (d'.respond call).1 = (d.respond call).1
      ∧ Similar inv roll (d.respond call).2 (d'.respond call).2 := by
  cases call with
  | openPass pass interval =>
    refine ⟨rfl, h.left.openPass pass interval, h.right.openPass pass interval, ?_⟩
    show d'.contexts ++ _ = d.contexts ++ _
    rw [h.contexts]
    rfl
  | allocate context spec slot =>
    unfold Desk.respond
    simp only [h.contexts]
    cases d.contexts[context]? with
    | none => exact ⟨rfl, h⟩
    | some l =>
      simp only
      rcases h.left.allocate h.right spec slot l with
        ⟨done, done', left, right, result, ledger, tidy, tidy'⟩ | ⟨fault, left, right⟩
      · rw [left, right]
        simp only [result, ledger]
        exact ⟨trivial, tidy, tidy', rfl⟩
      · rw [left, right]
        exact ⟨rfl, h⟩
  -- a check answers alike and leaves the contexts alone
  | check context spec slot =>
    unfold Desk.respond
    simp only [h.contexts]
    cases d.contexts[context]? with
    | none => exact ⟨rfl, h⟩
    | some l =>
      simp only
      rcases check_alike h spec slot l with
        ⟨refusal, s', t', left, right, tidy, tidy'⟩ | ⟨fault, left, right⟩
      · rw [left, right]
        exact ⟨rfl, tidy, tidy', rfl⟩
      · rw [left, right]
        exact ⟨rfl, h⟩

/-- A check on one of two similar desks alone leaves them similar. -/
theorem Similar.extra (h : Similar inv roll d d') (context : Nat) (spec : Specification)
    (slot : Slot) :
    Similar inv roll (d.respond (.check context spec slot)).2 d' := by
  have itself : Similar inv roll d d := ⟨h.left, h.left, rfl⟩
  have after := (itself.respond (.check context spec slot)).2
  refine ⟨after.left, h.right, h.contexts.trans ?_⟩
  unfold Desk.respond
  simp only
  split
  · rfl
  · split <;> rfl

/-- By induction on the script: what the two desks share after a step is what they need before the
next. -/
theorem Similar.run (steps : List Step) :
    ∀ {d d' : Desk}, Similar inv roll d d' →
      (d.run steps).1 = (d'.run (steps.filter (·.isOwn))).1
        ∧ Similar inv roll (d.run steps).2 (d'.run (steps.filter (·.isOwn))).2 := by
  induction steps with
  | nil => exact fun h => ⟨rfl, h⟩
  | cons step steps ih =>
    intro d d' h
    cases step with
    | own call =>
      obtain ⟨same, next⟩ := h.respond call
      obtain ⟨answers, last⟩ := ih next
      refine ⟨?_, last⟩
      show ((d.respond call).1, (d.respond call).2.contexts) :: ((d.respond call).2.run steps).1
        = ((d'.respond call).1, (d'.respond call).2.contexts)
          :: ((d'.respond call).2.run (steps.filter (·.isOwn))).1
      rw [same, next.contexts, answers]
    -- a check changes nothing that a later call looks at
    | extra context spec slot => exact ih (h.extra context spec slot)

/-- Further checks in a run that starts with the creation of a context change neither the answer to
any other call nor the contents of the contexts at any time. -/
theorem dry_runs_invisible (s : Scheduler) (pass : String) (interval : Slot) (steps : List Step) :
    ((opened s pass interval).run steps).1
        = ((opened s pass interval).run (steps.filter (·.isOwn))).1
      ∧ ((opened s pass interval).run steps).2.contexts
        = ((opened s pass interval).run (steps.filter (·.isOwn))).2.contexts := by
  have tidy : (opened s pass interval).scheduler.Tidy s.inventory
      (opened s pass interval).scheduler.registry.roll :=
    ⟨rfl, rfl, s.reflects_openPass pass interval⟩
  obtain ⟨answers, last⟩ := Similar.run steps ⟨tidy, tidy, rfl⟩
  exact ⟨answers, last.contexts.symm⟩

end Desk

end Scheduler

end Conference
