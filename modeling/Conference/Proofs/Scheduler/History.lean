import Conference.Proofs.Scheduler.Order

/-!
# Schedulers with a history

A scheduler that has been in use for long holds snapshots from earlier passes and has registered its
resources any number of times. The opening of a pass drops the snapshots, and each registration
starts over, so that nothing of the history is left but the contents of the inventory.
-/

namespace Conference

namespace Registry

/-- Where a resource is put can be told from the roll. -/
theorem roll_add (g : Registry) (resource : Resource) :
    (g.add resource).2.roll
      = if g.roll.1.any (·.1.id == resource.id) then g.roll
        else (g.roll.1 ++ [(resource, g.roll.2)], g.roll.2 + 1) := by
  have contains : g.contains resource.id = g.roll.1.any (·.1.id == resource.id) := by
    rw [Registry.contains, roll, List.any_map]
    rfl
  unfold add
  rw [contains]
  split
  · rfl
  · simp only [roll, List.map_append, List.map_cons, List.map_nil]

/-- Registration starts over, whatever has been registered before. -/
theorem roll_load (g h : Registry) (inv : Inventory) : (g.load inv).roll = (h.load inv).roll := by
  have filled (resources : List Resource) : ∀ {g h : Registry}, g.roll = h.roll →
      (resources.foldl (fun g resource => (g.add resource).2) g).roll
        = (resources.foldl (fun g resource => (g.add resource).2) h).roll := by
    induction resources with
    | nil => exact id
    | cons resource resources ih =>
      intro g h same
      refine ih ?_
      rw [roll_add, roll_add, same]
  exact filled inv.resources rfl

end Registry

/-- Committing a tree adds allocations and no resource. -/
theorem Inventory.resources_commit (inv : Inventory) (tree : ReservationForest) :
    (inv.commit tree).2.resources = inv.resources := by
  have kept (claims : List (ResourceId × Slot × Usage)) :
      ∀ inv : Inventory, (inv.commitClaims claims).2.resources = inv.resources := by
    induction claims with
    | nil => exact fun _ => rfl
    | cons claim claims ih => exact fun _ => ih _
  exact kept _ inv

namespace Scheduler

variable {s t : Scheduler} {spec : Specification} {slot : Slot} {l m : Ledger} {done : Allocated}

/-- All that the opening of a pass lets the session see of the scheduler. -/
theorem stands_openPass (s : Scheduler) (pass : String) (interval : Slot) :
    ((s.openPass pass interval).2.session (s.openPass pass interval).1).Stands
      ⟨s.inventory, s.registry.roll, interval, fun id =>
        Registry.readSnapshot s.inventory id interval⟩ [] := by
  have stands := stands_of_reflects (s.reflects_openPass pass interval) (s.openPass pass interval).1
  rw [(s.retains_openPass pass interval).roll] at stands
  exact stands

/-- A check keeps what an allocation keeps. -/
theorem retains_check {refusal : Option Refusal} (run : s.check spec slot l = .ok (refusal, t)) :
    s.Retains t := by
  rw [check_eq] at run
  cases ran : s.allocate spec slot l with
  | error fault =>
    rw [ran] at run
    cases run
  | ok done =>
    rw [ran] at run
    cases run
    exact retains_allocate ran

/-- By induction on the requests of a pass. -/
theorem retains_run (requests : List Request) :
    ∀ {state last : Pass.State} {outcomes : List Pass.Outcome},
      Pass.run state requests = .ok (outcomes, last) → state.scheduler.Retains last.scheduler := by
  induction requests with
  | nil =>
    intro state last outcomes run
    cases run
    exact .refl _
  | cons request requests ih =>
    intro state last outcomes run
    obtain ⟨result, next, others, first, rest, -⟩ := Pass.exists_of_run_cons run
    unfold Pass.step at first
    -- a step either faults, and then the run does not get here, or it is one allocation
    cases ran : state.scheduler.allocate request.specification request.slot state.ledger with
    | error fault =>
      rw [ran] at first
      cases first
    | ok done =>
      rw [ran] at first
      cases first
      exact (retains_allocate ran).trans (ih rest)

/-- The resources are registered as they would be if the scheduler were made anew. -/
def InStep (s : Scheduler) : Prop := s.registry.roll = (ofInventory s.inventory).registry.roll

/-- After a reload the registry is in step with the inventory. -/
theorem inStep_reload (s : Scheduler) : s.reload.InStep :=
  Registry.roll_load s.registry .empty s.inventory

/-- Being in step depends on the registered resources and on those of the inventory. -/
theorem InStep.congr (h : s.InStep) (roll : t.registry.roll = s.registry.roll)
    (resources : t.inventory.resources = s.inventory.resources) : t.InStep := by
  unfold InStep ofInventory Registry.load at h ⊢
  rw [roll, h, resources]

namespace Desk

/-! ## Histories -/

/-- What can happen to a desk, and to the inventory behind the back of its scheduler. -/
inductive Deed where
  | call (call : Call)
  | runPass (context : Nat) (requests : List Request)
  | commit (tree : ReservationForest)
  | addAllocation (allocation : Allocation)
  | addResource (resource : Resource)
  | removeResource (id : ResourceId)
  | reload

/-- The deeds that may change the resources of the inventory. -/
def Deed.redeclares : Deed → Bool
  | addResource _ | removeResource _ => true
  | _ => false

/-- Changes the inventory. What has been registered stays as it is. -/
def changeInventory (d : Desk) (f : Inventory → Inventory) : Desk :=
  { d with scheduler := { d.scheduler with inventory := f d.scheduler.inventory } }

/-- A pass that runs into a fault changes nothing. -/
def perform (d : Desk) : Deed → Desk
  | .call call => (d.respond call).2
  | .runPass context requests =>
    match d.contexts[context]? with
    | none => d
    | some ledger =>
      match Pass.run ⟨ledger, d.scheduler⟩ requests with
      | .error _ => d
      | .ok (_, last) => ⟨last.scheduler, d.contexts.set context last.ledger⟩
  | .commit tree => d.changeInventory fun inv => (inv.commit tree).2
  | .addAllocation allocation => d.changeInventory fun inv => inv.addAllocation allocation
  | .addResource resource => d.changeInventory fun inv => (inv.addResource resource).2
  | .removeResource id => d.changeInventory fun inv => (inv.removeResource id).2
  | .reload => { d with scheduler := d.scheduler.reload }

def after (d : Desk) (deeds : List Deed) : Desk := deeds.foldl perform d

/-- Each deed that changes the resources of the inventory is followed by their registration anew, at
any later time. -/
def Settled : Desk → List Deed → Prop
  | _, [] => True
  | d, deed :: deeds =>
    ((d.perform deed).scheduler.inventory.resources ≠ d.scheduler.inventory.resources →
      .reload ∈ deeds)
      ∧ Settled (d.perform deed) deeds

variable {d d' : Desk}

/-- No call changes the inventory or registers anything. -/
theorem retains_respond (d : Desk) (call : Call) :
    d.scheduler.Retains (d.respond call).2.scheduler := by
  cases call with
  | openPass pass interval => exact retains_openPass d.scheduler pass interval
  | allocate context spec slot =>
    unfold respond
    simp only
    -- without such a context nothing runs
    split
    · exact .refl _
    · split
      · exact .refl _
      · rename_i done ran
        exact retains_allocate ran
  | check context spec slot =>
    unfold respond
    simp only
    split
    · exact .refl _
    · split
      · exact .refl _
      · rename_i refusal scheduler ran
        exact retains_check ran

/-- Nor does a pass. -/
theorem retains_runPass (d : Desk) (context : Nat) (requests : List Request) :
    d.scheduler.Retains (d.perform (.runPass context requests)).scheduler := by
  unfold perform
  simp only
  split
  · exact .refl _
  · split
    · exact .refl _
    · rename_i outcomes last run
      exact retains_run requests run

/-- Only the deeds that add or remove resources change those of the inventory. -/
theorem resources_perform (d : Desk) {deed : Deed} (leaves : deed.redeclares = false) :
    (d.perform deed).scheduler.inventory.resources = d.scheduler.inventory.resources := by
  cases deed with
  | call call => exact congrArg _ (d.retains_respond call).inventory
  | runPass context requests => exact congrArg _ (d.retains_runPass context requests).inventory
  | commit tree => exact d.scheduler.inventory.resources_commit tree
  | addAllocation _ => rfl
  | addResource _ => cases leaves
  | removeResource _ => cases leaves
  | reload => rfl

/-- A deed that leaves the resources as they are needs no reload after it. -/
theorem Settled.keep {deed : Deed} {deeds : List Deed} (leaves : deed.redeclares = false)
    (settled : Settled (d.perform deed) deeds) : Settled d (deed :: deeds) :=
  ⟨fun changed => absurd (d.resources_perform leaves) changed, settled⟩

/-- One that changes them is settled by a reload later on. -/
theorem Settled.change {deed : Deed} {deeds : List Deed} (reloaded : .reload ∈ deeds)
    (settled : Settled (d.perform deed) deeds) : Settled d (deed :: deeds) :=
  ⟨fun _ => reloaded, settled⟩

/-- The resources stay registered as they should be if a deed leaves them alone. -/
theorem inStep_perform (h : d.scheduler.InStep) (deed : Deed)
    (kept : (d.perform deed).scheduler.inventory.resources = d.scheduler.inventory.resources) :
    (d.perform deed).scheduler.InStep := by
  cases deed with
  | call call => exact h.congr (d.retains_respond call).roll kept
  | runPass context requests => exact h.congr (d.retains_runPass context requests).roll kept
  | commit _ => exact h.congr rfl kept
  | addAllocation _ => exact h.congr rfl kept
  | addResource _ => exact h.congr rfl kept
  | removeResource _ => exact h.congr rfl kept
  | reload => exact inStep_reload d.scheduler

/-- By induction on the history: until the last registration the registered resources may be any,
from then on they stay in step. -/
theorem inStep_after (deeds : List Deed) :
    ∀ {d : Desk}, Settled d deeds → d.scheduler.InStep ∨ .reload ∈ deeds →
      (d.after deeds).scheduler.InStep := by
  induction deeds with
  | nil =>
    rintro d - (h | never)
    · exact h
    · cases never
  | cons deed deeds ih =>
    rintro d ⟨reloaded, settled⟩ h
    refine ih settled ?_
    by_cases again : .reload ∈ deeds
    · exact Or.inr again
    · -- this is no change of the resources, unless it registers them
      have kept : (d.perform deed).scheduler.inventory.resources
          = d.scheduler.inventory.resources :=
        Classical.byContradiction fun changed => again (reloaded changed)
      rcases h with h | mem
      · exact Or.inl (inStep_perform h deed kept)
      · rcases List.mem_cons.1 mem with rfl | later
        · exact Or.inl (inStep_reload d.scheduler)
        · exact absurd later again

/-! ## Inquiries on one context -/

variable {G : Ground} {context context' : Nat}

inductive Inquiry where
  | allocate (spec : Specification) (slot : Slot)
  | check (spec : Specification) (slot : Slot)

def Inquiry.on (context : Nat) : Inquiry → Call
  | allocate spec slot => .allocate context spec slot
  | check spec slot => .check context spec slot

/-- The answers to inquiries on a context, each with the claims that the context has in force by
then. -/
def record (d : Desk) (context : Nat) (inquiries : List Inquiry) :
    List (Answer × Option (List (ResourceId × Slot × Usage))) :=
  (d.run (inquiries.map fun inquiry => .own (inquiry.on context))).1.map fun entry =>
    (entry.1, entry.2[context]?.map fun l => l.applied.map Allocation.claim)

/-- The record of the first inquiry, and of the others after it. -/
theorem record_cons (d : Desk) (context : Nat) (inquiry : Inquiry) (inquiries : List Inquiry) :
    d.record context (inquiry :: inquiries)
      = ((d.respond (inquiry.on context)).1,
          (d.respond (inquiry.on context)).2.contexts[context]?.map fun l =>
            l.applied.map Allocation.claim)
        :: (d.respond (inquiry.on context)).2.record context inquiries := rfl

theorem respond_check_of_error {fault : Fault} (there : d.contexts[context]? = some l)
    (run : d.scheduler.allocate spec slot l = .error fault) :
    d.respond (.check context spec slot) = (.fault fault, d) := by
  unfold respond
  simp only [there, check_eq, run, Except.map]

theorem respond_check_of_ok (there : d.contexts[context]? = some l)
    (run : d.scheduler.allocate spec slot l = .ok done) :
    d.respond (.check context spec slot)
      = (.checked done.refusal?, { d with scheduler := done.scheduler }) := by
  unfold respond
  simp only [there, check_eq, run, Except.map]

/-- A context of one desk and one of the other find the same ground, and hold the same claims. -/
def Matched (G : Ground) (d : Desk) (context : Nat) (d' : Desk) (context' : Nat) : Prop :=
  ∃ l m, d.contexts[context]? = some l ∧ d'.contexts[context']? = some m
    ∧ Even G d.scheduler l d'.scheduler m

/-- Matched desks give the same answer, and are matched afterwards. -/
theorem Matched.respond (h : Matched G d context d' context') (inquiry : Inquiry) :
    (d'.respond (inquiry.on context')).1 = (d.respond (inquiry.on context)).1
      ∧ Matched G (d.respond (inquiry.on context)).2 context
        (d'.respond (inquiry.on context')).2 context' := by
  obtain ⟨l, m, there, there', even⟩ := h
  cases inquiry with
  | allocate spec slot =>
    simp only [Inquiry.on]
    rcases even.allocate spec slot with ⟨done, done', ran, ran', same, next, -⟩ | ⟨fault, ran, ran'⟩
    · rw [respond_allocate_of_ok there ran, respond_allocate_of_ok there' ran', same]
      refine ⟨rfl, done.ledger, done'.ledger, ?_, ?_, next⟩
      · exact List.getElem?_set_self (List.getElem?_eq_some_iff.1 there).1
      · exact List.getElem?_set_self (List.getElem?_eq_some_iff.1 there').1
    · rw [respond_allocate_of_error there ran, respond_allocate_of_error there' ran']
      exact ⟨rfl, l, m, there, there', even⟩
  | check spec slot =>
    simp only [Inquiry.on]
    rcases even.allocate spec slot with ⟨done, done', ran, ran', same, -, next⟩ | ⟨fault, ran, ran'⟩
    · -- the ledgers are those from before the check, only the schedulers have moved on
      rw [respond_check_of_ok there ran, respond_check_of_ok there' ran',
        Allocated.refusal?_congr same]
      exact ⟨rfl, l, m, there, there', next⟩
    · rw [respond_check_of_error there ran, respond_check_of_error there' ran']
      exact ⟨rfl, l, m, there, there', even⟩

/-- By induction on the inquiries, the contexts matched before each of them. -/
theorem Matched.record (inquiries : List Inquiry) :
    ∀ {d d' : Desk}, Matched G d context d' context' →
      d.record context inquiries = d'.record context' inquiries := by
  induction inquiries with
  | nil => exact fun _ => rfl
  | cons inquiry inquiries ih =>
    intro d d' h
    obtain ⟨answer, next⟩ := h.respond inquiry
    rw [record_cons, record_cons, answer, ih next]
    obtain ⟨l, m, there, there', even⟩ := next
    rw [there, there', Option.map_some, Option.map_some, even.claims]

/-- Opens a context and makes inquiries on it. -/
def inquire (d : Desk) (pass : String) (interval : Slot) (inquiries : List Inquiry) :
    List (Answer × Option (List (ResourceId × Slot × Usage))) :=
  (d.respond (.openPass pass interval)).2.record d.contexts.length inquiries

/-- A desk with a scheduler that is made anew from the inventory as it is now. -/
def anew (d : Desk) : Desk := ⟨ofInventory d.scheduler.inventory, []⟩

/-- Whatever has happened to a scheduler, on the next context that it opens it answers as one that
is made anew from its inventory, and claims the same. -/
theorem history_invisible (inv : Inventory) (contexts : List Ledger) (deeds : List Deed)
    (settled : Settled ⟨ofInventory inv, contexts⟩ deeds) (pass pass' : String) (interval : Slot)
    (inquiries : List Inquiry) :
    (after ⟨ofInventory inv, contexts⟩ deeds).inquire pass interval inquiries
      = (after ⟨ofInventory inv, contexts⟩ deeds).anew.inquire pass' interval inquiries := by
  have inStep := inStep_after deeds settled (Or.inl rfl)
  have left := stands_openPass (after ⟨ofInventory inv, contexts⟩ deeds).scheduler pass interval
  have right :=
    stands_openPass (after ⟨ofInventory inv, contexts⟩ deeds).anew.scheduler pass' interval
  rw [inStep] at left
  refine Matched.record inquiries ⟨_, _, ?_, rfl, left, right, rfl⟩
  exact List.getElem?_concat_length

/-- A hall is declared while a pass is under way, and known from the next registration on. -/
theorem sample_history_invisible :
    let deeds : List Deed :=
      [.call (.openPass "first" ⟨0, 100, by decide⟩),
        .call (.allocate 0 Sample.meeting ⟨1, 5, by decide⟩), .addResource Sample.hall, .call
          (.check 0 Sample.meeting ⟨3, 6, by decide⟩), .reload, .addAllocation
          ⟨⟨"c3"⟩, Sample.hall.id, ⟨0, 10, by decide⟩, .roomLicenses 1⟩, .runPass 0 Sample.requests]
    let inquiries : List Inquiry :=
      [.check Sample.meeting ⟨2, 4, by decide⟩, .allocate Sample.meeting ⟨2, 4, by decide⟩]
    (after ⟨ofInventory Sample.inventory, []⟩ deeds).inquire "second" ⟨0, 50, by decide⟩ inquiries
      = (after ⟨ofInventory Sample.inventory, []⟩ deeds).anew.inquire "anew"
        ⟨0, 50, by decide⟩ inquiries := by
  intro deeds inquiries
  -- the added resource is the only change of the resources, and a reload comes after it
  have settled : Settled ⟨ofInventory Sample.inventory, []⟩ deeds :=
    .keep rfl (.keep rfl (.change (List.mem_cons_of_mem _ List.mem_cons_self)
      (.keep rfl (.keep rfl (.keep rfl (.keep rfl trivial))))))
  exact history_invisible Sample.inventory [] deeds settled "second" "anew"
    ⟨0, 50, by decide⟩ inquiries

end Desk

end Scheduler

end Conference
