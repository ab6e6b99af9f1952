import Conference.Proofs.Session.Quiet

/-!
# Sessions that build reservations

What an allocation does to its session, seen from the outside: besides quiet steps it makes nodes,
whose claims the session admits, links the trees that it has made, and rolls back to a savepoint of
its own. The trees made so far are known by the keys of their nodes in pre-order.
-/

namespace Conference

/-- What an allocation claims, without its identifier. -/
def Allocation.claim (a : Allocation) : ResourceId × Slot × Usage := (a.resource, a.slot, a.usage)

namespace Session

/-- The value is not handed out by a provider during a slot, as the inventory and the ledger have
it. -/
def Free (s : Session) (id : ResourceId) (slot : Slot) (value : String) : Prop :=
  value ∉ Registry.valuesDuring s.inventory id s.ledger.workingInterval slot s.ledger

/-- There is room for a claim: the resource has enough capacity left, and a value is not handed
out. -/
structure Admits (s : Session) (id : ResourceId) (slot : Slot) (usage : Usage) : Prop where
  capacity : ∃ r, s.resource? id = some r ∧
    (usage.units = 0
      ∨ s.load id slot usage.dimension + usage.units ≤ (r.capacity? usage.dimension).getD 0)
  free : ∀ value, usage = .value value → s.Free id slot value

/-- What is admitted depends on the resources, the inventory and the ledger. -/
theorem Admits.congr {s t : Session} (resources : t.registry.resources = s.registry.resources)
    (inventory : t.inventory = s.inventory) (ledger : t.ledger = s.ledger) {id : ResourceId}
    {slot : Slot} {usage : Usage} (h : s.Admits id slot usage) : t.Admits id slot usage where
  capacity := by
    obtain ⟨r, found, enough⟩ := h.capacity
    refine ⟨r, (Registry.get?_congr resources id).trans found, ?_⟩
    unfold load
    rw [inventory, ledger]
    exact enough
  free := by
    unfold Free
    rw [inventory, ledger]
    exact h.free

/-- A quiet step keeps all that admission depends on. -/
theorem Admits.of_quiet {s t : Session} {id : ResourceId} {slot : Slot} {usage : Usage}
    (h : s.Admits id slot usage) (quiet : s.Quiet t) : t.Admits id slot usage :=
  h.congr quiet.resources quiet.inventory quiet.ledger

/-- What no allocation touches is the same in both sessions. -/
structure Agrees (s t : Session) : Prop where
  inventory : t.inventory = s.inventory
  resources : t.registry.resources = s.registry.resources
  workingInterval : t.ledger.workingInterval = s.ledger.workingInterval

theorem Agrees.refl (s : Session) : s.Agrees s := ⟨rfl, rfl, rfl⟩

theorem Agrees.trans {s t u : Session} (h : s.Agrees t) (h' : t.Agrees u) : s.Agrees u :=
  ⟨h'.inventory.trans h.inventory, h'.resources.trans h.resources,
    h'.workingInterval.trans h.workingInterval⟩

/-- Quiet steps touch less than allocations do. -/
theorem Quiet.agrees {s t : Session} (h : s.Quiet t) : s.Agrees t :=
  ⟨h.inventory, h.resources, by rw [h.ledger]⟩

/-- From `s` an allocation gets to a second session, and has made trees with the given keys by
then. -/
inductive Builds : Session → Session → List (List Nat) → Prop where
  | start (s : Session) : Builds s s []
  | quiet {s t u : Session} {made : List (List Nat)} :
      Builds s t made → t.Quiet u → Builds s u made
  /-- Claims are admitted if the registry has shown the inventory as it is from the start. -/
  | create {s t : Session} {made : List (List Nat)} (node : Reservation) :
      Builds s t made →
      (∀ id slot usage, node.claim? = some (id, slot, usage) → s.Current → t.Admits id slot usage) →
      Builds s (t.create node).2 (made ++ [[t.reservations.nextKey]])
  | attach {s t u : Session} {parent child : Nat} {ps cs : List Nat} {rest : List (List Nat)} :
      Builds s t ((parent :: ps) :: (child :: cs) :: rest) → t.attach parent child = .ok u →
      Builds s u ((parent :: ps ++ child :: cs) :: rest)
  | reorder {s t : Session} {made made' : List (List Nat)} :
      Builds s t made → made.Perm made' → Builds s t made'
  /-- What has been made since the savepoint is gone. -/
  | rollback {s t u : Session} {made made' : List (List Nat)} :
      Builds s t made → Builds t u made' → Builds s (u.rollback t.savepoint) made

/-- What a successful attachment does to a session. -/
theorem attach_eq_ok {s t : Session} {parent child : Nat} (h : s.attach parent child = .ok t) :
    ∃ f, s.reservations.attach parent child = .ok f ∧ t = { s with reservations := f } := by
  unfold Session.attach at h
  cases found : s.reservations.attach parent child with
  | error fault =>
    rw [found] at h
    cases h
  | ok f =>
    rw [found] at h
    exact ⟨f, rfl, (Except.ok.inj h).symm⟩

/-- Whatever has been built from `s` by `t`, nobody asks for it any more. -/
def Leaves (s t : Session) : Prop := ∃ made, s.Builds t made

/-! ## Making a node -/

/-- A node without a claim leaves the ledger as it is. -/
theorem ledger_create_of_none (s : Session) {node : Reservation} (h : node.claim? = none) :
    (s.create node).2.ledger = s.ledger := by
  unfold Reservation.claim? at h
  rw [Option.map_eq_none_iff] at h
  unfold create
  rw [h]

/-- A node with a claim puts it in force for the slot of the node. -/
theorem ledger_create_of_some (s : Session) {node : Reservation} {id : ResourceId} {slot : Slot}
    {usage : Usage} (h : node.claim? = some (id, slot, usage)) :
    (s.create node).2.ledger = s.ledger.apply id slot usage := by
  unfold Reservation.claim? at h
  obtain ⟨c, claimed, same⟩ := Option.map_eq_some_iff.1 h
  cases same
  unfold create
  rw [claimed]

/-- A node that is made does not move the working interval, whether it claims anything or not. -/
theorem workingInterval_create (s : Session) (node : Reservation) :
    (s.create node).2.ledger.workingInterval = s.ledger.workingInterval := by
  cases claim : node.claim? with
  | none => rw [ledger_create_of_none s claim]
  | some c =>
    rw [ledger_create_of_some s claim]
    rfl

namespace Builds

variable {s t u : Session} {made made' : List (List Nat)}

/-- Allocation works on the same ground from start to end. -/
theorem agrees (h : s.Builds t made) : s.Agrees t := by
  induction h with
  | start s => exact .refl s
  | quiet _ quiet ih => exact ih.trans quiet.agrees
  | @create s t made node _ _ ih => exact ih.trans ⟨rfl, rfl, t.workingInterval_create node⟩
  | attach _ attached ih =>
    obtain ⟨f, -, rfl⟩ := attach_eq_ok attached
    exact ih.trans ⟨rfl, rfl, rfl⟩
  | reorder _ _ ih => exact ih
  | rollback _ _ ih ih' => exact (ih.trans ih').trans ⟨rfl, rfl, rfl⟩

/-- While an allocation builds, the same resources are registered. -/
theorem resource? (h : s.Builds t made) (id : ResourceId) : t.resource? id = s.resource? id :=
  Registry.get?_congr h.agrees.resources id

/-- The snapshots stay right while an allocation builds: none of its steps touches the inventory or
the working interval, and only quiet steps have snapshots read. -/
theorem current (h : s.Builds t made) : s.Current → t.Current := by
  induction h with
  | start => exact id
  | quiet _ quiet ih => exact fun current => quiet.current (ih current)
  | create node _ _ ih =>
    intro current
    have before := ih current
    refine ⟨?_, before.reflects⟩
    rw [workingInterval_create]
    exact before.workingInterval
  | attach _ attached ih =>
    obtain ⟨f, -, rfl⟩ := attach_eq_ok attached
    exact fun current => ⟨(ih current).workingInterval, (ih current).reflects⟩
  | reorder _ _ ih => exact ih
  -- rolling back takes neither the interval nor the snapshots back
  | rollback _ _ ih ih' =>
    intro current
    have after := ih' (ih current)
    exact ⟨after.workingInterval, after.reflects⟩

/-- One allocation after another makes the trees of both. -/
theorem trans (h : s.Builds t made) (h' : t.Builds u made') : s.Builds u (made ++ made') := by
  induction h' with
  | start =>
    rw [List.append_nil]
    exact h
  | quiet _ quiet ih => exact (ih h).quiet quiet
  | create node _ admitted ih =>
    rw [← List.append_assoc]
    refine (ih h).create node fun id slot usage claim current => ?_
    exact admitted id slot usage claim (h.current current)
  | @attach _ _ _ parent child ps cs rest _ attached ih =>
    -- the two trees come to the front, and the joined one goes back to its place
    have front : (made ++ (parent :: ps) :: (child :: cs) :: rest).Perm
        ((parent :: ps) :: (child :: cs) :: (made ++ rest)) :=
      List.perm_middle.trans (List.perm_middle.cons _)
    have joined := ((ih h).reorder front).attach attached
    exact joined.reorder List.perm_middle.symm
  | reorder _ perm ih => exact (ih h).reorder (perm.append_left made)
  | rollback _ inner ih => exact (ih h).rollback inner

theorem leaves (h : s.Builds t made) : s.Leaves t := ⟨made, h⟩

theorem of_quiet (quiet : s.Quiet t) : s.Builds t [] := (Builds.start s).quiet quiet

/-- Quiet steps before an allocation count as part of it. -/
theorem after_quiet (quiet : s.Quiet t) (h : t.Builds u made) : s.Builds u made :=
  (of_quiet quiet).trans h

/-- Nothing that a session admits stops being admissible by quiet steps. -/
theorem create_of_quiet (quiet : s.Quiet t) (node : Reservation)
    (admitted : ∀ id slot usage, node.claim? = some (id, slot, usage) → s.Current →
      s.Admits id slot usage) : s.Builds (t.create node).2 [[t.reservations.nextKey]] := by
  refine (of_quiet quiet).create node fun id slot usage claim current => ?_
  exact (admitted id slot usage claim current).of_quiet quiet

/-- After going back to where it began, an allocation has built nothing. -/
theorem undo (h : s.Builds t made) : s.Builds (t.rollback s.savepoint) [] :=
  (Builds.start s).rollback h

end Builds

theorem Leaves.of_quiet {s t : Session} (quiet : s.Quiet t) : s.Leaves t := ⟨[], .of_quiet quiet⟩

/-- What is left behind in the end includes what was built before. -/
theorem Leaves.after {s t u : Session} {made : List (List Nat)} (h : t.Leaves u)
    (before : s.Builds t made) : s.Leaves u := by
  obtain ⟨made', builds⟩ := h
  exact ⟨made ++ made', before.trans builds⟩

/-- A tree has been built from `s` and its root is handed over, or else nothing has been built. -/
def Places (s : Session) : Option Nat → Session → Prop
  | some key, t => ∃ keys, s.Builds t [key :: keys]
  | none, t => s.Builds t []

/-- A first part that has built nothing does not matter for what is placed. -/
theorem Places.after {s t u : Session} {key : Option Nat} (h : t.Places key u)
    (nothing : s.Builds t []) : s.Places key u := by
  cases key with
  | none => exact nothing.trans h
  | some key =>
    obtain ⟨keys, builds⟩ := h
    exact ⟨keys, nothing.trans builds⟩

end Session

end Conference
