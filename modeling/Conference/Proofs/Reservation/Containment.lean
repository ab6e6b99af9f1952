import Conference.Proofs.Reservation.Inverse
import Conference.Proofs.Slot.Algebra

/-!
# Containment of slots

The check of a forest goes from node to node and compares the slot of each with those of its
children, and with no others. Containment is transitive. So if no child lies outside, then no
descendant does, however far down it is, and that is so in every forest that operations have made,
since each way down goes by links that are children on one side and parents on the other. No order
of the nodes is better than another one: the check may name another child that lies outside, but it
always names one if there is any descendant outside.
-/

namespace Conference

namespace ReservationForest

variable {f : ReservationForest} {upper middle lower parent child : Nat} {order : List Nat}

/-- Both nodes are there, and the slot of the lower one is inside that of the upper one. -/
def Encloses (f : ReservationForest) (upper lower : Nat) : Prop :=
  ∃ node below, f.get? upper = some node ∧ f.get? lower = some below ∧ node.slot.contains below.slot

/-- Both nodes are there, and the slot of the lower one is not inside that of the upper one. -/
def Exceeds (f : ReservationForest) (upper lower : Nat) : Prop :=
  ∃ node below, f.get? upper = some node ∧ f.get? lower = some below
    ∧ ¬ node.slot.contains below.slot

/-- What a check has to tell: nothing just if each node encloses all of its descendants, and else a
node with a child that is there and lies outside. -/
structure IsVerdict (f : ReservationForest) (verdict : Option (Nat × Nat)) : Prop where
  accepts : verdict = none ↔ ∀ upper lower, f.Above upper lower → f.Encloses upper lower
  names : ∀ parent child, verdict = some (parent, child) → child ∈ f.children parent
    ∧ f.Exceeds parent child

/-- The test that is made of a node and a child of it. -/
def isOutside (f : ReservationForest) (parent child : Nat) : Bool :=
  (f.get? parent).any fun node => (f.get? child).any fun below => !node.slot.contains below.slot

/-- The check with the nodes in a given order. -/
def scan (f : ReservationForest) (order : List Nat) : Option (Nat × Nat) :=
  order.findSome? fun key => ((f.children key).find? (f.isOutside key)).map (key, ·)

theorem isOutside_iff : f.isOutside parent child ↔ f.Exceeds parent child := by
  simp [isOutside, Exceeds, Option.any_eq_true]

/-! ## Ways down -/

theorem Encloses.trans (outer : f.Encloses upper middle) (inner : f.Encloses middle lower) :
    f.Encloses upper lower := by
  obtain ⟨node, between, there, found, outside⟩ := outer
  obtain ⟨between', below, found', there', inside⟩ := inner
  obtain rfl := Option.some.inj (found.symm.trans found')
  exact ⟨node, below, there, there', Slot.contains_trans outside inside⟩

/-- By induction on the way down, one link after the other. -/
theorem encloses_of_above
    (links : ∀ parent child, f.parent? child = some parent → f.Encloses parent child)
    (above : f.Above upper lower) : f.Encloses upper lower := by
  induction above with
  | single found => exact links _ _ found
  | tail _ found ih => exact ih.trans (links _ _ found)

/-- The nodes at the ends of a link are there, so that one encloses the other unless it is
outside. -/
theorem WellLinked.encloses_iff (linked : f.WellLinked) (found : f.parent? child = some parent) :
    f.Encloses parent child ↔ ¬ f.Exceeds parent child := by
  obtain ⟨live, live'⟩ := linked.live _ (mem_links_of_parent? found)
  obtain ⟨node, there⟩ := exists_get? live
  obtain ⟨below, there'⟩ := exists_get? live'
  simp [Encloses, Exceeds, there, there']

/-! ## The check -/

theorem scan_eq_none_iff :
    f.scan order = none ↔ ∀ key ∈ order, ∀ child ∈ f.children key, ¬ f.Exceeds key child := by
  simp only [scan, List.findSome?_eq_none_iff, Option.map_eq_none_iff,
    List.find?_eq_none, isOutside_iff]

theorem exceeds_of_scan (found : f.scan order = some (parent, child)) :
    child ∈ f.children parent ∧ f.Exceeds parent child := by
  obtain ⟨key, -, named⟩ := List.exists_of_findSome?_eq_some found
  obtain ⟨other, first, same⟩ := Option.map_eq_some_iff.1 named
  obtain ⟨rfl, rfl⟩ := Prod.mk.inj same
  exact ⟨List.mem_of_find?_eq_some first, isOutside_iff.1 (List.find?_some first)⟩

/-- Any order in which all nodes come up will do. -/
theorem WellLinked.isVerdict_scan (linked : f.WellLinked)
    (all : ∀ key, f.isLive key → key ∈ order) :
    f.IsVerdict (f.scan order) := by
  refine ⟨?_, fun parent child found => exceeds_of_scan found⟩
  rw [scan_eq_none_iff]
  constructor
  · intro none_outside upper lower above
    -- each link on the way down has been looked at from its upper end
    refine encloses_of_above (fun parent child found => (linked.encloses_iff found).2 ?_) above
    exact none_outside parent (all parent (linked.live_of_parent? found)) child
      (linked.mem_children.2 found)
  · intro enclosed key _ child below
    have found := linked.mem_children.1 below
    exact (linked.encloses_iff found).1 (enclosed key child (.single found))

/-- The running check takes the nodes in the order in which they were created. -/
theorem violation?_eq_scan (distinct : (f.entries.map (·.key)).Nodup) :
    f.violation? = f.scan (f.entries.map (·.key)) := by
  rw [scan, List.findSome?_map, violation?, ← List.head?_filterMap, ← List.head?_filterMap]
  refine congrArg List.head? (List.filterMap_congr fun e there => ?_)
  refine congrArg (fun outside => ((f.children e.key).find? outside).map (e.key, ·))
    (funext fun child => ?_)
  -- the node of the entry is the one that is found under its key
  rw [isOutside, get?_of_mem distinct there]
  cases f.get? child <;> rfl

end ReservationForest

namespace Arena

open ReservationForest
open Operation (reached)

variable {a : Arena} {f : ReservationForest}

/-- The first child of a cell that is there and lies outside. -/
def outside? (a : Arena) (cell : Cell) : Option Nat :=
  cell.children.find? fun child => a.cells[child]?.any fun below =>
    !cell.node.slot.contains below.node.slot

/-- The first cell with a child outside, and that child. The cells come in the order in which they
happen to lie in the arena, where new ones are put into the places of old ones. -/
def violation? (a : Arena) (order : List Nat) : Option (Nat × Nat) :=
  order.findSome? fun key => a.cells[key]?.bind fun cell => (a.outside? cell).map (key, ·)

theorem Draws.violation?_eq_scan {places : List Nat} (draws : a.Draws f places)
    (linked : f.WellLinked) (order : List Nat) : a.violation? order = f.scan order := by
  refine congrArg order.findSome? (funext fun key => ?_)
  rw [draws.cells]
  cases there : f.get? key with
  | none =>
    rw [linked.children_eq_nil (get?_eq_none_iff.1 there)]
    rfl
  | some node =>
    have test (child : Nat) : f.isOutside key child =
        a.cells[child]?.any fun below => !node.slot.contains below.node.slot := by
      rw [isOutside, there, draws.cells]
      cases f.get? child <;> rfl
    rw [Option.map_some, Option.bind_some, outside?, ← funext test]

/-- The check accepts a forest that operations have made just if the slot of each node contains
those of all of its descendants, and names a child outside of the slot of its parent if it does not.
The running check takes the nodes in the order of their creation, but the same holds in whatever
order it comes upon them, and also where links run in a circle. -/
theorem check_reaches_descendants (ops : List Operation) :
    (reached ops).IsVerdict (reached ops).violation?
    ∧ ∃ a, after ops = .some a ∧ a.Shows (reached ops)
      ∧ a.violation? ((reached ops).entries.map (·.key)) = (reached ops).violation?
      ∧ ∀ order : List Nat, (∀ key, key ∈ order ↔ a.contains key = true) →
        (reached ops).IsVerdict (a.violation? order) := by
  obtain ⟨a, there, shown⟩ := exists_after ops
  have orderly := Operation.orderly_reached ops
  have linked := orderly.linked
  -- the check goes through the links in the order of the keys, and any other order will do
  have creation := ReservationForest.violation?_eq_scan orderly.keys
  refine ⟨?_, a, there, shown, ?_, fun order visits => ?_⟩
  · rw [creation]
    refine linked.isVerdict_scan fun key live => ?_
    obtain ⟨e, mem, rfl⟩ := ReservationForest.isLive_iff.1 live
    exact List.mem_map_of_mem mem
  · rw [creation, shown.violation?_eq_scan linked]
  · rw [shown.violation?_eq_scan linked]
    refine linked.isVerdict_scan fun key live => (visits key).2 ?_
    rw [shown.contains, live]

/-- A point at the end of the slots above it is inside, a node below the point that goes on after it
is not. -/
example :
    let node (start stop : Int) : Operation :=
      .insert (.made (Slot.span start stop) (.resource ⟨"hall"⟩))
    let row : List Operation := [node 0 10, node 5 10, node 10 10, .attach 1 2, .attach 0 1]
    (reached row).violation? = none
      ∧ (reached (row ++ [node 10 12, .attach 2 3])).violation? = some (2, 3) := by decide

end Arena

end Conference
