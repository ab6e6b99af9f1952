import Conference.Proofs.Granted.Kinds
import Conference.Proofs.Scheduler.Compartment

/-!
# What is granted is what was asked for

The tree that the scheduler grants has the shape that its specification asks for, on resources that
may be booked for the slot, and all of its nodes are for that slot. The shape says which nodes there
are, so what is said of all nodes follows from it.
-/

namespace Conference

/-- The tree that starts from a node is as the specification asks for. -/
def Specification.IsMet (g : Registry) (interval slot : Slot) (tree : ReservationForest)
    (root : Nat) :
    Specification → Prop
  | resource id => Exclusive.IsTaken id g interval slot tree root
  | room spec => spec.IsFurnished g interval slot tree root
  | recording spec => spec.IsRecording g interval slot tree root
  | dialAlias spec => spec.IsAlias none g interval slot tree root
  | compartment participants => Compartment.Connected g slot participants tree

/-- The node is for the slot, and the resource that it names, if any, is on offer. -/
structure Reservation.IsSound (g : Registry) (interval slot : Slot)
    (node : Reservation) : Prop where
  onTime : node.slot = slot
  resource : ∀ id, node.kind.resource? = some id → ∃ r, r.id = id ∧ g.Offers interval slot r

variable {g : Registry} {interval slot : Slot} {f : ReservationForest} {key : Nat}

theorem Registry.Offers.isSound {r : Resource} (offers : g.Offers interval slot r)
    {node : Reservation} (same : node.slot = slot) (named : node.kind.resource? = some r.id) :
    node.IsSound g interval slot :=
  ⟨same, fun _ other => ⟨r, Option.some.inj (named.symm.trans other), offers⟩⟩

/-! ## The nodes of each shape -/

theorem ReservationForest.throughout_of_childless {p : Reservation → Prop} {node : Reservation}
    (found : f.get? key = some node) (childless : f.children key = []) (holds : p node) :
    f.Throughout p key := by
  refine .node found holds fun child mem => ?_
  rw [childless] at mem
  cases mem

theorem AliasSpec.IsAlias.throughout {spec : AliasSpec} {target : Option ResourceId}
    (h : spec.IsAlias target g interval slot f key) :
    f.Throughout (·.IsSound g interval slot) key := by
  obtain ⟨r, provider, value, aliases, child, offers, -, -, node, children, below, childless⟩ := h
  refine .node node (offers.isSound rfl rfl) fun child' mem => ?_
  rw [children, List.mem_singleton] at mem
  rw [mem]
  exact ReservationForest.throughout_of_childless below childless (offers.isSound rfl rfl)

theorem RoomSpec.IsFurnished.throughout {spec : RoomSpec}
    (h : spec.IsFurnished g interval slot f key) :
    f.Throughout (·.IsSound g interval slot) key := by
  obtain ⟨r, offers, -, -, -, node, aliases⟩ := h
  refine .node node (offers.isSound rfl rfl) fun child mem => ?_
  obtain ⟨same, each⟩ := List.forall₂_iff_get.1 aliases
  obtain ⟨i, bound, rfl⟩ := List.mem_iff_getElem.1 mem
  exact (each i (same ▸ bound) bound).throughout

theorem Specification.IsMet.throughout {spec : Specification} (h : spec.IsMet g interval slot f key)
    (apart : ∀ participants, spec ≠ .compartment participants) :
    f.Throughout (·.IsSound g interval slot) key := by
  cases spec with
  | resource id =>
    obtain ⟨r, rfl, offers, node, childless⟩ := h
    exact ReservationForest.throughout_of_childless node childless (offers.isSound rfl rfl)
  | room spec => exact RoomSpec.IsFurnished.throughout h
  | recording spec =>
    obtain ⟨r, offers, -, -, -, -, node, childless⟩ := h
    exact ReservationForest.throughout_of_childless node childless (offers.isSound rfl rfl)
  | dialAlias spec => exact AliasSpec.IsAlias.throughout h
  | compartment participants => exact absurd rfl (apart participants)

namespace Scheduler

end Scheduler

end Conference
