import Conference.Proofs.Reservation.Nodes
import Conference.Proofs.Sample
import Conference.Proofs.Scheduler.Outcome
import Conference.Proofs.Session.Growth

/-!
# Trees own what they took

The forest of an allocation starts out empty, so all its nodes are new ones. If the allocation
succeeds they are the nodes of one tree, and the ledger has grown by just their claims.
-/

namespace Conference

section FromEmpty

variable {s t : Session} {root : Nat} {keys : List Nat} {new : List ReservationForest.Entry}
  {added : List Allocation}

theorem Session.Grows.entries_eq {made : List (List Nat)} (grows : s.Grows t made new added)
    (empty : s.reservations = .empty) : t.reservations.entries = new := by
  rw [grows.forest.entries, empty]
  rfl

/-- Where there was no node before, a single tree holds all entries. -/
theorem Session.Grows.nodes_perm (grows : s.Grows t [root :: keys] new added)
    (empty : s.reservations = .empty) :
    (t.reservations.setRoot root).nodes.Perm (new.map fun e => (e.key, e.node)) := by
  have entries := grows.entries_eq empty
  -- everything that has grown hangs below the one root
  have perm : (root :: keys).Perm (t.reservations.entries.map (·.key)) := by
    rw [entries]
    simpa using grows.keys
  have distinct : (t.reservations.entries.map (·.key)).Nodup := by
    rw [entries]
    exact grows.new_nodup
  have spans : (t.reservations.setRoot root).Spans (root :: keys) := by
    refine ReservationForest.Spans.congr ?_ ?_ (grows.spans _ List.mem_cons_self)
    · exact fun _ => rfl
    · exact fun _ => rfl
  rw [← entries]
  exact ReservationForest.nodes_perm_entries rfl spans perm distinct

/-- The claims of the tree are those that have been added to the ledger. -/
theorem Session.Grows.claims_perm (grows : s.Grows t [root :: keys] new added)
    (empty : s.reservations = .empty) :
    (added.map Allocation.claim).Perm (Inventory.claimsOf (t.reservations.setRoot root)) := by
  have claims : (new.map fun e => (e.key, e.node)).filterMap (·.2.claim?)
      = added.map Allocation.claim := by
    rw [List.filterMap_map, grows.claims]
    rfl
  rw [← claims]
  exact ((grows.nodes_perm empty).filterMap _).symm

end FromEmpty

namespace Scheduler

/-- The tree that an allocation returns holds each of its live nodes once. The allocations added to
the ledger, behind those that were there, are the claims of these nodes. -/
theorem claims_of_tree {s : Scheduler} {spec : Specification} {slot : Slot} {ledger : Ledger}
    {done : Allocated} {tree : ReservationForest} (run : s.allocate spec slot ledger = .ok done)
    (success : done.result = .ok tree) :
    tree.nodes.Perm (tree.entries.map fun e => (e.key, e.node))
      ∧ (tree.nodes.map (·.1)).Nodup
      ∧ tree.size = tree.nodes.length
      ∧ ∃ added, done.ledger.applied = ledger.applied ++ added
        ∧ (added.map Allocation.claim).Perm (Inventory.claimsOf tree) := by
  obtain ⟨after, reached, left, -⟩ := exists_reaches run
  rw [success] at reached
  obtain ⟨root, keys, builds, rfl⟩ := reached
  -- the forest of a session begins empty, so all of it is new
  obtain ⟨new, added, grows⟩ := builds.grows ReservationForest.inProgress_empty
  have entries : (after.reservations.setRoot root).entries = new := grows.entries_eq rfl
  have nodes := grows.nodes_perm rfl
  rw [entries]
  refine ⟨nodes, ?_, ?_, added, ?_, ?_⟩
  · refine (nodes.map (·.1)).nodup_iff.2 ?_
    rw [List.map_map]
    exact grows.new_nodup
  · rw [nodes.length_eq, List.length_map, ReservationForest.size, entries]
  · rw [left, grows.ledger]
    rfl
  · have claims : (new.map fun e => (e.key, e.node)).filterMap (·.2.claim?)
        = added.map Allocation.claim := by
      rw [List.filterMap_map, grows.claims]
      rfl
    rw [← claims]
    exact (nodes.filterMap _).symm

/-- A meeting makes a tree of three nodes, two of which claim something. -/
theorem claims_of_sample_meeting :
    let ledger := Ledger.empty "pass" ⟨0, 100, by decide⟩
    ∃ done tree,
      (ofInventory Sample.inventory).allocate Sample.meeting ⟨1, 5, by decide⟩ ledger = .ok done
      ∧ done.result = .ok tree
      ∧ tree.nodes.Perm (tree.entries.map fun e => (e.key, e.node))
      ∧ (tree.nodes.map (·.1)).Nodup
      ∧ tree.size = tree.nodes.length
      ∧ ∃ added, done.ledger.applied = ledger.applied ++ added
        ∧ (added.map Allocation.claim).Perm (Inventory.claimsOf tree) := by
  intro ledger
  -- only that the request succeeds is evaluated, the tree is left abstract
  have succeeds : (((ofInventory Sample.inventory).allocate Sample.meeting ⟨1, 5, by decide⟩
      ledger).toOption.bind (·.result.toOption)).isSome = true := by decide +kernel
  cases run : (ofInventory Sample.inventory).allocate Sample.meeting ⟨1, 5, by decide⟩ ledger with
  | error fault =>
    rw [run] at succeeds
    cases succeeds
  | ok done =>
    rw [run, Except.toOption, Option.bind_some] at succeeds
    cases success : done.result with
    | error refusal =>
      rw [success] at succeeds
      cases succeeds
    | ok tree => exact ⟨done, tree, rfl, success, claims_of_tree run success⟩

end Scheduler

end Conference
