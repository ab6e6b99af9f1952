import Conference.Proofs.Lookup
import Conference.Proofs.Reservation.Span
import Mathlib.Data.List.Basic

/-!
# The nodes of a finished tree

When the keys that the tree of the root spans are those of all entries, walking through the tree
meets each entry once.
-/

namespace Conference.ReservationForest

theorem get?_of_mem {f : ReservationForest} (distinct : (f.entries.map (·.key)).Nodup) {e : Entry}
    (he : e ∈ f.entries) : f.get? e.key = some e.node := by
  unfold get?
  rw [find?_key_of_mem distinct he]
  rfl

theorem Spans.subtree_eq {f : ReservationForest} {key : Nat} {keys : List Nat}
    (spans : f.Spans (key :: keys)) (enough : (key :: keys).length ≤ f.size) :
    f.subtree key = key :: keys := spans f.size enough

/-- Walking through the tree meets the entries, in some order. -/
theorem nodes_perm_entries {f : ReservationForest} {root : Nat} {keys : List Nat}
    (rooted : f.root = some root) (spans : f.Spans (root :: keys))
    (perm : (root :: keys).Perm (f.entries.map (·.key)))
    (distinct : (f.entries.map (·.key)).Nodup) :
    f.nodes.Perm (f.entries.map fun e => (e.key, e.node)) := by
  have enough : (root :: keys).length ≤ f.size := by
    rw [perm.length_eq, List.length_map]
    exact Nat.le_refl _
  -- each key leads to its own entry
  have found : (f.entries.map (·.key)).filterMap (fun key => (f.get? key).map (key, ·))
      = f.entries.map fun e => (e.key, e.node) := by
    rw [List.filterMap_map, ← List.filterMap_eq_map]
    refine List.filterMap_congr fun e he => ?_
    show (f.get? e.key).map (e.key, ·) = some (e.key, e.node)
    rw [get?_of_mem distinct he]
    rfl
  unfold nodes
  simp only [rooted]
  rw [spans.subtree_eq enough, ← found]
  exact perm.filterMap _

end Conference.ReservationForest
