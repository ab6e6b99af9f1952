import Conference.Reservation.Forest

/-!
# Forests under other keys

Keys are names: a forest whose keys are all shifted by the same number is the same forest otherwise,
and each operation does the same to it. Two runs that differ in how many keys were given out before
them make forests that differ by such a shift.
-/

namespace Conference.ReservationForest

/-- The forest with all keys shifted. -/
def shift (k : Nat) (f : ReservationForest) : ReservationForest where
  entries := f.entries.map fun e => ⟨e.key + k, e.node⟩
  links := f.links.map fun l => (l.1 + k, l.2 + k)
  journal := f.journal.map (· + k)
  nextKey := f.nextKey + k
  root := f.root.map (· + k)

variable (k : Nat) (f : ReservationForest)

theorem beq_add_right (m n : Nat) : (m + k == n + k) = (m == n) := by
  rw [Bool.eq_iff_iff, beq_iff_eq, beq_iff_eq]
  omega

/-- A shifted list contains the shifted key just if the list contains the key. -/
theorem contains_map_add (keys : List Nat) (key : Nat) :
    (keys.map (· + k)).contains (key + k) = keys.contains key := by
  induction keys with
  | nil => rfl
  | cons c cs ih => rw [List.map_cons, List.contains_cons, List.contains_cons, ih, beq_add_right]

@[simp]
theorem shift_zero : f.shift 0 = f := by
  cases f
  simp [shift]

@[simp]
theorem size_shift : (f.shift k).size = f.size := List.length_map _

/-- A savepoint counts, so it is the same in a shifted forest. -/
@[simp]
theorem mark_shift : (f.shift k).mark = f.mark := List.length_map _

/-- The shifted keys are live. -/
theorem isLive_shift (key : Nat) : (f.shift k).isLive (key + k) = f.isLive key := by
  unfold isLive shift
  rw [List.any_map]
  simp only [Function.comp_def, beq_add_right]

theorem parent?_shift (key : Nat) :
    (f.shift k).parent? (key + k) = (f.parent? key).map (· + k) := by
  unfold parent? shift
  rw [List.find?_map]
  simp only [Function.comp_def, beq_add_right, Option.map_map]

theorem children_shift (key : Nat) :
    (f.shift k).children (key + k) = (f.children key).map (· + k) := by
  unfold children shift
  rw [List.filter_map]
  simp only [Function.comp_def, beq_add_right, List.map_map]

/-- Keys are given out from the shifted counter on. -/
theorem insert_shift (node : Reservation) : (f.shift k).insert node = (f.insert node).shift k := by
  simp only [insert, shift, List.map_append, List.map_cons, List.map_nil, Nat.add_right_comm]

/-- Attaching succeeds under the same conditions, or meets the same fault. -/
theorem attach_shift (parent child : Nat) :
    (f.shift k).attach (parent + k) (child + k) = (f.attach parent child).map (shift k) := by
  have same : parent + k = child + k ↔ parent = child := by omega
  unfold attach
  rw [isLive_shift, isLive_shift, parent?_shift, Option.isSome_map]
  simp only [same]
  split
  · rfl
  · split
    · rfl
    · split
      · rfl
      · simp only [Except.map, shift, List.map_append, List.map_cons, List.map_nil]

theorem setRoot_shift (key : Nat) : (f.shift k).setRoot (key + k) = (f.setRoot key).shift k := rfl

/-! ## Deletion -/

theorem detach_shift (key : Nat) : (f.shift k).detach (key + k) = (f.detach key).shift k := by
  simp only [detach, shift, List.filter_map, Function.comp_def, beq_add_right]

/-- By induction on the levels. -/
theorem subtreeWithin_shift (levels : Nat) :
    ∀ key, (f.shift k).subtreeWithin levels (key + k)
      = (f.subtreeWithin levels key).map (· + k) := by
  induction levels with
  | zero => exact fun _ => rfl
  | succ levels ih =>
    intro key
    rw [subtreeWithin, subtreeWithin, isLive_shift, children_shift, List.flatMap_map]
    split
    · simp only [ih, List.map_cons, List.map_flatMap]
    · rfl

theorem subtree_shift (key : Nat) :
    (f.shift k).subtree (key + k) = (f.subtree key).map (· + k) := by
  unfold subtree
  rw [size_shift, subtreeWithin_shift]

/-- Nodes, links and the root are dropped alike. -/
theorem discard_shift (keys : List Nat) :
    (f.shift k).discard (keys.map (· + k)) = (f.discard keys).shift k := by
  simp only [discard, shift, List.filter_map, Function.comp_def, contains_map_add, List.any_map,
    Option.filter_map, beq_add_right]

theorem remove_shift (key : Nat) :
    (f.shift k).remove (key + k) = ((f.remove key).1, (f.remove key).2.shift k) := by
  unfold remove
  rw [isLive_shift]
  split
  · simp only [detach_shift, subtree_shift, discard_shift, List.length_map]
  · rfl

theorem foldl_detach_shift (keys : List Nat) :
    ∀ f : ReservationForest, (keys.map (· + k)).foldl detach (f.shift k)
      = (keys.foldl detach f).shift k := by
  induction keys with
  | nil => exact fun _ => rfl
  | cons key keys ih =>
    intro f
    rw [List.map_cons, List.foldl_cons, List.foldl_cons, detach_shift, ih]

/-- Which children are older is decided alike, so the same ones are rescued. -/
theorem removeYoung_shift (old : List Nat) (key : Nat) :
    (f.shift k).removeYoung (old.map (· + k)) (key + k)
      = ((f.removeYoung old key).1, (f.removeYoung old key).2.shift k) := by
  unfold removeYoung
  rw [isLive_shift]
  split
  · rw [children_shift, List.filter_map]
    simp only [Function.comp_def, contains_map_add, foldl_detach_shift, remove_shift]
  · rfl

/-- By induction on the keys, with the forest generalized since it shrinks on the way. -/
theorem removeAllYoung_shift (old keys : List Nat) :
    ∀ f : ReservationForest, (f.shift k).removeAllYoung (old.map (· + k)) (keys.map (· + k))
      = ((f.removeAllYoung old keys).1, (f.removeAllYoung old keys).2.shift k) := by
  induction keys with
  | nil => exact fun _ => rfl
  | cons key keys ih =>
    intro f
    simp only [List.map_cons, removeAllYoung, removeYoung_shift, ih]

/-- Truncating to a mark deletes the same nodes, whatever their keys. -/
theorem truncate_shift (mark : Nat) :
    (f.shift k).truncate mark = ((f.truncate mark).1, (f.truncate mark).2.shift k) := by
  have journal : (f.shift k).journal = f.journal.map (· + k) := rfl
  unfold truncate
  simp only [journal, List.length_map, ← List.map_take, ← List.map_drop, removeAllYoung_shift]
  rfl

end Conference.ReservationForest
