import Conference.Proofs.Reservation.Sweep
import Mathlib.Data.PFun
import Std.Data.HashMap.Lemmas

/-!
# Arenas

A forest can be kept in an arena of cells. A cell holds the key of its parent and the keys of its
children, so that each link is there twice and each operation has to change both cells. To find a
subtree the arena goes by the lists of children, with the cells to come on a stack, for as long as
it takes.

An arena draws a forest if its cells are made of the nodes of the forest and have the parents and
children that the one list of links gives them. Each operation on the arena then does what it does
to the forest. In particular the search for a subtree ends whenever a node is deleted, since the
node has been detached.
-/

namespace Conference

/-- A node in an arena. -/
structure Cell where
  node : Reservation
  /-- The place in the journal. -/
  created : Nat
  parent : Option Nat
  children : List Nat

/-- A node that has lost a child. -/
def Cell.dropChild (key : Nat) (cell : Cell) : Cell :=
  { cell with children := cell.children.filter (· != key) }

structure Arena where
  cells : Std.HashMap Nat Cell
  /-- The keys given out, youngest first. -/
  journal : List Nat
  nextKey : Nat
  root : Option Nat

namespace Arena

def empty : Arena := ⟨∅, [], 0, none⟩

def contains (a : Arena) (key : Nat) : Bool := a.cells.contains key

def parent? (a : Arena) (key : Nat) : Option Nat := a.cells[key]?.bind (·.parent)

def children (a : Arena) (key : Nat) : List Nat := (a.cells[key]?.map (·.children)).getD []

def insert (a : Arena) (node : Reservation) : Arena :=
  { a with
    cells := a.cells.insert a.nextKey ⟨node, a.journal.length, none, []⟩
    journal := a.nextKey :: a.journal
    nextKey := a.nextKey + 1 }

/-- Makes one node the last child of another. The fault comes first, if it is one. -/
def attach (a : Arena) (parent child : Nat) : Option Fault × Arena :=
  if !a.contains parent || !a.contains child then (some .unknownReservation, a)
  else if parent = child then (some .reservationCycle, a)
  else if (a.parent? child).isSome then (some .reservationAlreadyAttached, a)
  else
    let linked := a.cells.modify child fun cell => { cell with parent := some parent }
    (none, { a with
      cells := linked.modify parent fun cell =>
        { cell with children := cell.children ++ [child] } })

def setRoot (a : Arena) (key : Nat) : Arena := { a with root := some key }

def detach (a : Arena) (key : Nat) : Arena :=
  match a.parent? key with
  | none => a
  | some parent =>
    let freed := a.cells.modify key fun cell => { cell with parent := none }
    { a with cells := freed.modify parent (·.dropChild key) }

/-- Takes a cell off the stack. If there was none, the result is complete, else the search goes
on. -/
def visit (a : Arena) : List Nat × List Nat → List Nat ⊕ List Nat × List Nat
  | ([], result) => .inl result
  | (key :: stack, result) =>
    match a.cells[key]? with
    | none => .inr (stack, result)
    -- the children come before the other cells, in their order
    | some cell => .inr (cell.children ++ stack, result ++ [key])

/-- Goes through the cells on the stack and those below them, in pre-order. There is no result if
that never ends. -/
def traverse (a : Arena) (stack result : List Nat) : Part (List Nat) :=
  (PFun.lift a.visit).fix (stack, result)

def subtree (a : Arena) (key : Nat) : Part (List Nat) := a.traverse [key] []

/-- Deletes cells one by one, and forgets the root if it is gone then. -/
def erase (a : Arena) (gone : List Nat) : Arena :=
  let cells := gone.foldl (fun cells key => cells.erase key) a.cells
  { a with
    cells := cells
    root := if a.root.any (!cells.contains ·) then none else a.root }

/-- Deletes a node together with its subtree; the number of deleted nodes comes with the result. -/
def remove (a : Arena) (key : Nat) : Part (Nat × Arena) :=
  if a.contains key then
    let detached := a.detach key
    (detached.subtree key).map fun gone => (gone.length, detached.erase gone)
  else .some (0, a)

/-- Deletes a node, if it is there. Its children from before the mark are detached first. -/
def removeYoung (a : Arena) (mark key : Nat) : Part (Nat × Arena) :=
  match a.cells[key]? with
  | none => .some (0, a)
  | some cell =>
    let older := cell.children.filter fun child => a.cells[child]?.any (·.created < mark)
    (older.foldl detach a).remove key

/-- Takes a key off the journal and deletes its node, if the journal is longer than the mark, and
goes on then. -/
def pop (mark : Nat) : Nat × Arena →. (Nat × Arena) ⊕ Nat × Arena
  | (removed, a) =>
    if mark < a.journal.length then
      match a.journal with
      | [] => .some (.inl (removed, a))
      | key :: journal =>
        ({ a with journal := journal }.removeYoung mark key).map fun (count, left) =>
          .inr (removed + count, left)
    else .some (.inl (removed, a))

/-- Takes keys off the journal until it is no longer than the mark, and deletes their nodes. -/
def sweep (a : Arena) (mark removed : Nat) : Part (Nat × Arena) := (pop mark).fix (removed, a)

/-- Deletes the nodes made after a mark, youngest first. -/
def truncate (a : Arena) (mark : Nat) : Part (Nat × Arena) := a.sweep mark 0

open ReservationForest (Operation)

/-- The arena as an operation leaves it, whether it is refused or not. -/
def perform (a : Arena) : Operation → Part Arena
  | .insert node => .some (a.insert node)
  | .attach parent child => .some (a.attach parent child).2
  | .setRoot key => .some (a.setRoot key)
  | .remove key => (a.remove key).map (·.2)
  | .truncate mark => (a.truncate mark).map (·.2)

/-- The arena that some operations make of the empty one. -/
def after (ops : List Operation) : Part Arena := ops.foldlM perform empty

/-! ## Arenas of a forest -/

/-- The cells are those of the forest. The order tells the places in the journal. -/
structure Draws (a : Arena) (f : ReservationForest) (order : List Nat) : Prop where
  cells : ∀ key, a.cells[key]? = (f.get? key).map fun node =>
    ⟨node, order.idxOf key, f.parent? key, f.children key⟩
  nextKey : a.nextKey = f.nextKey
  root : a.root = f.root

structure Shows (a : Arena) (f : ReservationForest) : Prop extends Draws a f f.journal.reverse where
  journal : a.journal = f.journal

open ReservationForest

variable {a b : Arena} {f g : ReservationForest} {order : List Nat} {key : Nat}

namespace Draws

variable (draws : a.Draws f order)

include draws

/-- The arena has cells for just the live keys. -/
theorem contains (key : Nat) : a.contains key = f.isLive key := by
  rw [Arena.contains, Std.HashMap.contains_eq_isSome_getElem?, draws.cells,
    Option.isSome_map, isSome_get?]

/-- The stored link upwards is the link of the forest. -/
theorem parent? (linked : f.WellLinked) (key : Nat) : a.parent? key = f.parent? key := by
  rw [Arena.parent?, draws.cells]
  cases there : f.get? key with
  | none => rw [linked.parent?_eq_none (get?_eq_none_iff.1 there)]; rfl
  | some node => rfl

/-- The stored links downwards are those of the forest, in the same order. -/
theorem children (linked : f.WellLinked) (key : Nat) : a.children key = f.children key := by
  rw [Arena.children, draws.cells]
  cases there : f.get? key with
  | none => rw [linked.children_eq_nil (get?_eq_none_iff.1 there)]; rfl
  | some node => rfl

end Draws

/-! ## Insertions and attachments -/

theorem shows_empty : empty.Shows .empty where
  cells _ := Std.HashMap.getElem?_empty
  nextKey := rfl
  root := rfl
  journal := rfl

/-- A new node gets a cell without links, which is created last. -/
theorem Shows.insert (shown : a.Shows f) (orderly : f.Orderly) (node : Reservation) :
    (a.insert node).Shows (f.insert node) where
  cells key := by
    -- the new key is in no list yet, so it has no links and its place is the last one
    have dead : ¬ f.isLive f.nextKey := fun live => Nat.lt_irrefl _ (orderly.lt_nextKey live)
    have unused : f.nextKey ∉ f.journal.reverse := by
      rw [List.mem_reverse]
      exact fun mem => Nat.lt_irrefl _ (orderly.issued _ mem)
    show (a.cells.insert a.nextKey _)[key]? = ((f.insert node).get? key).map fun node =>
      (⟨node, (f.nextKey :: f.journal).reverse.idxOf key, f.parent? key, f.children key⟩ : Cell)
    rw [Std.HashMap.getElem?_insert, shown.nextKey, shown.cells, shown.journal,
      orderly.get?_insert, List.reverse_cons]
    by_cases new : f.nextKey = key
    · subst new
      rw [if_pos (beq_self_eq_true _), if_pos rfl, Option.map_some,
        orderly.linked.parent?_eq_none dead, orderly.linked.children_eq_nil dead,
        List.idxOf_append_of_notMem unused, List.idxOf_cons_self, List.length_reverse]
      rfl
    · rw [if_neg (by simpa using new), if_neg new]
      cases there : f.get? key with
      | none => rfl
      | some found =>
        have old : key ∈ f.journal.reverse :=
          List.mem_reverse.2 (orderly.recorded key (isLive_of_get? there))
        rw [Option.map_some, Option.map_some, List.idxOf_append_of_mem old]
  nextKey := congrArg (· + 1) shown.nextKey
  root := shown.root
  journal := by
    show a.nextKey :: a.journal = f.nextKey :: f.journal
    rw [shown.nextKey, shown.journal]

/-- A change of one cell is seen under its own key only. -/
theorem getElem?_modify (cells : Std.HashMap Nat Cell) (key other : Nat) (change : Cell → Cell) :
    (cells.modify key change)[other]? = cells[other]?.map fun cell =>
      if other = key then change cell else cell := by
  rw [Std.HashMap.getElem?_modify]
  by_cases same : other = key
  · simp [same]
  · simp [same, Ne.symm same]

/-- An accepted attachment writes both halves of the link. -/
theorem Draws.attach (draws : a.Draws f order) (linked : f.WellLinked) {parent child : Nat}
    (done : f.attach parent child = .ok g) :
    (a.attach parent child).1 = none ∧ (a.attach parent child).2.Draws g order
      ∧ (a.attach parent child).2.journal = a.journal := by
  have children := children_attach done
  have linked' := linked.attach done
  obtain ⟨live, live', different, free, rfl⟩ := attach_eq_ok_iff.1 done
  have accepted : a.attach parent child = (none, { a with
      cells := (a.cells.modify child fun cell => { cell with parent := some parent }).modify parent
        fun cell => { cell with children := cell.children ++ [child] } }) := by
    rw [Arena.attach, draws.contains, draws.contains, live, live', if_neg (by simp),
      if_neg different, draws.parent? linked, free, if_neg nofun]
  rw [accepted]
  refine ⟨rfl, ⟨fun key => ?_, draws.nextKey, draws.root⟩, rfl⟩
  show _ = (f.get? key).map _
  rw [getElem?_modify, getElem?_modify, draws.cells, Option.map_map, Option.map_map]
  congr 1
  funext node
  rw [children key, parent?_attach_eq done key]
  -- the parent and the child have different cells, and each of these is changed by one half of the
  -- attachment
  by_cases lower : key = child
  · simp [lower, Ne.symm different, different]
  · by_cases upper : key = parent
    · simp [upper, different]
    · simp [lower, upper, Ne.symm upper]

/-- An attachment is refused where that to the forest is, and then changes nothing. -/
theorem Draws.attach_error (draws : a.Draws f order) (linked : f.WellLinked) {parent child : Nat}
    {fault : Fault} (refused : f.attach parent child = .error fault) :
    a.attach parent child = (some fault, a) := by
  rw [Arena.attach, draws.contains, draws.contains, draws.parent? linked]
  -- the three checks are made in the same order in both
  unfold ReservationForest.attach at refused
  split at refused
  · cases refused
    rw [if_pos ‹_›]
  · rw [if_neg ‹_›]
    split at refused
    · cases refused
      rw [if_pos ‹_›]
    · rw [if_neg ‹_›]
      split at refused
      · cases refused
        rw [if_pos ‹_›]
      · cases refused

/-! ## Deletions -/

/-- Detaching takes both halves of the link away again. -/
theorem Draws.detach (draws : a.Draws f order) (linked : f.WellLinked) (key : Nat) :
    (a.detach key).Draws (f.detach key) order ∧ (a.detach key).journal = a.journal := by
  rw [Arena.detach, draws.parent? linked]
  cases found : f.parent? key with
  | none =>
    refine ⟨?_, rfl⟩
    rw [detach_of_parent?_eq_none linked found]
    exact draws
  | some parent =>
    refine ⟨⟨fun other => ?_, draws.nextKey, draws.root⟩, rfl⟩
    show _ = (f.get? other).map _
    rw [getElem?_modify, getElem?_modify, draws.cells, Option.map_map, Option.map_map]
    congr 1
    funext node
    rw [children_detach]
    have parentless : (f.detach key).parent? other
        = if other = key then none else f.parent? other := by
      split
      · rename_i same
        rw [same, parent?_detach]
      · rename_i different
        rw [parent?_detach_of_ne different]
    -- no other node than the parent has listed the child
    have childless (different : other ≠ parent) : (f.children other).filter (· != key)
        = f.children other := by
      refine List.filter_eq_self.2 fun child below => bne_iff_ne.2 fun same => different ?_
      rw [same, linked.mem_children, found] at below
      exact (Option.some.inj below).symm
    rw [parentless]
    simp only [Function.comp_apply, Cell.dropChild]
    by_cases upper : other = parent
    · rw [if_pos upper]
      by_cases top : other = key
      · rw [if_pos top, if_pos top]
      · rw [if_neg top, if_neg top]
    · rw [if_neg upper, childless upper]
      by_cases top : other = key
      · rw [if_pos top, if_pos top]
      · rw [if_neg top, if_neg top]

/-- The same for several nodes, one after the other. -/
theorem Draws.foldl_detach (keys : List Nat) :
    ∀ {a : Arena} {f : ReservationForest}, a.Draws f order → f.WellLinked →
    (keys.foldl Arena.detach a).Draws (keys.foldl ReservationForest.detach f) order
      ∧ (keys.foldl Arena.detach a).journal = a.journal := by
  induction keys with
  | nil => exact fun draws _ => ⟨draws, rfl⟩
  | cons key keys ih =>
    intro a f draws linked
    obtain ⟨first, same⟩ := draws.detach linked key
    obtain ⟨rest, same'⟩ := ih first (linked.detach key)
    exact ⟨rest, same'.trans same⟩

/-- Without pending nodes the traversal ends. -/
theorem traverse_nil (a : Arena) (result : List Nat) : a.traverse [] result = .some result :=
  Part.eq_some_iff.2 (PFun.fix_stop (Part.mem_some _))

/-- One turn of the traversal: a cell puts its children before the other pending nodes. -/
theorem traverse_cons (a : Arena) (key : Nat) (stack result : List Nat) :
    a.traverse (key :: stack) result = match a.cells[key]? with
      | none => a.traverse stack result
      | some cell => a.traverse (cell.children ++ stack) (result ++ [key]) := by
  have next : a.visit (key :: stack, result) ∈ PFun.lift a.visit (key :: stack, result) :=
    Part.mem_some _
  rw [visit] at next
  cases there : a.cells[key]? with
  | none =>
    rw [there] at next
    exact PFun.fix_fwd_eq next
  | some cell =>
    rw [there] at next
    exact PFun.fix_fwd_eq next

/-- By induction on the walk: the search has the keys that are pending on its stack. -/
theorem Draws.traverse_of_walk (draws : a.Draws f order) {pending : List (Nat × Nat)}
    {found : List Nat} (walk : f.Walk f.keyOf pending found) :
    ∀ result, a.traverse (pending.map (·.2)) result = .some (result ++ found) := by
  induction walk with
  | done =>
    intro result
    rw [List.map_nil, traverse_nil, List.append_nil]
  | @pass depth key pending found absent _ ih =>
    intro result
    have nothing : a.cells[key]? = none := by
      rw [draws.cells, Option.map_eq_none_iff, get?_eq_none_iff]
      exact keyOf_eq_none.1 absent
    rw [List.map_cons, traverse_cons, nothing]
    exact ih result
  | @meet depth key thing pending found met _ ih =>
    intro result
    obtain ⟨live, rfl⟩ := keyOf_eq_some.1 met
    obtain ⟨node, there⟩ := exists_get? live
    have cell : a.cells[key]? = some ⟨node, order.idxOf key, f.parent? key, f.children key⟩ := by
      rw [draws.cells, there, Option.map_some]
    -- the children are put on the stack with the same keys, only the depths are forgotten
    have stacked : ((f.children key).map (depth + 1, ·) ++ pending).map (·.2) = f.children key
        ++ pending.map (·.2) := by
      rw [List.map_append, List.map_map]
      exact congrArg (· ++ _) (List.map_id' _)
    rw [stacked] at ih
    rw [List.map_cons, traverse_cons, cell]
    exact (ih (result ++ [key])).trans (by rw [← List.append_cons])

/-- Erasing several cells leaves the others as they are. -/
theorem getElem?_foldl_erase (gone : List Nat) (key : Nat) : ∀ cells : Std.HashMap Nat Cell,
    (gone.foldl (fun cells key => cells.erase key) cells)[key]?
      = if key ∈ gone then none else cells[key]? := by
  induction gone with
  | nil => exact fun _ => (if_neg List.not_mem_nil).symm
  | cons first gone ih =>
    intro cells
    rw [List.foldl_cons, ih, Std.HashMap.getElem?_erase]
    by_cases now : first = key
    · simp [now]
    · simp [now, Ne.symm now]

theorem contains_erase (gone : List Nat) (key : Nat) :
    (a.erase gone).contains key = (a.contains key && !gone.contains key) := by
  rw [Arena.contains, Std.HashMap.contains_eq_isSome_getElem?, Arena.erase, getElem?_foldl_erase,
    Arena.contains, Std.HashMap.contains_eq_isSome_getElem?]
  by_cases mem : key ∈ gone <;> simp [mem]

/-- The cells of the nodes that stay are as they were when the node had been detached. -/
theorem Draws.erase (orderly : f.Orderly) (live : f.isLive key)
    (draws : a.Draws (f.detach key) order) :
    (a.erase ((f.detach key).subtree key)).Draws (f.remove key).2 order := by
  have mem := mem_subtree_detach orderly.linked key
  have without := without_remove orderly.linked live
  have removed := remove_of_live live
  generalize (f.detach key).subtree key = gone at mem without removed
  refine ⟨fun other => ?_, ?_, ?_⟩
  · rw [Arena.erase, getElem?_foldl_erase, draws.cells]
    by_cases taken : other ∈ gone
    · have dead : ¬ (f.remove key).2.isLive other :=
        fun stays => (without.isLive_iff.1 stays).2 taken
      rw [if_pos taken, get?_eq_none_iff.2 dead, Option.map_none]
    · rw [if_neg taken, without.get? taken]
      show (f.get? other).map _ = _
      cases there : f.get? other with
      | none => rfl
      | some node =>
        have live' : f.isLive other := isLive_of_get? there
        have different : other ≠ key := by
          rintro rfl
          exact taken ((mem other).2 ⟨live, .refl⟩)
        obtain ⟨parent, children⟩ := links_remove orderly (without.isLive_iff.2 ⟨live', taken⟩)
        rw [Option.map_some, Option.map_some, parent, children,
          parent?_detach_of_ne different, children_detach]
  · rw [removed]
    exact draws.nextKey
  · -- the cell of the root is gone just if its node is
    have alive (root : Nat) : (a.erase gone).contains root = (f.remove key).2.isLive root := by
      rw [contains_erase, draws.contains, Bool.eq_iff_iff, without.isLive_iff]
      simp [ReservationForest.isLive, ReservationForest.detach]
    have root : (f.remove key).2.root = f.root.filter (f.remove key).2.isLive := by
      rw [removed]
      rfl
    have kept : a.root = f.root := draws.root
    show (if a.root.any (!(a.erase gone).contains ·) then none else a.root) = _
    rw [root, kept]
    simp only [alive]
    cases f.root with
    | none => rfl
    | some root => cases stays : (f.remove key).2.isLive root <;> simp [stays, Option.filter]

/-- A deletion comes to an end, whatever cycles there are. -/
theorem Draws.remove (draws : a.Draws f order) (orderly : f.Orderly) (key : Nat) :
    ∃ b, a.remove key = .some ((f.remove key).1, b) ∧ b.Draws (f.remove key).2 order
      ∧ b.journal = a.journal := by
  unfold Arena.remove
  rw [draws.contains]
  split
  · rename_i live
    obtain ⟨detached, same⟩ := draws.detach orderly.linked key
    have found : (a.detach key).subtree key = .some ((f.detach key).subtree key) :=
      detached.traverse_of_walk (walk_subtree_detach orderly.linked key) []
    simp only [found, Part.map_some]
    exact ⟨_, by rw [remove_of_live live], detached.erase orderly live, same⟩
  · rename_i dead
    rw [ReservationForest.remove, if_neg dead]
    exact ⟨a, rfl, draws, rfl⟩

/-! ## Truncations -/

/-- Removing a young node means the same in both. That a child is older is read off its cell in the
arena and off the savepoint in the forest. -/
theorem Draws.removeYoung (draws : a.Draws f order) (orderly : f.Orderly) {mark : Nat}
    {old : List Nat} (places : ∀ key, f.isLive key → (order.idxOf key < mark ↔ key ∈ old))
    (key : Nat) :
    ∃ b, a.removeYoung mark key = .some ((f.removeYoung old key).1, b)
      ∧ b.Draws (f.removeYoung old key).2 order
      ∧ b.journal = a.journal := by
  rw [Arena.removeYoung, draws.cells]
  cases there : f.get? key with
  | none =>
    have nothing : f.removeYoung old key = (0, f) := if_neg (get?_eq_none_iff.1 there)
    rw [nothing]
    exact ⟨a, rfl, draws, rfl⟩
  | some node =>
    -- reading the places of the cells selects the children that are in the older part of the
    -- journal
    have older : (f.children key).filter (fun child => a.cells[child]?.any (·.created < mark))
        = (f.children key).filter (old.contains ·) := by
      refine List.filter_congr fun child below => ?_
      have live : f.isLive child := (orderly.linked.live _ (mem_children.1 below)).2
      obtain ⟨found, there⟩ := exists_get? live
      rw [draws.cells, there, Option.map_some, Option.any_some, Bool.eq_iff_iff, decide_eq_true_iff,
        places child live, List.contains_iff_mem]
    obtain ⟨rescued, same⟩ :=
      draws.foldl_detach ((f.children key).filter (old.contains ·)) orderly.linked
    obtain ⟨b, removed, left, same'⟩ := rescued.remove (orderly_foldl_detach _ orderly) key
    rw [Option.map_some, removeYoung_eq orderly.linked, rescue]
    simp only [older]
    exact ⟨b, removed, left, same'.trans same⟩

/-- A sweep ends when the journal is no longer than the savepoint. -/
theorem sweep_of_short {mark : Nat} (removed : Nat) (short : ¬ mark < a.journal.length) :
    a.sweep mark removed = .some (removed, a) := by
  have stop : pop mark (removed, a) = .some (.inl (removed, a)) := if_neg short
  exact Part.eq_some_iff.2 (PFun.fix_stop (Part.eq_some_iff.1 stop))

/-- Otherwise it takes the youngest key and goes on with what is left. -/
theorem sweep_of_cons {mark removed count : Nat} {journal : List Nat}
    (long : mark < a.journal.length) (first : a.journal = key :: journal)
    (turn : { a with journal := journal }.removeYoung mark key = .some (count, b)) :
    a.sweep mark removed = b.sweep mark (removed + count) := by
  have next : pop mark (removed, a) = .some (.inr (removed + count, b)) := by
    rw [pop, if_pos long, first]
    simp only [turn, Part.map_some]
  exact PFun.fix_fwd_eq (Part.eq_some_iff.1 next)

/-- By induction on the young keys, which are in front of the old ones in the journal. -/
theorem Draws.sweep {old : List Nat} {mark : Nat} (length : old.length = mark) (keys : List Nat) :
    ∀ {a : Arena} {f : ReservationForest} (removed : Nat), a.Draws f order → f.Orderly →
      (∀ key, f.isLive key → (order.idxOf key < mark ↔ key ∈ old)) → a.journal = keys ++ old →
      ∃ b, a.sweep mark removed = .some (removed + (f.removeAllYoung old keys).1, b)
        ∧ b.Draws (f.removeAllYoung old keys).2 order ∧ b.journal = old := by
  induction keys with
  | nil =>
    intro a f removed draws orderly places journal
    have short : ¬ mark < a.journal.length := by
      rw [journal, List.nil_append, length]
      exact Nat.lt_irrefl _
    exact ⟨a, sweep_of_short removed short, draws, journal⟩
  | cons key keys ih =>
    intro a f removed draws orderly places journal
    have long : mark < a.journal.length := by
      rw [journal, List.length_append, length, List.length_cons]
      omega
    -- the youngest key is taken off the journal before its node is removed
    have popped : Draws { a with journal := keys ++ old } f order :=
      ⟨draws.cells, draws.nextKey, draws.root⟩
    obtain ⟨b, turn, left, same⟩ := popped.removeYoung orderly places key
    obtain ⟨gone, -, -, -, without⟩ := removeYoung_takes orderly old key
    obtain ⟨c, swept, rest⟩ :=
      ih (removed + (f.removeYoung old key).1) left (without.orderly orderly)
        (fun key live => places key (without.isLive_iff.1 live).1) same
    refine ⟨c, ?_, rest⟩
    rw [sweep_of_cons long journal turn, swept, Nat.add_assoc]
    rfl

/-- Only the places of live keys matter. -/
theorem Draws.reorder {order' : List Nat} (draws : a.Draws f order)
    (same : ∀ key, f.isLive key → order.idxOf key = order'.idxOf key) : a.Draws f order' where
  cells key := by
    rw [draws.cells]
    cases there : f.get? key with
    | none => rfl
    | some node => rw [Option.map_some, Option.map_some, same key (isLive_of_get? there)]
  nextKey := draws.nextKey
  root := draws.root

/-- The keys from before a mark are those that come first in the order of creation. -/
theorem idxOf_lt_iff_older {mark : Nat} (known : key ∈ f.journal) :
    f.journal.reverse.idxOf key < mark ↔ f.Older mark key := by
  rw [← List.mem_take_iff_idxOf_lt (List.mem_reverse.2 known), List.take_reverse, List.mem_reverse]
  rfl

theorem Shows.truncate (shown : a.Shows f) (orderly : f.Orderly) (mark : Nat) :
    ∃ b, a.truncate mark = .some ((f.truncate mark).1, b) ∧ b.Shows (f.truncate mark).2 := by
  by_cases inside : mark < f.journal.length
  · have length : (f.journal.drop (f.journal.length - mark)).length = mark := by
      rw [List.length_drop]
      omega
    have journal : a.journal = f.journal.take (f.journal.length - mark)
        ++ f.journal.drop (f.journal.length - mark) := by
      rw [List.take_append_drop, shown.journal]
    obtain ⟨b, swept, draws, left⟩ := shown.toDraws.sweep length _ 0 orderly
      (fun key live => idxOf_lt_iff_older (orderly.recorded key live)) journal
    refine ⟨b, by rw [Arena.truncate, swept, Nat.zero_add]; rfl, ?_, left⟩
    -- the nodes that are left keep their places when the journal is cut
    have order : f.journal.reverse = (f.journal.drop (f.journal.length - mark)).reverse
        ++ (f.journal.take (f.journal.length - mark)).reverse := by
      rw [← List.reverse_append, List.take_append_drop]
    have draws' : b.Draws (f.truncate mark).2 f.journal.reverse :=
      ⟨draws.cells, draws.nextKey, draws.root⟩
    refine draws'.reorder fun key live => ?_
    have old : key ∈ (f.journal.drop (f.journal.length - mark)).reverse :=
      List.mem_reverse.2 ((orderly.truncate mark).recorded key live)
    rw [order, List.idxOf_append_of_mem old]
    rfl
  · have none_young : f.journal.length - mark = 0 := by omega
    have nothing : f.truncate mark = (0, f) := by
      rw [ReservationForest.truncate, none_young]
      rfl
    rw [nothing]
    exact ⟨a, sweep_of_short 0 (shown.journal ▸ inside), shown⟩

/-! ## Runs -/

open Operation (outcome reached)

/-- What an operation makes of an arena is what it makes of the forest. -/
theorem Shows.perform (shown : a.Shows f) (orderly : f.Orderly) (op : Operation) :
    ∃ b, a.perform op = .some b ∧ b.Shows (outcome f op) := by
  cases op with
  | insert node => exact ⟨_, rfl, shown.insert orderly node⟩
  | attach parent child =>
    unfold outcome
    show ∃ b, Part.some (a.attach parent child).2 = .some b
      ∧ b.Shows ((f.attach parent child).toOption.getD f)
    -- a refused attachment changes neither of them
    cases done : f.attach parent child with
    | error fault =>
      rw [shown.attach_error orderly.linked done]
      exact ⟨a, rfl, shown⟩
    | ok g =>
      obtain ⟨-, draws, journal⟩ := shown.toDraws.attach orderly.linked done
      obtain ⟨-, -, -, -, rfl⟩ := attach_eq_ok_iff.1 done
      exact ⟨_, rfl, draws, journal.trans shown.journal⟩
  | setRoot key => exact ⟨_, rfl, ⟨shown.cells, shown.nextKey, rfl⟩, shown.journal⟩
  | remove key =>
    obtain ⟨b, removed, draws, journal⟩ := shown.toDraws.remove orderly key
    have same : (f.remove key).2.journal = f.journal := (shrinks_remove f key).journal
    rw [← same] at draws
    exact ⟨b, by rw [Arena.perform, removed, Part.map_some], draws,
      (journal.trans shown.journal).trans same.symm⟩
  | truncate mark =>
    obtain ⟨b, swept, shown'⟩ := shown.truncate orderly mark
    exact ⟨b, by rw [Arena.perform, swept, Part.map_some], shown'⟩

theorem exists_after (ops : List Operation) : ∃ a, after ops = .some a ∧ a.Shows (reached ops) := by
  have all (ops : List Operation) : ∀ {a : Arena} {f : ReservationForest}, a.Shows f → f.Orderly →
      ∃ b, ops.foldlM perform a = .some b ∧ b.Shows (ops.foldl outcome f) := by
    induction ops with
    | nil => exact fun shown _ => ⟨_, rfl, shown⟩
    | cons op ops ih =>
      intro a f shown orderly
      obtain ⟨b, first, shown'⟩ := shown.perform orderly op
      rw [List.foldlM_cons, first, Part.bind_eq_bind, Part.bind_some]
      exact ih shown' (Operation.orderly_outcome orderly op)
  exact all ops shows_empty .empty

end Arena

end Conference
