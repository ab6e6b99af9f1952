import Conference.Reservation
import Conference.Fault

/-!
# Reservation forests

The nodes made during an allocation, linked into trees. A node is known by its key, and no key is
ever given out twice. The keys are also written into a journal as nodes come into being; a position
in the journal is a *mark*, and `truncate` deletes the nodes made after a mark, youngest first. A
deleted node takes its subtree with it, and its key stays in the journal, so that marks keep their
meaning.
-/

namespace Conference

structure ReservationForest.Entry where
  key : Nat
  node : Reservation
deriving DecidableEq

structure ReservationForest where
  entries : List ReservationForest.Entry
  /-- The links from parent to child, in the order in which they were made. -/
  links : List (Nat × Nat)
  /-- The keys given out, youngest first. -/
  journal : List Nat
  nextKey : Nat
  /-- The node that a finished tree starts from. -/
  root : Option Nat
deriving DecidableEq

namespace ReservationForest

def empty : ReservationForest := ⟨[], [], [], 0, none⟩

def size (f : ReservationForest) : Nat := f.entries.length

def get? (f : ReservationForest) (key : Nat) : Option Reservation :=
  (f.entries.find? (·.key == key)).map (·.node)

/-- The key belongs to a node that has not been deleted. -/
def isLive (f : ReservationForest) (key : Nat) : Bool := f.entries.any (·.key == key)

def parent? (f : ReservationForest) (key : Nat) : Option Nat :=
  (f.links.find? (·.2 == key)).map (·.1)

def children (f : ReservationForest) (key : Nat) : List Nat :=
  (f.links.filter (·.1 == key)).map (·.2)

/-- Adds a node without links. Its key is the next one. -/
def insert (f : ReservationForest) (node : Reservation) : ReservationForest :=
  { f with
    entries := f.entries ++ [⟨f.nextKey, node⟩]
    journal := f.nextKey :: f.journal
    nextKey := f.nextKey + 1 }

/-- Makes one node the last child of another. Both have to be live and different, and the child must
have no parent yet. -/
def attach (f : ReservationForest) (parent child : Nat) : Except Fault ReservationForest :=
  if !f.isLive parent || !f.isLive child then .error .unknownReservation
  else if parent = child then .error .reservationCycle
  else if (f.parent? child).isSome then .error .reservationAlreadyAttached
  else .ok { f with links := f.links ++ [(parent, child)] }

def setRoot (f : ReservationForest) (key : Nat) : ReservationForest := { f with root := some key }

/-- The number of keys given out, as far as they have not been taken back. -/
def mark (f : ReservationForest) : Nat := f.journal.length

/-- A node and its descendants in pre-order, over at most `levels` levels. -/
def subtreeWithin (f : ReservationForest) : (levels key : Nat) → List Nat
  | 0, _ => []
  | levels + 1, key =>
    if f.isLive key then key :: (f.children key).flatMap (subtreeWithin f levels) else []

def subtree (f : ReservationForest) (key : Nat) : List Nat := f.subtreeWithin f.size key

def detach (f : ReservationForest) (key : Nat) : ReservationForest :=
  { f with links := f.links.filter (fun l => !(l.2 == key)) }

/-- Deletes the nodes with the given keys, and the links at them. -/
def discard (f : ReservationForest) (keys : List Nat) : ReservationForest :=
  let entries := f.entries.filter (fun e => !keys.contains e.key)
  { f with
    entries := entries
    links := f.links.filter (fun l => !keys.contains l.1 && !keys.contains l.2)
    root := f.root.filter (fun key => entries.any (·.key == key)) }

/-- Deletes a node together with its subtree; the number of deleted nodes comes with the result. -/
def remove (f : ReservationForest) (key : Nat) : Nat × ReservationForest :=
  if f.isLive key then
    let detached := f.detach key
    let keys := detached.subtree key
    (keys.length, detached.discard keys)
  else (0, f)

/-- Deletes a young node. Its children among the old nodes are taken away from it first. -/
def removeYoung (old : List Nat) (f : ReservationForest) (key : Nat) : Nat × ReservationForest :=
  if f.isLive key then
    (((f.children key).filter (old.contains ·)).foldl detach f).remove key
  else (0, f)

/-- Deletes several young nodes one after the other, counting the nodes that go. -/
def removeAllYoung (old : List Nat) (f : ReservationForest) : List Nat → Nat × ReservationForest
  | [] => (0, f)
  | key :: keys =>
    let one := f.removeYoung old key
    let others := removeAllYoung old one.2 keys
    (one.1 + others.1, others.2)

/-- Deletes the nodes made after a mark, youngest first, and takes the journal back to the mark. The
number of deleted nodes comes with the result. -/
def truncate (f : ReservationForest) (mark : Nat) : Nat × ReservationForest :=
  let young := f.journal.take (f.journal.length - mark)
  let old := f.journal.drop (f.journal.length - mark)
  let result := f.removeAllYoung old young
  (result.1, { result.2 with journal := old })

/-- The nodes of the tree that starts from the root, in pre-order, with their keys. -/
def nodes (f : ReservationForest) : List (Nat × Reservation) :=
  match f.root with
  | none => []
  | some root => (f.subtree root).filterMap (fun key => (f.get? key).map (key, ·))

/-- The nodes of the tree whose kinds satisfy `p`, in pre-order. -/
def find (f : ReservationForest) (p : ReservationKind → Bool) : List Reservation :=
  (f.nodes.map (·.2)).filter (p ·.kind)

/-- The first pair of a node and a child that lies outside the slot of the node, by the creation of
the node and then by the order of its children. -/
def violation? (f : ReservationForest) : Option (Nat × Nat) :=
  f.entries.findSome? fun e =>
    ((f.children e.key).find? fun child =>
      match f.get? child with
      | some node => !e.node.slot.contains node.slot
      | none => false).map (e.key, ·)

/-- The lines that describe a node and its subtree, indented by depth, over at most `levels`
levels. -/
def linesWithin (f : ReservationForest) : (levels depth key : Nat) → List String
  | 0, _, _ => []
  | levels + 1, depth, key =>
    match f.get? key with
    | none => []
    | some node =>
      (String.ofList (List.replicate (2 * depth) ' ') ++ node.render)
        :: (f.children key).flatMap (linesWithin f levels (depth + 1))

def render (f : ReservationForest) : String :=
  match f.root with
  | none => ""
  | some root => "\n".intercalate (f.linesWithin f.size 0 root)

/-! ## What the operations do to nodes and links -/

@[simp]
theorem size_insert (f : ReservationForest) (node : Reservation) :
    (f.insert node).size = f.size + 1 := by
  rw [size, insert, List.length_append, size]
  rfl

@[simp]
theorem mark_insert (f : ReservationForest) (node : Reservation) :
    (f.insert node).mark = f.mark + 1 := rfl

/-- Adding a node brings one key to life. -/
theorem isLive_insert (f : ReservationForest) (node : Reservation) (key : Nat) :
    (f.insert node).isLive key = (f.isLive key || f.nextKey == key) := by
  rw [isLive, insert, List.any_append, isLive]
  simp

@[simp]
theorem children_insert (f : ReservationForest) (node : Reservation) (key : Nat) :
    (f.insert node).children key = f.children key := rfl

/-- Attaching adds the child behind the other children of its parent. -/
theorem children_attach {f g : ReservationForest} {parent child : Nat}
    (h : f.attach parent child = .ok g) (key : Nat) :
    g.children key = f.children key ++ if parent = key then [child] else [] := by
  unfold attach at h
  split at h
  · cases h
  · split at h
    · cases h
    · split at h
      · cases h
      · cases h
        rw [children, List.filter_append, List.map_append, children]
        congr 1
        by_cases e : parent = key <;> simp [e]

/-- A child stays detached from all but its new parent. -/
theorem parent?_attach {f g : ReservationForest} {parent child : Nat}
    (h : f.attach parent child = .ok g) : g.parent? child = some parent := by
  unfold attach at h
  split at h
  · cases h
  · split at h
    · cases h
    · split at h
      · cases h
      · rename_i free
        cases h
        -- no link led to the child before
        have before : f.links.find? (·.2 == child) = none := by
          rw [parent?, Option.isSome_map] at free
          exact Option.not_isSome_iff_eq_none.1 free
        rw [parent?, List.find?_append, before]
        simp

@[simp]
theorem parent?_detach (f : ReservationForest) (key : Nat) : (f.detach key).parent? key = none := by
  rw [parent?, detach, Option.map_eq_none_iff, List.find?_eq_none]
  intro l hl
  simpa using (List.mem_filter.1 hl).2

end ReservationForest

end Conference
