import Conference.Slot

/-!
# Timelines

A timeline holds items, each with the slot that it occupies. A query sweeps over an interval and
cuts it into *segments* at every start and end of an item that lies strictly inside, so that within
a segment the items with a slot of positive length stay the same. Items that occupy a point cut
nothing; they belong to the segment that covers their instant. The largest weight of a segment is
the peak of the query.

The sweep moves a cursor from event to event and knows the items that are open there by their
*places*, which count the items in order of insertion.
-/

namespace Conference

/-- An item and the slot that it occupies. -/
structure Timeline.Entry (α : Type) where
  item : α
  slot : Slot

/-- Items with their slots, in order of insertion. -/
structure Timeline (α : Type) where
  entries : List (Timeline.Entry α)

/-- A part of a query together with the items that overlap it, in order of insertion. -/
structure Segment (α : Type) where
  slot : Slot
  members : List α

/-- The start or the end of the item at a place. -/
structure Timeline.Event where
  time : Int
  opens : Bool
  place : Nat
deriving DecidableEq

namespace Segment

variable {α : Type}

def load (s : Segment α) (weight : α → Nat) : Nat :=
  s.members.foldr (fun m n => weight m + n) 0

end Segment

namespace Timeline

variable {α : Type}

def empty : Timeline α := ⟨[]⟩

/-- Adds an item that occupies `[start, stop)`. With its bounds the wrong way round it is left
out. -/
def add (t : Timeline α) (item : α) (start stop : Int) : Timeline α :=
  match Slot.ofBounds? start stop with
  | some slot => ⟨t.entries ++ [⟨item, slot⟩]⟩
  | none => t

def size (t : Timeline α) : Nat := t.entries.length

def without (t : Timeline α) (p : α → Bool) : Timeline α :=
  ⟨t.entries.filter (fun e => !p e.item)⟩

/-- The items that overlap a slot, in order of insertion. -/
def overlapping (t : Timeline α) (slot : Slot) : List α :=
  (t.entries.filter (fun e => e.slot.overlaps slot)).map (·.item)

/-! ## The sweep over a query -/

/-- Puts an element in front of the first one that it may precede. -/
def insertBy {β : Type} (le : β → β → Bool) (b : β) : List β → List β
  | [] => [b]
  | c :: cs => if le b c then b :: c :: cs else c :: insertBy le b cs

def sortBy {β : Type} (le : β → β → Bool) (bs : List β) : List β := bs.foldr (insertBy le) []

/-- Events go by time. At one instant items close before others open, so those that merely touch are
never open together. -/
def Event.le (a b : Event) : Bool :=
  if a.time = b.time then
    if a.opens = b.opens then decide (a.place ≤ b.place) else b.opens
  else decide (a.time < b.time)

/-- The open items after an event. -/
def Event.update (e : Event) (opened : List Nat) : List Nat :=
  if e.opens then opened.insert e.place else opened.erase e.place

/-- The places of the items whose slots satisfy a test. -/
def places (t : Timeline α) (p : Slot → Bool) : List Nat :=
  (t.entries.zipIdx.filter (fun e => p e.1.slot)).map (·.2)

/-- A slot of positive length that overlaps a query. -/
def crosses (query slot : Slot) : Bool := slot.overlaps query && !slot.isPoint

/-- The items that are open from the start of a query on; all that cross it if it is a point. -/
def openedAtStart (t : Timeline α) (query : Slot) : List Nat :=
  t.places fun slot => crosses query slot && (query.isPoint || decide (slot.start ≤ query.start))

/-- The items within a query that occupy a point, with their instants. -/
def points (t : Timeline α) (query : Slot) : List (Int × Nat) :=
  (t.entries.zipIdx.filter (fun e => e.1.slot.overlaps query && e.1.slot.isPoint)).map
    (fun e => (e.1.slot.start, e.2))

/-- The events of one item strictly inside a query. -/
def eventsOf (query slot : Slot) (place : Nat) : List Event :=
  if crosses query slot then
    (if query.start < slot.start then [⟨slot.start, true, place⟩] else [])
      ++ (if slot.stop < query.stop then [⟨slot.stop, false, place⟩] else [])
  else []

def events (t : Timeline α) (query : Slot) : List Event :=
  sortBy Event.le (t.entries.zipIdx.flatMap (fun e => eventsOf query e.1.slot e.2))

/-- The items of a part of a query, in order of insertion: those that are open, and the points in
it. -/
def collect (t : Timeline α) (points : List (Int × Nat)) (opened : List Nat) (slot : Slot) :
    List α :=
  let inside := points.filter fun p =>
    decide (slot.start ≤ p.1) && (decide (p.1 < slot.stop) || slot.isPoint)
  (sortBy (fun m n => decide (m ≤ n)) (opened ++ inside.map (·.2))).filterMap fun place =>
    t.entries[place]?.map (·.item)

/-- The part of a query from the cursor to the next event. -/
def segment (t : Timeline α) (points : List (Int × Nat)) (opened : List Nat) (cursor next : Int) :
    Segment α :=
  let slot := Slot.span cursor next
  ⟨slot, t.collect points opened slot⟩

/-- The segments from the cursor on. Events at the cursor are taken into account before it moves. -/
def sweep (t : Timeline α) (points : List (Int × Nat)) (stop : Int) :
    (cursor : Int) → (opened : List Nat) → List Event → List (Segment α)
  | cursor, opened, [] => if cursor < stop then [t.segment points opened cursor stop] else []
  | cursor, opened, e :: es =>
    if e.time = cursor then sweep t points stop cursor (e.update opened) es
    else t.segment points opened cursor e.time :: sweep t points stop e.time (e.update opened) es

/-- The segments of `[start, stop)`, from left to right. When `stop` is not after `start` there is
one segment, the point at `start`. -/
def segments (t : Timeline α) (start stop : Int) : List (Segment α) :=
  let query := Slot.span start stop
  if query.isPoint then [⟨query, t.collect (t.points query) (t.openedAtStart query) query⟩]
  else t.sweep (t.points query) query.stop query.start (t.openedAtStart query) (t.events query)

/-- The largest of some numbers, zero if there are none. -/
def largest (ns : List Nat) : Nat :=
  ns.foldr (fun n m => if n ≤ m then m else n) 0

/-- The largest summed weight of the items of a segment of `[start, stop)`. -/
def peak (t : Timeline α) (start stop : Int) (weight : α → Nat) : Nat :=
  largest ((t.segments start stop).map (·.load weight))

/-! ## Sizes, orders and maxima -/

theorem insertBy_perm {β : Type} (le : β → β → Bool) (b : β) (bs : List β) :
    (insertBy le b bs).Perm (b :: bs) := by
  induction bs with
  | nil => exact .refl _
  | cons c cs ih =>
    rw [insertBy]
    split
    · exact .refl _
    · exact (ih.cons c).trans (.swap b c cs)

/-- Sorting changes the order and nothing else. -/
theorem sortBy_perm {β : Type} (le : β → β → Bool) (bs : List β) : (sortBy le bs).Perm bs := by
  induction bs with
  | nil => exact .refl _
  | cons b bs ih => exact (insertBy_perm le b (sortBy le bs)).trans (ih.cons b)

section Sorted

variable {β : Type} {le : β → β → Bool} {r : β → β → Prop}

theorem pairwise_insertBy (trans : ∀ a b c, r a b → r b c → r a c) (yes : ∀ a b, le a b → r a b)
    (no : ∀ a b, ¬ le a b → r b a) (b : β) {bs : List β} (h : bs.Pairwise r) :
    (insertBy le b bs).Pairwise r := by
  induction bs with
  | nil => exact List.pairwise_singleton r b
  | cons c cs ih =>
    rw [List.pairwise_cons] at h
    rw [insertBy]
    split
    · -- in front of all the others, or behind the first one
      rename_i first
      have hbc : r b c := yes b c first
      rw [List.pairwise_cons, List.pairwise_cons]
      refine ⟨?_, h⟩
      intro d hd
      rcases List.mem_cons.1 hd with rfl | later
      · exact hbc
      · exact trans b c d hbc (h.1 d later)
    · rename_i second
      rw [List.pairwise_cons]
      refine ⟨?_, ih h.2⟩
      intro d hd
      rcases List.mem_cons.1 ((insertBy_perm le b cs).mem_iff.1 hd) with rfl | later
      · exact no _ _ second
      · exact h.1 d later

/-- The result is in any order that the comparison decides. -/
theorem pairwise_sortBy (trans : ∀ a b c, r a b → r b c → r a c) (yes : ∀ a b, le a b → r a b)
    (no : ∀ a b, ¬ le a b → r b a) (bs : List β) : (sortBy le bs).Pairwise r := by
  induction bs with
  | nil => exact List.Pairwise.nil
  | cons b bs ih => exact pairwise_insertBy trans yes no b ih

end Sorted

theorem le_largest {n : Nat} {ns : List Nat} (h : n ∈ ns) : n ≤ largest ns := by
  induction ns with
  | nil => cases h
  | cons m ms ih =>
    rw [largest, List.foldr_cons, ← largest]
    rcases List.mem_cons.1 h with rfl | h
    · split <;> omega
    · have := ih h
      split <;> omega

end Timeline

end Conference
