/-!
# Slots

A slot is a half-open interval `[start, stop)` of the time line. Instants are whole seconds since
the epoch, negative before it. A slot whose two ends agree is a *point*: it lies in every slot whose
bounds enclose its instant and overlaps every slot that covers it.
-/

namespace Conference

/-- The half-open interval from `start` up to, but not including, `stop`. -/
structure Slot where
  start : Int
  stop : Int
  ordered : start ≤ stop
deriving DecidableEq

namespace Slot

/-- Slots with the same bounds are the same. -/
@[ext]
theorem ext {a b : Slot} (hs : a.start = b.start) (ht : a.stop = b.stop) : a = b := by
  cases a; cases b; cases hs; cases ht; rfl

/-- The slot between two bounds, if the first is not after the second. -/
def ofBounds? (start stop : Int) : Option Slot :=
  if h : start ≤ stop then some ⟨start, stop, h⟩ else none

def point (t : Int) : Slot := ⟨t, t, Int.le_refl t⟩

/-- The slot from `start` to `stop`, or the point at `start` when `stop` comes earlier. -/
def span (start stop : Int) : Slot :=
  if h : start ≤ stop then ⟨start, stop, h⟩ else point start

def isPoint (s : Slot) : Bool := s.start == s.stop

def duration (s : Slot) : Int := s.stop - s.start

/-- The instants of the half-open interval; a point has none. -/
def containsInstant (s : Slot) (t : Int) : Bool :=
  decide (s.start ≤ t) && decide (t < s.stop)

/-- The instants a slot stands for: those of its half-open interval, or the single one of a
point. -/
def Covers (s : Slot) (t : Int) : Prop :=
  s.containsInstant t ∨ (s.isPoint ∧ t = s.start)

instance (s : Slot) (t : Int) : Decidable (s.Covers t) :=
  inferInstanceAs (Decidable (_ ∨ _))

/-- `other` lies inside `s`. A point at the very end of `s` counts as inside. -/
def contains (s other : Slot) : Bool :=
  if other.isPoint then decide (s.start ≤ other.start) && decide (other.start ≤ s.stop)
  else decide (s.start ≤ other.start) && decide (other.stop ≤ s.stop)

/-- Both slots cover a common instant. Slots that merely touch do not overlap. -/
def overlaps (s other : Slot) : Bool :=
  match s.isPoint, other.isPoint with
  | true, true => s.start == other.start
  | true, false => other.containsInstant s.start
  | false, true => s.containsInstant other.start
  | false, false => decide (s.start < other.stop) && decide (other.start < s.stop)

/-- The common part of two overlapping slots. -/
def intersect? (s other : Slot) : Option Slot :=
  if s.overlaps other then
    let start := if s.start ≤ other.start then other.start else s.start
    let stop := if s.stop ≤ other.stop then s.stop else other.stop
    some (span start stop)
  else none

/-- The order of slots by start and then by end. -/
def compare (s other : Slot) : Ordering :=
  if s.start < other.start then .lt
  else if other.start < s.start then .gt
  else if s.stop < other.stop then .lt
  else if other.stop < s.stop then .gt
  else .eq

/-- A point starts where it stops. -/
theorem isPoint_iff (s : Slot) : s.isPoint ↔ s.start = s.stop := by
  simp [isPoint]

/-- The stop of a slot is not in it. -/
theorem containsInstant_iff (s : Slot) (t : Int) :
    s.containsInstant t ↔ s.start ≤ t ∧ t < s.stop := by
  simp [containsInstant]

/-- Bounds in their order make the slot between them. -/
theorem ofBounds?_eq_some {start stop : Int} {s : Slot} :
    ofBounds? start stop = some s ↔ s.start = start ∧ s.stop = stop := by
  unfold ofBounds?
  constructor
  · intro h
    split at h
    · cases h; exact ⟨rfl, rfl⟩
    · cases h
  · rintro ⟨rfl, rfl⟩
    simp [s.ordered]

/-- Bounds the other way round make none. -/
theorem ofBounds?_eq_none {start stop : Int} : ofBounds? start stop = none ↔ stop < start := by
  unfold ofBounds?
  split <;> simp <;> omega

/-- A span starts at its first bound. -/
@[simp]
theorem span_start (start stop : Int) : (span start stop).start = start := by
  unfold span; split <;> rfl

/-- It stops at the second one, unless that comes before the first. -/
theorem span_stop (start stop : Int) :
    (span start stop).stop = if start ≤ stop then stop else start := by
  unfold span point; split <;> rfl

/-- With bounds in strict order the second one is the stop. -/
theorem span_stop_of_lt {start stop : Int} (h : start < stop) : (span start stop).stop = stop := by
  rw [span_stop, if_pos (Int.le_of_lt h)]

/-- Bounds that leave no length give the point at the first of them. -/
theorem span_of_le {start stop : Int} (h : stop ≤ start) : span start stop = point start := by
  unfold span
  split
  · obtain rfl : start = stop := by omega
    rfl
  · rfl

/-- The span of a slot's own bounds is the slot. -/
theorem span_bounds (s : Slot) : span s.start s.stop = s := by
  simp [span, s.ordered]

end Slot

end Conference
