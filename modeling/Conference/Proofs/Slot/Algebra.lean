import Conference.Proofs.Slot.Coverage
import Mathlib.Order.Defs.Unbundled

/-!
# The algebra of slots

Overlap, common part and containment are decided on the bounds of two slots, and each of them treats
points in a way of its own. Still they have one meaning: two slots overlap just if some instant is
covered by both, and what they have in common covers just these instants. It is the greatest slot
inside both. Its bounds are the later start and the earlier end, so the order in which several slots
are intersected does not matter.

Containment is a partial order. It goes by closed bounds, so that a point at the very end of a slot
lies inside, although the slot does not cover it. For slots that are no points, to be inside is to
cover no other instants.

Bounds are compared and never added up. Hence what holds of slots with any whole numbers as bounds
holds within any range of numbers: the common part is inside both slots and does not leave the
range.
-/

namespace Conference.Slot

variable {a b c p : Slot}

/-! ## Containment as an order -/

theorem contains_refl (a : Slot) : a.contains a := by
  rw [contains_iff_bounds]
  omega

theorem contains_trans (outer : a.contains b) (inner : b.contains c) : a.contains c := by
  rw [contains_iff_bounds] at *
  omega

theorem contains_antisymm (first : a.contains b) (second : b.contains a) : a = b := by
  rw [contains_iff_bounds] at *
  apply ext <;> omega

theorem isPartialOrder_contains : IsPartialOrder Slot fun inner outer => outer.contains inner where
  refl := contains_refl
  trans _ _ _ inner outer := contains_trans outer inner
  antisymm _ _ first second := contains_antisymm second first

/-- A slot that is no point is inside another one just if that is no point either and covers all of
its instants. The other one has to be longer than a point, as the second after an instant covers no
more than the point at it. -/
theorem contains_iff_covers (long : ¬ b.isPoint) :
    a.contains b ↔ ¬ a.isPoint ∧ ∀ t, b.Covers t → a.Covers t := by
  have ha := a.ordered
  have hb := b.ordered
  rw [isPoint_iff] at long
  rw [contains_iff_bounds, isPoint_iff]
  constructor
  · rintro ⟨starts, stops⟩
    refine ⟨by omega, fun t covered => ?_⟩
    rw [covers_iff] at covered ⊢
    omega
  · rintro ⟨long', covered⟩
    -- the first and the last instant of the inner slot bound it
    have first := covered b.start b.covers_start
    have last := covered (b.stop - 1) (covers_iff.2 ⟨by omega, .inl (by omega)⟩)
    rw [covers_iff] at first last
    omega

/-! ## Common parts -/

/-- Slots that overlap have the later start and the earlier end for the bounds of their common part.
These are in order, so that the end is never put off to the start. -/
theorem intersect?_eq_some_iff :
    a.intersect? b = some p ↔ a.overlaps b ∧ p.start = max a.start b.start
      ∧ p.stop = min a.stop b.stop := by
  have ha := a.ordered
  have hb := b.ordered
  have proper {q : Slot} (h : a.intersect? b = some q) :
      a.overlaps b ∧ q.start = max a.start b.start ∧ q.stop = min a.stop b.stop := by
    obtain ⟨meet, start, stop⟩ := bounds_of_intersect? h
    have bounds := overlaps_iff_bounds.1 meet
    exact ⟨meet, start, by omega⟩
  constructor
  · exact proper
  · rintro ⟨meet, start, stop⟩
    -- overlapping slots have an intersection, and its bounds are determined
    obtain ⟨q, found⟩ := Option.isSome_iff_exists.1 (intersect?_isSome.2 meet)
    obtain ⟨-, start', stop'⟩ := proper found
    rw [found, ext (start'.trans start.symm) (stop'.trans stop.symm)]

theorem intersect?_eq_none_iff : a.intersect? b = none ↔ ¬ ∃ t, a.Covers t ∧ b.Covers t := by
  rw [← Option.not_isSome_iff_eq_none, intersect?_isSome, overlaps_iff_covers]

theorem intersect?_comm (a b : Slot) : a.intersect? b = b.intersect? a := by
  ext p
  rw [intersect?_eq_some_iff, intersect?_eq_some_iff, overlaps_comm, Int.max_comm, Int.min_comm]

/-- Three slots have a part in common just if all of them cover some instant. -/
theorem bind_intersect?_eq_some_iff :
    (a.intersect? b).bind (·.intersect? c) = some p ↔
      (∃ t, a.Covers t ∧ b.Covers t ∧ c.Covers t)
        ∧ p.start = max (max a.start b.start) c.start
        ∧ p.stop = min (min a.stop b.stop) c.stop := by
  rw [Option.bind_eq_some_iff]
  constructor
  · rintro ⟨q, first, second⟩
    obtain ⟨-, start, stop⟩ := intersect?_eq_some_iff.1 first
    obtain ⟨meet, start', stop'⟩ := intersect?_eq_some_iff.1 second
    obtain ⟨t, both, third⟩ := overlaps_iff_covers.1 meet
    -- what the third slot shares with the intersection lies in all three
    rw [covers_intersect? first] at both
    rw [start] at start'
    rw [stop] at stop'
    exact ⟨⟨t, both.1, both.2, third⟩, start', stop'⟩
  · rintro ⟨⟨t, ha, hb, hc⟩, start, stop⟩
    obtain ⟨q, first⟩ := Option.isSome_iff_exists.1 (intersect?_isSome.2 (overlaps_of_covers ha hb))
    obtain ⟨-, start', stop'⟩ := intersect?_eq_some_iff.1 first
    have meet : q.overlaps c := overlaps_of_covers ((covers_intersect? first t).2 ⟨ha, hb⟩) hc
    refine ⟨q, first, intersect?_eq_some_iff.2 ⟨meet, ?_, ?_⟩⟩
    · rw [start', start]
    · rw [stop', stop]

theorem intersect?_assoc (a b c : Slot) :
    (a.intersect? b).bind (·.intersect? c) = (b.intersect? c).bind a.intersect? := by
  have turned : (b.intersect? c).bind a.intersect? = (b.intersect? c).bind (·.intersect? a) :=
    congrArg _ (funext fun q => intersect?_comm a q)
  have covered : (∃ t, a.Covers t ∧ b.Covers t ∧ c.Covers t) ↔ ∃ t, b.Covers t
      ∧ c.Covers t ∧ a.Covers t :=
    exists_congr fun t => by rw [and_comm, and_assoc]
  rw [turned]
  -- instants alone do not tell slots apart, since a point covers what the second after it covers,
  -- so bounds decide
  ext p
  rw [bind_intersect?_eq_some_iff, bind_intersect?_eq_some_iff, covered, Int.max_assoc,
    Int.max_comm a.start, Int.min_assoc, Int.min_comm a.stop]

/-- What a slot has to be as the common part of two others. -/
structure IsCommonPart (a b p : Slot) : Prop where
  covers : ∀ t, p.Covers t ↔ a.Covers t ∧ b.Covers t
  inside : a.contains p ∧ b.contains p
  greatest : ∀ q, a.contains q → b.contains q → p.contains q
  /-- The later start is not after the earlier end. -/
  bounds : p.start = max a.start b.start ∧ p.stop = min a.stop b.stop

theorem isCommonPart_of_intersect? (h : a.intersect? b = some p) : IsCommonPart a b p := by
  obtain ⟨-, start, stop⟩ := intersect?_eq_some_iff.1 h
  refine ⟨covers_intersect? h, ⟨?_, ?_⟩, fun q left right => ?_, start, stop⟩
  · rw [contains_iff_bounds]
    omega
  · rw [contains_iff_bounds]
    omega
  · rw [contains_iff_bounds] at *
    omega

/-- Two slots overlap just if both cover some instant. They have no common part if there is no such
instant, and else one that covers these instants and is inside both. It makes no difference in which
order slots are intersected or how they are grouped, where no part in common leaves none with any
slot. Containment is a partial order, and what is inside a slot and no point covers none but
instants of that slot. -/
theorem slots_stand_for_instants (a b c : Slot) :
    (a.overlaps b ↔ ∃ t, a.Covers t ∧ b.Covers t)
    ∧ (a.intersect? b = none ↔ ¬ ∃ t, a.Covers t ∧ b.Covers t)
    ∧ (∀ p, a.intersect? b = some p → IsCommonPart a b p)
    ∧ a.intersect? b = b.intersect? a
    ∧ (a.intersect? b).bind (·.intersect? c) = (b.intersect? c).bind a.intersect?
    ∧ (IsPartialOrder Slot fun inner outer => outer.contains inner)
    ∧ (¬ b.isPoint → (a.contains b ↔ ¬ a.isPoint ∧ ∀ t, b.Covers t → a.Covers t)) := by
  refine ⟨overlaps_iff_covers, intersect?_eq_none_iff, fun p found =>
    isCommonPart_of_intersect? found, intersect?_comm a b, intersect?_assoc a b c,
      isPartialOrder_contains, fun long => contains_iff_covers long⟩

/-- A point at the very end of a slot is inside, and has nothing in common with it. -/
example : let morning : Slot := ⟨8, 12, by decide⟩
    morning.contains (point 12) ∧ ¬ morning.overlaps (point 12)
      ∧ morning.intersect? (point 12) = none := by decide

end Conference.Slot
