import Conference.Slot

/-!
# Slots as sets of instants

A slot stands for the instants that it covers. Overlap and intersection, which are decided on the
bounds and treat points apart, mean what the instants say: two slots overlap iff some instant is
covered by both, and the common part of two slots covers exactly the instants covered by both.
-/

namespace Conference.Slot

/-- A point covers its instant, any other slot those of its half-open interval. -/
theorem covers_iff {s : Slot} {t : Int} :
    s.Covers t ↔ s.start ≤ t ∧ (t < s.stop ∨ s.start = s.stop ∧ t = s.start) := by
  unfold Covers
  rw [containsInstant_iff, isPoint_iff]
  omega

theorem covers_start (s : Slot) : s.Covers s.start := by
  have bounds := s.ordered
  rw [covers_iff]
  omega

/-- On bounds, overlap is four comparisons: each slot starts before the other one ends, or it is a
point at the very start of the other. -/
theorem overlaps_iff_bounds {a b : Slot} :
    a.overlaps b ↔
      (a.start < b.stop ∨ b.start = b.stop ∧ a.start = b.start) ∧
        (b.start < a.stop ∨ a.start = a.stop ∧ a.start = b.start) := by
  have ha := a.ordered
  have hb := b.ordered
  unfold overlaps
  cases pa : a.isPoint <;> cases pb : b.isPoint <;>
    simp only [Bool.and_eq_true, decide_eq_true_eq, beq_iff_eq, containsInstant_iff] <;>
    simp only [isPoint, beq_iff_eq, beq_eq_false_iff_ne, ne_eq] at pa pb <;> omega

/-- Two slots overlap iff they cover a common instant. -/
theorem overlaps_iff_covers {a b : Slot} : a.overlaps b ↔ ∃ t, a.Covers t ∧ b.Covers t := by
  have ha := a.ordered
  have hb := b.ordered
  rw [overlaps_iff_bounds]
  constructor
  · -- the later start of two slots that overlap is covered by both
    intro h
    refine ⟨max a.start b.start, ?_⟩
    rw [covers_iff, covers_iff]
    omega
  · rintro ⟨t, ta, tb⟩
    rw [covers_iff] at ta tb
    omega

theorem overlaps_of_covers {a b : Slot} {t : Int} (ha : a.Covers t) (hb : b.Covers t) :
    a.overlaps b :=
  overlaps_iff_covers.2 ⟨t, ha, hb⟩

theorem overlaps_comm (a b : Slot) : a.overlaps b = b.overlaps a := by
  rw [Bool.eq_iff_iff, overlaps_iff_covers, overlaps_iff_covers]
  exact exists_congr fun _ => And.comm

theorem intersect?_isSome {a b : Slot} : (a.intersect? b).isSome ↔ a.overlaps b := by
  unfold intersect?
  split <;> simp_all

/-- The common part has the later start and, where that is not before it, the earlier end. -/
theorem bounds_of_intersect? {a b c : Slot} (h : a.intersect? b = some c) :
    a.overlaps b ∧ c.start = max a.start b.start
      ∧ c.stop = max c.start (min a.stop b.stop) := by
  unfold intersect? at h
  split at h
  · rename_i meet
    cases h
    refine ⟨meet, ?_, ?_⟩
    · rw [span_start]
      split <;> omega
    · rw [span_stop, span_start]
      split <;> split <;> split <;> omega
  · cases h

/-- The common part covers what both slots cover. -/
theorem covers_intersect? {a b c : Slot} (h : a.intersect? b = some c) (t : Int) :
    c.Covers t ↔ a.Covers t ∧ b.Covers t := by
  obtain ⟨meet, start, stop⟩ := bounds_of_intersect? h
  have ha := a.ordered
  have hb := b.ordered
  rw [overlaps_iff_bounds] at meet
  rw [covers_iff, covers_iff, covers_iff]
  omega

/-! ## Slots within an interval -/

/-- The two branches of the containment test come to the same comparisons of bounds. -/
theorem contains_iff_bounds {s other : Slot} :
    s.contains other ↔ s.start ≤ other.start ∧ other.stop ≤ s.stop := by
  unfold contains
  split
  · rename_i point
    rw [isPoint_iff] at point
    rw [Bool.and_eq_true, decide_eq_true_eq, decide_eq_true_eq, point]
  · rw [Bool.and_eq_true, decide_eq_true_eq, decide_eq_true_eq]

/-- What a slot within an interval covers, the interval covers too, if it does so for the start. -/
theorem covers_of_contains {interval slot : Slot} (within : interval.contains slot)
    (starts : interval.Covers slot.start) {t : Int} (h : slot.Covers t) : interval.Covers t := by
  rw [contains_iff_bounds] at within
  rw [covers_iff] at starts h ⊢
  omega

/-- A slot within an interval that does not cover its start is the point at the end. -/
theorem not_covers_of_contains {interval slot : Slot} (within : interval.contains slot)
    (starts : ¬ interval.Covers slot.start) {t : Int} (h : slot.Covers t) :
    ¬ interval.Covers t := by
  have order := slot.ordered
  rw [contains_iff_bounds] at within
  rw [covers_iff] at starts h ⊢
  omega

/-- Within an interval, what overlaps the common part with it overlaps the whole. -/
theorem overlaps_intersect? {a interval c slot : Slot} (h : a.intersect? interval = some c)
    (within : interval.contains slot) (starts : interval.Covers slot.start) :
    c.overlaps slot = a.overlaps slot := by
  rw [Bool.eq_iff_iff, overlaps_iff_covers, overlaps_iff_covers]
  refine exists_congr fun t => ?_
  rw [covers_intersect? h]
  constructor
  · exact fun both => ⟨both.1.1, both.2⟩
  · exact fun both => ⟨⟨both.1, covers_of_contains within starts both.2⟩, both.2⟩

/-- What overlaps a slot within an interval overlaps the interval. -/
theorem overlaps_of_contains {a interval slot : Slot} (within : interval.contains slot)
    (starts : interval.Covers slot.start) (h : a.overlaps slot) : a.overlaps interval := by
  obtain ⟨t, ha, hs⟩ := overlaps_iff_covers.1 h
  exact overlaps_of_covers ha (covers_of_contains within starts hs)

end Conference.Slot
