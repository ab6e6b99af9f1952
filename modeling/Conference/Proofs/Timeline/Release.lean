import Conference.Proofs.Timeline.Load
import Mathlib.Algebra.GroupWithZero.Nat
import Mathlib.Algebra.Order.BigOperators.Group.List
import Mathlib.Algebra.Order.Group.Nat
import Mathlib.Data.List.Perm.Subperm

/-!
# What taking items away does to a peak

With some items gone a query has fewer cuts, so its segments get longer. An item of positive length
that overlaps a segment covers the whole of it, and so weighs in at each of its instants. Points do
not: two of them that were in different segments may come to be in one, and then they count
together. Unless that happens, the peak does not rise.
-/

namespace Conference

/-- Images of fewer elements are fewer, whether or not some of them fall together. -/
theorem subperm_map {α β : Type} {l m : List α} (f : α → β) (fewer : l.Subperm m) :
    (l.map f).Subperm (m.map f) := by
  obtain ⟨some_of, perm, sub⟩ := fewer
  exact ⟨some_of.map f, perm.map f, sub.map f⟩

namespace Timeline

variable {α β : Type} {t : Timeline α} {u : Timeline β} {query : Slot}

/-- An item of positive length starts or ends after the first instant and no later than the
second. -/
def Parts (t : Timeline α) (earlier later : Int) : Prop :=
  ∃ e ∈ t.entries, ∃ c ∈ ends e.slot, earlier < c ∧ c ≤ later

/-- Where `t` parts two points of `u` within the query, `u` parts them as well. -/
def PartsLike (u : Timeline β) (t : Timeline α) (query : Slot) : Prop :=
  ∀ a ∈ u.entries, ∀ b ∈ u.entries, a.slot.isPoint → b.slot.isPoint → a.slot.overlaps query →
    b.slot.overlaps query → t.Parts a.slot.start b.slot.start → u.Parts a.slot.start b.slot.start

instance (t : Timeline α) (earlier later : Int) : Decidable (t.Parts earlier later) :=
  inferInstanceAs (Decidable (∃ e ∈ t.entries, ∃ c ∈ ends e.slot, earlier < c ∧ c ≤ later))

instance (u : Timeline β) (t : Timeline α) (query : Slot) : Decidable (u.PartsLike t query) :=
  inferInstanceAs (Decidable (∀ a ∈ u.entries, ∀ b ∈ u.entries, a.slot.isPoint → b.slot.isPoint →
    a.slot.overlaps query → b.slot.overlaps query → t.Parts a.slot.start b.slot.start →
    u.Parts a.slot.start b.slot.start))

/-! ## The bounds of segments -/

/-- Between cuts, a slot starts and stops at a cut or at an end of the whole. -/
theorem bounds_slotsBetween {last : Int} (cuts : List Int) :
    ∀ {first : Int}, Ascends first last cuts → ∀ slot ∈ slotsBetween first last cuts,
      (slot.start = first ∨ slot.start ∈ cuts) ∧ (slot.stop = last ∨ slot.stop ∈ cuts) := by
  induction cuts with
  | nil =>
    intro first ascends slot mem
    have lt : first < last := (List.pairwise_cons.1 ascends).1 last (List.mem_singleton.2 rfl)
    rw [List.mem_singleton.1 mem, Slot.span_start, Slot.span_stop_of_lt lt]
    exact ⟨Or.inl rfl, Or.inl rfl⟩
  | cons c cs ih =>
    intro first ascends slot mem
    obtain ⟨lt, rest⟩ := ascends.tail
    rcases List.mem_cons.1 mem with rfl | later
    · rw [Slot.span_start, Slot.span_stop_of_lt lt]
      exact ⟨Or.inl rfl, Or.inr List.mem_cons_self⟩
    · obtain ⟨starts, stops⟩ := ih rest slot later
      refine ⟨Or.inr ?_, stops.imp_right (List.mem_cons_of_mem c)⟩
      -- the later slots begin at this cut or at a later one
      rcases starts with rfl | cut
      · exact List.mem_cons_self
      · exact List.mem_cons_of_mem c cut

theorem parts_of_cut {c p q : Int} (cut : c ∈ t.cuts query) (after : p < c) (before : c ≤ q) :
    t.Parts p q := by
  obtain ⟨⟨e, he, hc⟩, -, -⟩ := mem_cuts.1 cut
  exact ⟨e, he, c, hc, after, before⟩

/-- A segment that covers one instant of the query covers each other one that nothing parts from
it. -/
theorem covers_of_not_parts (proper : query.start < query.stop) {slot : Slot}
    (mem : slot ∈ slotsBetween query.start query.stop (t.cuts query)) {p q : Int}
    (covers : slot.Covers p) (from_start : query.start ≤ q) (to_stop : q < query.stop)
    (one : ¬ t.Parts p q) (other : ¬ t.Parts q p) :
    slot.Covers q := by
  have ascends := t.ascends_cuts query proper
  have length := (clear_slotsBetween _ ascends slot mem).1
  obtain ⟨starts, stops⟩ := bounds_slotsBetween _ ascends slot mem
  rw [Slot.covers_iff] at covers ⊢
  -- a segment that starts or stops between the two does so at a cut, which parts them
  have early : slot.start ≤ q := by
    by_contra late
    rcases starts with first | cut
    · omega
    · exact other (parts_of_cut cut (by omega) (by omega))
  have late : q < slot.stop := by
    by_contra early
    rcases stops with last | cut
    · omega
    · exact one (parts_of_cut cut (by omega) (by omega))
  omega

/-- Within a segment nothing parts two instants. -/
theorem not_parts_of_covers (proper : query.start < query.stop) {slot : Slot}
    (mem : slot ∈ slotsBetween query.start query.stop (t.cuts query)) {p q : Int}
    (covers : slot.Covers p) (covers' : slot.Covers q) : ¬ t.Parts p q := by
  rintro ⟨e, he, c, hc, after, before⟩
  obtain ⟨length, first, last, clear⟩ := clear_slotsBetween _ (t.ascends_cuts query proper) slot mem
  rw [Slot.covers_iff] at covers covers'
  have cut : c ∈ t.cuts query := mem_cuts.2 ⟨⟨e, he, hc⟩, by omega, by omega⟩
  have := clear c cut
  omega

/-! ## Segments within segments -/

/-- The items of `u` in one of its segments all overlap one segment of `t`: the segment of `t` at a
point among them, or at the start if there is none. -/
theorem exists_segment_of_parts (parts : u.PartsLike t query) {slot : Slot}
    (mem : slot ∈ slotsBetween query.start query.stop (u.cuts query)) :
    ∃ slot' ∈ slotsBetween query.start query.stop (t.cuts query),
      ∀ e ∈ u.entries, e.slot.overlaps slot → e.slot.overlaps slot' := by
  by_cases proper : query.start < query.stop
  · obtain ⟨length, first, last, clear⟩ :=
      clear_slotsBetween _ (u.ascends_cuts query proper) slot mem
    -- points of the slot are points of the query
    have at_point {e : Entry β} (point : e.slot.isPoint) (meet : e.slot.overlaps slot) :
        slot.Covers e.slot.start ∧ e.slot.overlaps query := by
      rw [Slot.isPoint_iff] at point
      rw [Slot.overlaps_iff_bounds] at meet ⊢
      rw [Slot.covers_iff]
      omega
    -- the segment of `t` to choose is the one that covers `p`
    obtain ⟨p, covers, same⟩ : ∃ p, slot.Covers p ∧ ∀ e ∈ u.entries, e.slot.isPoint →
        e.slot.overlaps slot → ∃ a ∈ u.entries, a.slot.isPoint ∧ a.slot.overlaps slot
          ∧ a.slot.start = p := by
      by_cases found : ∃ a ∈ u.entries, a.slot.isPoint ∧ a.slot.overlaps slot
      · obtain ⟨a, ha, point, meet⟩ := found
        exact ⟨a.slot.start, (at_point point meet).1, fun _ _ _ _ => ⟨a, ha, point, meet, rfl⟩⟩
      · exact ⟨slot.start, slot.covers_start, fun e he point meet =>
          absurd ⟨e, he, point, meet⟩ found⟩
    have bounds := Slot.covers_iff.1 covers
    obtain ⟨slot', mem', covers'⟩ :=
      exists_slotsBetween_covers (by omega : p < query.stop) (t.cuts query)
        (by omega : query.start ≤ p)
    refine ⟨slot', mem', fun e he meet => ?_⟩
    by_cases point : e.slot.isPoint
    · obtain ⟨here, meets⟩ := at_point point meet
      obtain ⟨a, ha, point', meet', rfl⟩ := same e he point meet
      obtain ⟨there, meets'⟩ := at_point point' meet'
      have inside := Slot.covers_iff.1 here
      refine Slot.overlaps_of_covers e.slot.covers_start ?_
      refine covers_of_not_parts proper mem' covers' (by omega) (by omega)
        (fun apart => ?_) fun apart => ?_
      · exact not_parts_of_covers proper mem there here
          (parts a ha e he point' point meets' meets apart)
      · exact not_parts_of_covers proper mem here there
          (parts e he a ha point point' meets meets' apart)
    · -- an item of positive length has no end within a segment, so it covers all of it
      obtain ⟨starts, stops⟩ := covers_of_clear he point ⟨first, last⟩ clear meet length
      refine Slot.overlaps_of_covers ?_ covers'
      rw [Slot.covers_iff]
      omega
  · have order := query.ordered
    have point : query.isPoint := query.isPoint_iff.2 (by omega)
    rw [cuts_of_isPoint u point] at mem
    rw [cuts_of_isPoint t point]
    exact ⟨slot, mem, fun _ _ meet => meet⟩

theorem largest_le {n : Nat} {ns : List Nat} (h : ∀ m ∈ ns, m ≤ n) : largest ns ≤ n := by
  induction ns with
  | nil => exact Nat.zero_le n
  | cons m ms ih =>
    rw [largest, List.foldr_cons, ← largest]
    have here := h m List.mem_cons_self
    have rest := ih fun k hk => h k (List.mem_cons_of_mem m hk)
    split <;> omega

theorem load_eq_sum (t : Timeline α) (weight : α → Nat) (slot : Slot) :
    (⟨slot, t.overlapping slot⟩ : Segment α).load weight
      = (((t.entries.map fun e => (weight e.item, e.slot)).filter (·.2.overlaps slot)).map
        (·.1)).sum := by
  rw [← map_overlapping, List.sum, List.foldr_map]
  rfl

/-- The peak does not rise when items are taken away, unless that brings points together. -/
theorem peak_le_of_subperm {weight : α → Nat} {weight' : β → Nat}
    (fewer : (u.entries.map fun e => (weight' e.item, e.slot)).Subperm
      (t.entries.map fun e => (weight e.item, e.slot)))
    (parts : u.PartsLike t query) :
    u.peak query.start query.stop weight' ≤ t.peak query.start query.stop weight := by
  rw [peak_eq, peak_eq]
  refine largest_le fun n mem => ?_
  obtain ⟨slot, part, rfl⟩ := List.mem_map.1 mem
  obtain ⟨slot', part', within⟩ := exists_segment_of_parts parts part
  refine Nat.le_trans ?_ (le_largest (List.mem_map_of_mem part'))
  rw [load_eq_sum, load_eq_sum]
  -- the items in the one segment are some of those in the other
  have longer : ((u.entries.map fun e => (weight' e.item, e.slot)).filter
      (·.2.overlaps slot)).Sublist
      ((u.entries.map fun e => (weight' e.item, e.slot)).filter (·.2.overlaps slot')) := by
    rw [List.filter_map, List.filter_map]
    refine List.Sublist.map _ ?_
    have both : u.entries.filter (fun e => e.slot.overlaps slot)
        = (u.entries.filter fun e => e.slot.overlaps slot').filter fun e =>
          e.slot.overlaps slot := by
      rw [List.filter_filter]
      refine List.filter_congr fun e he => ?_
      cases meet : e.slot.overlaps slot with
      | false => rfl
      | true => rw [within e he meet, Bool.and_true]
    show (u.entries.filter fun e => e.slot.overlaps slot).Sublist
      (u.entries.filter fun e => e.slot.overlaps slot')
    rw [both]
    exact List.filter_sublist
  obtain ⟨some_items, perm, sub⟩ := longer.subperm.trans (fewer.filter _)
  rw [← (perm.map _).sum_eq]
  exact (sub.map _).sum_le_sum fun _ _ => Nat.zero_le _

/-- The peak of items that all weigh something is zero just if none of them overlaps the query. -/
theorem peak_eq_zero_iff {weight : α → Nat} (positive : ∀ e ∈ t.entries, 0 < weight e.item) :
    t.peak query.start query.stop weight = 0 ↔ ∀ e ∈ t.entries, ¬ e.slot.overlaps query := by
  constructor
  · intro zero e he meet
    obtain ⟨instant, covers, asked⟩ := Slot.overlaps_iff_covers.1 meet
    obtain ⟨segment, part, there, members⟩ := t.exists_segment_covers asked
    have load : segment.load weight ≤ t.peak query.start query.stop weight :=
      le_largest (List.mem_map_of_mem part)
    -- the item weighs something in the segment in which it meets the query
    have member : (weight e.item, e.slot)
        ∈ (t.entries.map fun e => (weight e.item, e.slot)).filter (·.2.overlaps segment.slot) :=
      List.mem_filter.2 ⟨List.mem_map_of_mem he, Slot.overlaps_of_covers covers there⟩
    have whole : segment.load weight
        = (⟨segment.slot, t.overlapping segment.slot⟩ : Segment α).load weight := by
      rw [Segment.load, members]
      rfl
    rw [whole, load_eq_sum, zero] at load
    have weighs := List.le_sum_of_mem (List.mem_map_of_mem (f := (·.1)) member)
    have := positive e he
    omega
  · intro apart
    rw [peak_eq]
    refine Nat.eq_zero_of_le_zero (largest_le fun n mem => ?_)
    obtain ⟨slot, part, rfl⟩ := List.mem_map.1 mem
    obtain ⟨within, starts⟩ := t.inside_slotsBetween part
    -- nothing overlaps any part of the query
    have nothing : t.overlapping slot = [] := by
      unfold overlapping
      rw [List.filter_eq_nil_iff.2 fun e he meet =>
        apart e he (Slot.overlaps_of_contains within starts meet)]
      rfl
    rw [nothing]
    exact Nat.le_refl 0

/-- What overlaps a slot is still among what did. -/
theorem mem_overlapping_of_subperm {γ : Type} {f : α → γ} {g : β → γ}
    (fewer : (u.entries.map fun e => (g e.item, e.slot)).Subperm
      (t.entries.map fun e => (f e.item, e.slot)))
    {slot : Slot} {x : γ} (mem : x ∈ (u.overlapping slot).map g) :
    x ∈ (t.overlapping slot).map f := by
  rw [map_overlapping] at mem ⊢
  exact List.map_subset _ (fewer.filter _).subset mem

end Timeline

end Conference
