import Conference.Proofs.Timeline.Sweep
import Mathlib.Data.List.Chain

/-!
# Queries are partitioned

The segments of a query of positive length follow each other without gap from its start to its end.
Nothing changes within a segment but points, and from one segment to the next something does: at the
cut between them an item of positive length starts or ends. So no fewer segments would do.
-/

namespace Conference.Timeline

variable {α : Type}

/-- The segments cut `[start, stop)` up where the items of positive length change, and nowhere
else. -/
structure Partitions (t : Timeline α) (start stop : Int) (segments : List (Segment α)) : Prop where
  first : segments.head?.map (·.slot.start) = some start
  last : segments.getLast?.map (·.slot.stop) = some stop
  proper : ∀ s ∈ segments, s.slot.start < s.slot.stop
  contiguous : segments.IsChain fun a b => a.slot.stop = b.slot.start
  members : ∀ s ∈ segments,
    s.members = (t.entries.filter (fun e => e.slot.overlaps s.slot)).map (·.item)
  constant : ∀ s ∈ segments, ∀ e ∈ t.entries, ¬ e.slot.isPoint → e.slot.overlaps s.slot →
    e.slot.start ≤ s.slot.start ∧ s.slot.stop ≤ e.slot.stop
  maximal : segments.IsChain fun a b =>
    ∃ e ∈ t.entries, ¬ e.slot.isPoint ∧ ¬ (e.slot.overlaps a.slot ↔ e.slot.overlaps b.slot)

/-! ## Slots between cuts -/

section Between

variable {first last : Int} {cuts : List Int}

/-- The instants ascend from the first to the last. -/
def Ascends (first last : Int) (cuts : List Int) : Prop :=
  (first :: (cuts ++ [last])).Pairwise (· < ·)

theorem Ascends.tail {c : Int} {cs : List Int} (h : Ascends first last (c :: cs)) :
    first < c ∧ Ascends c last cs := by
  obtain ⟨before, rest⟩ := List.pairwise_cons.1 h
  exact ⟨before c List.mem_cons_self, rest⟩

theorem head?_slotsBetween (first last : Int) (cuts : List Int) :
    (slotsBetween first last cuts).head?.map (·.start) = some first := by
  cases cuts <;> simp [slotsBetween]

theorem getLast?_slotsBetween (cuts : List Int) :
    ∀ {first : Int}, Ascends first last cuts →
      (slotsBetween first last cuts).getLast?.map (·.stop) = some last := by
  induction cuts with
  | nil =>
    intro first ascends
    have le : first ≤ last := by
      have := List.pairwise_cons.1 ascends
      exact Int.le_of_lt (this.1 last (List.mem_singleton.2 rfl))
    simp [slotsBetween, Slot.span_stop, le]
  | cons c cs ih =>
    intro first ascends
    have rest := ih ascends.tail.2
    rw [slotsBetween, List.getLast?_cons]
    cases found : (slotsBetween c last cs).getLast? with
    | none => simp [found] at rest
    | some slot =>
      rw [found] at rest
      exact rest

/-- Each slot has positive length, lies within the bounds, and no cut lies strictly inside it. -/
theorem clear_slotsBetween (cuts : List Int) :
    ∀ {first : Int}, Ascends first last cuts → ∀ slot ∈ slotsBetween first last cuts,
      slot.start < slot.stop ∧ first ≤ slot.start ∧ slot.stop ≤ last
        ∧ ∀ c ∈ cuts, c ≤ slot.start ∨ slot.stop ≤ c := by
  induction cuts with
  | nil =>
    intro first ascends slot mem
    have lt : first < last := (List.pairwise_cons.1 ascends).1 last (List.mem_singleton.2 rfl)
    rw [List.mem_singleton.1 mem, Slot.span_start, Slot.span_stop_of_lt lt]
    exact ⟨lt, Int.le_refl _, Int.le_refl _, fun _ hc => nomatch hc⟩
  | cons c cs ih =>
    intro first ascends slot mem
    obtain ⟨lt, rest⟩ := ascends.tail
    have below : c < last ∧ ∀ d ∈ cs, c < d := by
      have all := (List.pairwise_cons.1 rest).1
      exact ⟨all last (by simp), fun d hd => all d (by simp [hd])⟩
    rcases List.mem_cons.1 mem with rfl | later
    · -- the slot up to the first cut, which is before all others
      rw [Slot.span_start, Slot.span_stop_of_lt lt]
      refine ⟨lt, Int.le_refl _, Int.le_of_lt below.1, fun d hd => Or.inr ?_⟩
      rcases List.mem_cons.1 hd with rfl | hd
      · exact Int.le_refl _
      · exact Int.le_of_lt (below.2 d hd)
    · obtain ⟨proper, after, before, none_inside⟩ := ih rest slot later
      refine ⟨proper, by omega, before, fun d hd => ?_⟩
      rcases List.mem_cons.1 hd with rfl | hd
      · exact Or.inl after
      · exact none_inside d hd

/-- Neighbouring slots meet at a cut. -/
theorem isChain_slotsBetween (cuts : List Int) :
    ∀ {first : Int}, Ascends first last cuts → (slotsBetween first last cuts).IsChain fun a b =>
      a.stop = b.start ∧ a.start < a.stop ∧ b.start < b.stop ∧ a.stop ∈ cuts := by
  induction cuts with
  | nil => exact fun _ => .singleton _
  | cons c cs ih =>
    intro first ascends
    obtain ⟨lt, rest⟩ := ascends.tail
    have later :=
      (ih rest).imp fun a b h => (⟨h.1, h.2.1, h.2.2.1, List.mem_cons_of_mem c h.2.2.2⟩ :
        a.stop = b.start ∧ a.start < a.stop ∧ b.start < b.stop ∧ a.stop ∈ c :: cs)
    have head := head?_slotsBetween c last cs
    have clear := clear_slotsBetween cs rest
    rw [slotsBetween]
    cases between : slotsBetween c last cs with
    | nil => exact .singleton _
    | cons b bs =>
      rw [between] at later head clear
      -- the next slot starts at the cut
      have start : b.start = c := by simpa using head
      refine .cons_cons ?_ later
      rw [Slot.span_start, Slot.span_stop_of_lt lt]
      exact ⟨start.symm, lt, (clear b List.mem_cons_self).1, List.mem_cons_self⟩

end Between

/-! ## The segments of a query -/

theorem ascends_cuts (t : Timeline α) (query : Slot) (proper : query.start < query.stop) :
    Ascends query.start query.stop (t.cuts query) := by
  unfold Ascends
  rw [List.pairwise_cons, List.pairwise_append]
  refine ⟨fun c hc => ?_, t.pairwise_cuts query, List.pairwise_singleton _ _, fun c hc d hd => ?_⟩
  · rcases List.mem_append.1 hc with cut | last
    · exact (mem_cuts.1 cut).2.1
    · rw [List.mem_singleton.1 last]
      exact proper
  · rw [List.mem_singleton.1 hd]
    exact (mem_cuts.1 hc).2.2

/-- An item of positive length that overlaps a slot without cuts inside covers the whole of it. -/
theorem covers_of_clear {t : Timeline α} {query slot : Slot} {e : Entry α} (he : e ∈ t.entries)
    (proper : ¬ e.slot.isPoint) (inside : query.start ≤ slot.start ∧ slot.stop ≤ query.stop)
    (clear : ∀ c ∈ t.cuts query, c ≤ slot.start ∨ slot.stop ≤ c) (meet : e.slot.overlaps slot)
    (length : slot.start < slot.stop) :
    e.slot.start ≤ slot.start ∧ slot.stop ≤ e.slot.stop := by
  have order := e.slot.ordered
  have bounds := Slot.overlaps_iff_bounds.1 meet
  -- an end of the item within the query is a cut, and no cut lies inside the slot
  have cut {c : Int} (hc : c ∈ ends e.slot) (after : query.start < c) (before : c < query.stop) :
      c ≤ slot.start ∨ slot.stop ≤ c := clear c (mem_cuts.2 ⟨⟨e, he, hc⟩, after, before⟩)
  have starts : e.slot.start ∈ ends e.slot := by simp [ends, proper]
  have stops : e.slot.stop ∈ ends e.slot := by simp [ends, proper]
  rw [Slot.isPoint_iff] at proper
  constructor
  · by_contra late
    have := cut starts (by omega) (by omega)
    omega
  · by_contra early
    have := cut stops (by omega) (by omega)
    omega

/-- At a cut an item starts or ends, so it overlaps just one of the slots that meet there. -/
theorem changes_at_cut {t : Timeline α} {query a b : Slot} (cut : a.stop ∈ t.cuts query)
    (meet : a.stop = b.start) (ha : a.start < a.stop) (hb : b.start < b.stop) :
    ∃ e ∈ t.entries, ¬ e.slot.isPoint ∧ ¬ (e.slot.overlaps a ↔ e.slot.overlaps b) := by
  obtain ⟨⟨e, he, hc⟩, -, -⟩ := mem_cuts.1 cut
  unfold ends at hc
  split at hc
  · cases hc
  · rename_i proper
    refine ⟨e, he, proper, ?_⟩
    rw [Slot.isPoint_iff] at proper
    have order := e.slot.ordered
    rw [Slot.overlaps_iff_bounds, Slot.overlaps_iff_bounds]
    rw [List.mem_cons, List.mem_singleton] at hc
    omega

theorem partitions_segments (t : Timeline α) {start stop : Int} (lt : start < stop) :
    t.Partitions start stop (t.segments start stop) := by
  have from_start : (Slot.span start stop).start = start := Slot.span_start start stop
  have to_stop : (Slot.span start stop).stop = stop := Slot.span_stop_of_lt lt
  have ascends := t.ascends_cuts (Slot.span start stop) (by rw [from_start, to_stop]; exact lt)
  rw [segments_eq]
  rw [from_start, to_stop] at ascends ⊢
  -- no item starts or ends inside a segment, and something changes at each cut
  have clear := clear_slotsBetween _ ascends
  have chain := isChain_slotsBetween _ ascends
  refine ⟨?first, ?last, ?proper, ?contiguous, ?members, ?constant, ?maximal⟩
  case first =>
    rw [List.head?_map, Option.map_map]
    exact head?_slotsBetween _ _ _
  case last =>
    rw [List.getLast?_map, Option.map_map]
    exact getLast?_slotsBetween _ ascends
  case proper =>
    intro s hs
    obtain ⟨slot, mem, rfl⟩ := List.mem_map.1 hs
    exact (clear slot mem).1
  case contiguous => exact (List.isChain_map _).2 (chain.imp fun a b h => h.1)
  case members =>
    intro s hs
    obtain ⟨slot, -, rfl⟩ := List.mem_map.1 hs
    rfl
  case constant =>
    intro s hs e he proper meet
    obtain ⟨slot, mem, rfl⟩ := List.mem_map.1 hs
    obtain ⟨length, after, before, none_inside⟩ := clear slot mem
    have inside : (Slot.span start stop).start ≤ slot.start
        ∧ slot.stop ≤ (Slot.span start stop).stop := by
      rw [from_start, to_stop]
      exact ⟨after, before⟩
    exact covers_of_clear he proper inside none_inside meet length
  case maximal =>
    refine (List.isChain_map _).2 (chain.imp fun a b h => ?_)
    exact changes_at_cut h.2.2.2 h.1 h.2.1 h.2.2.1

theorem segments_of_le (t : Timeline α) {start stop : Int} (le : stop ≤ start) :
    t.segments start stop = [⟨Slot.point start, t.overlapping (Slot.point start)⟩] := by
  have whole : Slot.span start start = Slot.point start := Slot.span_bounds (Slot.point start)
  rw [segments_eq, Slot.span_of_le le, cuts_of_isPoint t (by rw [Slot.isPoint_iff]; rfl)]
  show [(⟨Slot.span start start, t.overlapping (Slot.span start start)⟩ : Segment α)] = _
  rw [whole]

/-- A query is partitioned into as few segments as keep the items of positive length, and each
segment has as members the items that overlap it, in the order of insertion. A query that ends no
later than it starts has one segment, its first instant. -/
theorem segments_partition (t : Timeline α) (start stop : Int) :
    if start < stop then t.Partitions start stop (t.segments start stop)
    else t.segments start stop
      = [⟨Slot.point start, (t.entries.filter (fun e => e.slot.overlaps (Slot.point start))).map
        (·.item)⟩] := by
  split
  · rename_i lt
    exact t.partitions_segments lt
  · rename_i late
    exact t.segments_of_le (Int.not_lt.1 late)

/-- An item that ends inside the query cuts it, an item at a point does not. -/
example : (((empty.add "meeting" 0 10).add "bell" 5 5).segments 0 20).map
    (fun s => (s.slot.start, s.slot.stop, s.members))
      = [(0, 10, ["meeting", "bell"]), (10, 20, [])] := by
  decide

end Conference.Timeline
