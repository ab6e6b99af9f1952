import Conference.Proofs.Slot.Coverage
import Conference.Timeline
import Mathlib.Data.List.Nodup

/-!
# What a sweep finds

The sweep over a query keeps the open items and the events that lie ahead. Its invariant says which
items are open by the events alone: an item that crosses the query is open unless its start lies
ahead, and as long as its end lies ahead or beyond the query. When the cursor moves, all events
ahead are later than it, and then the open items are just those that cover the part of the query up
to the next event.

So the segments are the parts between neighbouring *cuts*, the instants of the events, each with the
items that overlap it.
-/

namespace Conference.Timeline

variable {α : Type} {t : Timeline α} {query : Slot}

/-- The slots from `first` over the given instants to `last`. -/
def slotsBetween (first last : Int) : List Int → List Slot
  | [] => [Slot.span first last]
  | c :: cs => Slot.span first c :: slotsBetween c last cs

/-- The instants of events after the cursor, each once. -/
def timesAfter (cursor : Int) : List Event → List Int
  | [] => []
  | e :: es => if e.time = cursor then timesAfter cursor es else e.time :: timesAfter e.time es

/-- The instants strictly inside a query at which items start or end, in ascending order. -/
def cuts (t : Timeline α) (query : Slot) : List Int := timesAfter query.start (t.events query)

/-- The two ends of a slot of positive length. -/
def ends (slot : Slot) : List Int :=
  if slot.isPoint then [] else [slot.start, slot.stop]

/-! ## Places -/

theorem mem_places {p : Slot → Bool} {i : Nat} :
    i ∈ t.places p ↔ ∃ e, t.entries[i]? = some e ∧ p e.slot := by
  unfold places
  rw [List.mem_map]
  constructor
  · rintro ⟨⟨e, j⟩, mem, rfl⟩
    rw [List.mem_filter, List.mem_zipIdx_iff_getElem?] at mem
    exact ⟨e, mem.1, mem.2⟩
  · rintro ⟨e, at_, he⟩
    refine ⟨(e, i), ?_, rfl⟩
    rw [List.mem_filter, List.mem_zipIdx_iff_getElem?]
    exact ⟨at_, he⟩

/-- The points of a query are the items without length that overlap it. -/
theorem mem_points {p : Int × Nat} :
    p ∈ t.points query ↔ ∃ e, t.entries[p.2]? = some e ∧ p.1 = e.slot.start
      ∧ e.slot.overlaps query ∧ e.slot.isPoint := by
  unfold points
  rw [List.mem_map]
  constructor
  · rintro ⟨⟨e, j⟩, mem, rfl⟩
    rw [List.mem_filter, List.mem_zipIdx_iff_getElem?, Bool.and_eq_true] at mem
    exact ⟨e, mem.1, rfl, mem.2⟩
  · rintro ⟨e, at_, time, he⟩
    refine ⟨(e, p.2), ?_, Prod.ext time.symm rfl⟩
    rw [List.mem_filter, List.mem_zipIdx_iff_getElem?, Bool.and_eq_true]
    exact ⟨at_, he⟩

/-- Places of filtered entries ascend, whatever the filter. -/
theorem ascending_filter_zipIdx (p : Entry α × Nat → Bool) :
    ((t.entries.zipIdx.filter p).map (·.2)).Pairwise (· < ·) := by
  have all : (t.entries.zipIdx.map (·.2)).Pairwise (· < ·) := by
    rw [List.zipIdx_map_snd]
    exact List.pairwise_lt_range' 1
  exact all.sublist (List.filter_sublist.map _)

/-- Places come in the order of insertion. -/
theorem pairwise_places (t : Timeline α) (p : Slot → Bool) : (t.places p).Pairwise (· < ·) :=
  ascending_filter_zipIdx _

theorem nodup_places (t : Timeline α) (p : Slot → Bool) : (t.places p).Nodup :=
  (t.pairwise_places p).imp Nat.ne_of_lt

/-- Looking up the places of items gives the items. -/
theorem filterMap_places (t : Timeline α) (p : Slot → Bool) :
    (t.places p).filterMap (fun i => t.entries[i]?.map (·.item))
      = (t.entries.filter (fun e => p e.slot)).map (·.item) := by
  -- a place found in the list of entries leads back to its entry
  have found : ∀ x ∈ t.entries.zipIdx.filter (fun x => p x.1.slot),
      t.entries[x.2]?.map (·.item) = some x.1.item := by
    intro x hx
    rw [List.mem_zipIdx_iff_getElem?.1 (List.mem_filter.1 hx).1]
    rfl
  have firsts : (t.entries.zipIdx.filter (fun x => p x.1.slot)).map (·.1)
      = t.entries.filter (fun e => p e.slot) := by
    have :=
      List.filter_map (p := fun e : Entry α => p e.slot) (f := Prod.fst) (l := t.entries.zipIdx)
    rw [List.zipIdx_map_fst] at this
    exact this.symm
  unfold places
  rw [List.filterMap_map, ← firsts, List.map_map, ← List.filterMap_eq_map]
  exact List.filterMap_congr found

/-! ## Events -/

/-- A slot crosses a query of positive length if it has positive length and both start before the
other one ends. -/
theorem crosses_iff_bounds {slot : Slot} (proper : query.start < query.stop) :
    crosses query slot ↔
      slot.start < slot.stop ∧ slot.start < query.stop ∧ query.start < slot.stop := by
  have order := slot.ordered
  unfold crosses
  rw [Bool.and_eq_true, Slot.overlaps_iff_bounds, Bool.not_eq_true', ← Bool.not_eq_true,
    Slot.isPoint_iff]
  omega

/-- An item that crosses the query opens inside, closes inside, or both. -/
theorem mem_eventsOf {slot : Slot} {place : Nat} {e : Event} :
    e ∈ eventsOf query slot place ↔ crosses query slot ∧ e.place = place ∧
      (e.opens = true ∧ e.time = slot.start ∧ query.start < slot.start
        ∨ e.opens = false ∧ e.time = slot.stop ∧ slot.stop < query.stop) := by
  obtain ⟨time, opens, place'⟩ := e
  unfold eventsOf
  by_cases cross : crosses query slot
  · by_cases inside : query.start < slot.start <;> by_cases inside' : slot.stop < query.stop <;>
      cases opens <;> simp [cross, inside, inside'] <;> tauto
  · simp [cross]

/-- An event belongs to an item, at its place. -/
theorem mem_events {e : Event} :
    e ∈ t.events query ↔ ∃ x, t.entries[e.place]? = some x ∧ e ∈ eventsOf query x.slot e.place := by
  unfold events
  rw [(sortBy_perm _ _).mem_iff, List.mem_flatMap]
  constructor
  · rintro ⟨⟨x, i⟩, mem, he⟩
    obtain rfl : e.place = i := (mem_eventsOf.1 he).2.1
    exact ⟨x, List.mem_zipIdx_iff_getElem?.1 mem, he⟩
  · rintro ⟨x, at_, he⟩
    exact ⟨(x, e.place), List.mem_zipIdx_iff_getElem?.2 at_, he⟩

/-- Events lie strictly inside the query. -/
theorem inside_of_mem_events {e : Event} (he : e ∈ t.events query) :
    query.start < e.time ∧ e.time < query.stop := by
  obtain ⟨x, -, hx⟩ := mem_events.1 he
  obtain ⟨cross, -, kind⟩ := mem_eventsOf.1 hx
  unfold crosses at cross
  rw [Bool.and_eq_true, Slot.overlaps_iff_bounds, Bool.not_eq_true', ← Bool.not_eq_true,
    Slot.isPoint_iff] at cross
  omega

/-- No event comes twice: an item has one opening and one closing at most, and events of different
items are at different places. -/
theorem nodup_events (t : Timeline α) (query : Slot) : (t.events query).Nodup := by
  refine (sortBy_perm _ _).nodup_iff.2 (List.nodup_flatMap.2 ⟨?_, ?_⟩)
  · intro x _
    unfold eventsOf
    split
    · split <;> split <;> simp
    · exact List.nodup_nil
  · have apart : (t.entries.zipIdx.map (·.2)).Pairwise (· ≠ ·) := by
      rw [List.zipIdx_map_snd]
      exact (List.pairwise_lt_range' 1).imp Nat.ne_of_lt
    refine (List.pairwise_map.1 apart).imp fun {x y} other e hx hy => other ?_
    rw [← (mem_eventsOf.1 hx).2.1, ← (mem_eventsOf.1 hy).2.1]

/-- Events come in the order of time. -/
theorem sorted_events (t : Timeline α) (query : Slot) :
    (t.events query).Pairwise (fun a b => a.time ≤ b.time) := by
  refine pairwise_sortBy (r := fun a b : Event => a.time ≤ b.time)
    (fun _ _ _ => Int.le_trans) ?_ ?_ _
  · -- the order of events refines that of their times
    intro a b first
    unfold Event.le at first
    split at first
    · omega
    · simp only [decide_eq_true_eq] at first
      omega
  · intro a b second
    unfold Event.le at second
    split at second
    · omega
    · simp only [decide_eq_true_eq] at second
      omega

/-! ## The invariant of the sweep -/

/-- The start of the item at a place. -/
def opening (x : Entry α) (place : Nat) : Event := ⟨x.slot.start, true, place⟩

@[inherit_doc opening]
def closing (x : Entry α) (place : Nat) : Event := ⟨x.slot.stop, false, place⟩

/-- What the sweep knows when the cursor has come to an instant: the open items, and the events
ahead. -/
structure Swept (t : Timeline α) (query : Slot) (cursor : Int) (opened : List Nat)
    (ahead : List Event) : Prop where
  start_le : query.start ≤ cursor
  sorted : ahead.Pairwise (fun a b => a.time ≤ b.time)
  nodup : ahead.Nodup
  known : ∀ e ∈ ahead, e ∈ t.events query ∧ cursor ≤ e.time
  passed : ∀ e ∈ t.events query, e ∉ ahead → e.time ≤ cursor
  opened_nodup : opened.Nodup
  mem_opened : ∀ i, i ∈ opened ↔ ∃ x, t.entries[i]? = some x ∧ crosses query x.slot
    ∧ opening x i ∉ ahead ∧ (query.stop ≤ x.slot.stop ∨ closing x i ∈ ahead)

section Events

variable {x : Entry α} {i : Nat}

/-- An item opens during the sweep just if it starts after the query. -/
theorem opening_mem (at_ : t.entries[i]? = some x) (cross : crosses query x.slot) :
    opening x i ∈ t.events query ↔ query.start < x.slot.start := by
  rw [mem_events]
  constructor
  · rintro ⟨y, at', he⟩
    obtain rfl : x = y := Option.some.inj (at_.symm.trans at')
    simpa [opening] using (mem_eventsOf.1 he).2.2
  · intro inside
    exact ⟨x, at_, mem_eventsOf.2 ⟨cross, rfl, Or.inl ⟨rfl, rfl, inside⟩⟩⟩

/-- It closes during the sweep just if it ends before the query. -/
theorem closing_mem (at_ : t.entries[i]? = some x) (cross : crosses query x.slot) :
    closing x i ∈ t.events query ↔ x.slot.stop < query.stop := by
  rw [mem_events]
  constructor
  · rintro ⟨y, at', he⟩
    obtain rfl : x = y := Option.some.inj (at_.symm.trans at')
    simpa [closing] using (mem_eventsOf.1 he).2.2
  · intro inside
    exact ⟨x, at_, mem_eventsOf.2 ⟨cross, rfl, Or.inr ⟨rfl, rfl, inside⟩⟩⟩

/-- An event is the start or the end of an item that crosses the query. -/
theorem event_cases {e : Event} (he : e ∈ t.events query) :
    ∃ x, t.entries[e.place]? = some x ∧ crosses query x.slot
      ∧ (e = opening x e.place ∨ e = closing x e.place ∧ x.slot.stop < query.stop) := by
  obtain ⟨x, at_, hx⟩ := mem_events.1 he
  obtain ⟨cross, -, kind⟩ := mem_eventsOf.1 hx
  refine ⟨x, at_, cross, ?_⟩
  obtain ⟨time, opens, place⟩ := e
  rcases kind with ⟨rfl, rfl, -⟩ | ⟨rfl, rfl, inside⟩
  · exact Or.inl rfl
  · exact Or.inr ⟨rfl, inside⟩

end Events

/-- At the beginning those items are open that cross the query and have started. -/
theorem swept_start (t : Timeline α) (proper : query.start < query.stop) :
    Swept t query query.start (t.openedAtStart query) (t.events query) where
  start_le := Int.le_refl _
  sorted := t.sorted_events query
  nodup := t.nodup_events query
  known := fun e he => ⟨he, Int.le_of_lt (inside_of_mem_events he).1⟩
  passed := fun e he out => absurd he out
  opened_nodup := t.nodup_places _
  mem_opened := by
    intro i
    have point : query.isPoint = false := by
      rw [← Bool.not_eq_true, Slot.isPoint_iff]
      omega
    unfold openedAtStart
    rw [mem_places]
    refine exists_congr fun x => and_congr_right fun at_ => ?_
    rw [Bool.and_eq_true, point, Bool.false_or, decide_eq_true_eq]
    refine and_congr_right fun cross => ?_
    -- no event has been passed yet, so open means started and closing ahead
    rw [opening_mem at_ cross, closing_mem at_ cross]
    omega

/-- One event moves from those ahead into the open items. -/
theorem Swept.step {cursor : Int} {opened : List Nat} {e : Event} {es : List Event}
    (h : Swept t query cursor opened (e :: es)) : Swept t query e.time (e.update opened) es := by
  obtain ⟨first, sorted⟩ := List.pairwise_cons.1 h.sorted
  obtain ⟨fresh, nodup⟩ := List.nodup_cons.1 h.nodup
  obtain ⟨he, later⟩ := h.known e List.mem_cons_self
  obtain ⟨x, at_, cross, kind⟩ := event_cases he
  -- an event of another item is ahead now iff it was before
  have other {f : Event} (hf : f.place ≠ e.place) : f ∈ es ↔ f ∈ e :: es := by
    have apart : f ≠ e := fun same => hf (congrArg Event.place same)
    rw [List.mem_cons, or_iff_right apart]
  refine ⟨Int.le_trans h.start_le later, sorted, nodup, ?_, ?_, ?_, ?_⟩
  · exact fun f hf => ⟨(h.known f (List.mem_cons_of_mem _ hf)).1, first f hf⟩
  · intro f hf out
    by_cases same : f = e
    · exact Int.le_of_eq (congrArg Event.time same)
    · refine Int.le_trans (h.passed f hf fun mem => ?_) later
      rcases List.mem_cons.1 mem with rfl | mem
      · exact same rfl
      · exact out mem
  · unfold Event.update
    split
    · exact h.opened_nodup.insert
    · exact h.opened_nodup.erase _
  · intro i
    by_cases hi : i = e.place
    · subst hi
      -- the event of the item itself decides
      have whole : (∃ y, t.entries[e.place]? = some y ∧ crosses query y.slot
          ∧ opening y e.place ∉ es ∧ (query.stop ≤ y.slot.stop ∨ closing y e.place ∈ es))
          ↔ opening x e.place ∉ es ∧ (query.stop ≤ x.slot.stop ∨ closing x e.place ∈ es) := by
        constructor
        · rintro ⟨y, at', -, rest⟩
          obtain rfl : x = y := Option.some.inj (at_.symm.trans at')
          exact rest
        · exact fun rest => ⟨x, at_, cross, rest⟩
      rw [whole]
      rcases kind with opens | ⟨closes, inside⟩
      · have now : e.place ∈ e.update opened := by
          unfold Event.update
          rw [opens]
          exact List.mem_insert_self
        refine iff_of_true now ⟨opens ▸ fresh, ?_⟩
        -- its end comes later than its start, so it is not yet passed
        by_contra gone
        rw [not_or, Int.not_le] at gone
        have mem := (closing_mem at_ cross).2 gone.1
        have ends : closing x e.place ∉ e :: es := by
          rw [List.mem_cons, not_or]
          refine ⟨fun same => ?_, gone.2⟩
          rw [opens] at same
          exact absurd (congrArg Event.opens same) (by simp [opening, closing])
        have early : x.slot.stop ≤ cursor := h.passed _ mem ends
        have late : cursor ≤ x.slot.start := by
          rw [opens] at later
          exact later
        unfold crosses at cross
        rw [Bool.and_eq_true, Bool.not_eq_true', ← Bool.not_eq_true, Slot.isPoint_iff] at cross
        have order := x.slot.ordered
        omega
      · have now : e.place ∉ e.update opened := by
          unfold Event.update
          rw [closes]
          simp [closing, h.opened_nodup.mem_erase_iff]
        refine iff_of_false now ?_
        rintro ⟨-, beyond | ahead⟩
        · omega
        · exact fresh (closes ▸ ahead)
    · have kept : i ∈ e.update opened ↔ i ∈ opened := by
        unfold Event.update
        split
        · rw [List.mem_insert_iff, or_iff_right hi]
        · rw [h.opened_nodup.mem_erase_iff, and_iff_right hi]
      rw [kept, h.mem_opened]
      refine exists_congr fun y => ?_
      rw [other (f := opening y i) hi, other (f := closing y i) hi]

/-! ## Members -/

/-- The places that are open and the points together give the items that overlap a slot. -/
theorem collect_eq_overlapping {opened : List Nat} {slot : Slot}
    (inside : slot = query ∨ slot.start < slot.stop ∧ query.start ≤ slot.start
      ∧ slot.stop ≤ query.stop)
    (nodup : opened.Nodup)
    (mem : ∀ i, i ∈ opened ↔ ∃ x, t.entries[i]? = some x ∧ crosses slot x.slot) :
    t.collect (t.points query) opened slot = t.overlapping slot := by
  unfold collect
  simp only
  generalize hp : (t.points query).filter _ = ps
  -- a point of the query that is put into the slot overlaps it
  have point (i : Nat) :
      i ∈ ps.map (·.2) ↔ ∃ x, t.entries[i]? = some x ∧ x.slot.isPoint ∧ x.slot.overlaps slot := by
    rw [← hp, List.mem_map]
    constructor
    · rintro ⟨p, hp, rfl⟩
      rw [List.mem_filter, mem_points, Bool.and_eq_true, Bool.or_eq_true, decide_eq_true_eq,
        decide_eq_true_eq, Slot.isPoint_iff] at hp
      obtain ⟨⟨x, at_, time, meet, isPoint⟩, bounds⟩ := hp
      refine ⟨x, at_, isPoint, ?_⟩
      rcases inside with rfl | inside
      · exact meet
      · rw [Slot.isPoint_iff] at isPoint
        rw [Slot.overlaps_iff_bounds]
        omega
    · rintro ⟨x, at_, isPoint, meet⟩
      refine ⟨(x.slot.start, i), ?_, rfl⟩
      rw [List.mem_filter, mem_points, Bool.and_eq_true, Bool.or_eq_true, decide_eq_true_eq,
        decide_eq_true_eq, Slot.isPoint_iff]
      have bounds := Slot.overlaps_iff_bounds.1 meet
      have same := x.slot.isPoint_iff.1 isPoint
      have order := slot.ordered
      refine ⟨⟨x, at_, rfl, ?_, isPoint⟩, ?_⟩
      · rcases inside with rfl | inside
        · exact meet
        · rw [Slot.overlaps_iff_bounds]
          omega
      · show slot.start ≤ x.slot.start ∧ (x.slot.start < slot.stop ∨ slot.start = slot.stop)
        omega
  have ps_nodup : (ps.map (·.2)).Nodup := by
    have all : ((t.points query).map (·.2)).Nodup := by
      unfold points
      rw [List.map_map]
      exact (ascending_filter_zipIdx (t := t) _).imp Nat.ne_of_lt
    rw [← hp]
    exact all.sublist (List.filter_sublist.map _)
  have whole : (opened ++ ps.map (·.2)).Perm (t.places (·.overlaps slot)) := by
    rw [List.perm_ext_iff_of_nodup ?_ (t.nodup_places _)]
    · intro i
      rw [List.mem_append, mem, point, mem_places, ← exists_or]
      refine exists_congr fun x => ?_
      rw [← and_or_left]
      refine and_congr_right fun _ => ?_
      unfold crosses
      cases x.slot.isPoint <;> simp
    · refine List.nodup_append'.2 ⟨nodup, ps_nodup, fun i hi hi' => ?_⟩
      obtain ⟨x, at_, cross⟩ := (mem i).1 hi
      obtain ⟨y, at', isPoint, -⟩ := (point i).1 hi'
      obtain rfl : x = y := Option.some.inj (at_.symm.trans at')
      unfold crosses at cross
      simp [isPoint] at cross
  have sorted : sortBy (fun m n => decide (m ≤ n)) (opened ++ ps.map (·.2))
      = t.places (·.overlaps slot) := by
    refine List.Perm.eq_of_pairwise (fun m n _ _ (le : m ≤ n) (ge : n ≤ m) => Nat.le_antisymm le ge)
      ?_ ?_ ((sortBy_perm _ _).trans whole)
    · refine pairwise_sortBy (r := (· ≤ ·)) (fun _ _ _ => Nat.le_trans) ?_ ?_ _
      · exact fun a b le => of_decide_eq_true le
      · intro a b lt
        rw [decide_eq_true_eq] at lt
        omega
    · exact (t.pairwise_places _).imp Nat.le_of_lt
  rw [sorted, filterMap_places, overlapping]

/-- Up to the next event ahead, the open items are those that cross. -/
theorem Swept.collect_eq {cursor next : Int} {opened : List Nat} {ahead : List Event}
    (h : Swept t query cursor opened ahead) (move : cursor < next) (next_le : next ≤ query.stop)
    (clear : ∀ e ∈ ahead, next ≤ e.time) :
    t.collect (t.points query) opened (Slot.span cursor next)
      = t.overlapping (Slot.span cursor next) := by
  have start_le := h.start_le
  have stop : (Slot.span cursor next).stop = next := Slot.span_stop_of_lt move
  have proper : query.start < query.stop := by omega
  refine collect_eq_overlapping (Or.inr ?_) h.opened_nodup fun i => ?_
  · rw [Slot.span_start, stop]
    omega
  · rw [h.mem_opened]
    refine exists_congr fun x => and_congr_right fun at_ => ?_
    have bound : (Slot.span cursor next).start < (Slot.span cursor next).stop := by
      rw [Slot.span_start, stop]
      exact move
    rw [crosses_iff_bounds bound, Slot.span_start, stop]
    constructor
    · -- open at the cursor: it has started, and its closing is not before the next event
      rintro ⟨cross, started, running⟩
      have bounds := (crosses_iff_bounds proper).1 cross
      have start : x.slot.start ≤ cursor := by
        by_cases inside : query.start < x.slot.start
        · exact h.passed _ ((opening_mem at_ cross).2 inside) started
        · omega
      rcases running with beyond | ahead
      · omega
      · have := clear _ ahead
        simp only [closing] at this
        omega
    · -- an item that lies across has had its opening, and not its closing
      intro bounds
      have cross : crosses query x.slot := (crosses_iff_bounds proper).2 (by omega)
      refine ⟨cross, fun ahead => ?_, ?_⟩
      · have := clear _ ahead
        simp only [opening] at this
        omega
      · by_contra gone
        rw [not_or, Int.not_le] at gone
        have := h.passed _ ((closing_mem at_ cross).2 gone.1) gone.2
        simp only [closing] at this
        omega

/-! ## Segments -/

/-- From the cursor on, the sweep gives the parts between the instants of the events ahead. -/
theorem Swept.sweep_eq (ahead : List Event) :
    ∀ {cursor : Int} {opened : List Nat}, Swept t query cursor opened ahead → cursor < query.stop →
      t.sweep (t.points query) query.stop cursor opened ahead
        = (slotsBetween cursor query.stop (timesAfter cursor ahead)).map
          fun slot => ⟨slot, t.overlapping slot⟩ := by
  induction ahead with
  | nil =>
    intro cursor opened h before
    have members := h.collect_eq before (Int.le_refl _) fun _ he => nomatch he
    rw [sweep, if_pos before, segment, members]
    rfl
  | cons e es ih =>
    intro cursor opened h before
    obtain ⟨he, later⟩ := h.known e List.mem_cons_self
    have e_lt : e.time < query.stop := (inside_of_mem_events he).2
    have rest := ih h.step e_lt
    rw [sweep, timesAfter]
    -- an event at the cursor moves nothing, one behind it ends a segment
    by_cases now : e.time = cursor
    · rw [if_pos now, if_pos now, ← now]
      exact rest
    · have clear : ∀ f ∈ e :: es, e.time ≤ f.time := by
        intro f hf
        rcases List.mem_cons.1 hf with rfl | hf
        · exact Int.le_refl _
        · exact (List.pairwise_cons.1 h.sorted).1 f hf
      have members := h.collect_eq (by omega) (Int.le_of_lt e_lt) clear
      rw [if_neg now, if_neg now, rest, segment, members]
      rfl

/-- Nothing happens strictly inside a point. -/
theorem cuts_of_isPoint (t : Timeline α) (h : query.isPoint) : t.cuts query = [] := by
  have none : t.events query = [] := by
    rw [List.eq_nil_iff_forall_not_mem]
    intro e he
    obtain ⟨x, -, hx⟩ := mem_events.1 he
    obtain ⟨cross, -, inside⟩ := mem_eventsOf.1 hx
    unfold crosses at cross
    rw [Bool.and_eq_true, Slot.overlaps_iff_bounds] at cross
    rw [Slot.isPoint_iff] at h
    omega
  rw [cuts, none, timesAfter]

/-- The segments of a query are the parts between its cuts, each with the items that overlap it. -/
theorem segments_eq (t : Timeline α) (start stop : Int) :
    t.segments start stop
      = (slotsBetween (Slot.span start stop).start (Slot.span start stop).stop
          (t.cuts (Slot.span start stop))).map fun slot => ⟨slot, t.overlapping slot⟩ := by
  unfold segments
  simp only
  generalize Slot.span start stop = query
  split
  · rename_i point
    -- a point query has one segment and no sweep
    have members : t.collect (t.points query) (t.openedAtStart query) query
        = t.overlapping query := by
      refine collect_eq_overlapping (Or.inl rfl) (t.nodup_places _) fun i => ?_
      unfold openedAtStart
      rw [mem_places, point]
      simp
    rw [cuts_of_isPoint t point, members, slotsBetween, Slot.span_bounds]
    rfl
  · rename_i proper
    rw [Slot.isPoint_iff] at proper
    have order := query.ordered
    have before : query.start < query.stop := by omega
    exact (swept_start t before).sweep_eq _ before

/-! ## Cuts -/

/-- The times after the cursor are those of the events, each of them once. -/
theorem mem_timesAfter {es : List Event} :
    ∀ {cursor c : Int}, es.Pairwise (fun a b => a.time ≤ b.time) → (∀ e ∈ es, cursor ≤ e.time) →
      (c ∈ timesAfter cursor es ↔ cursor < c ∧ ∃ e ∈ es, e.time = c) := by
  induction es with
  | nil =>
    intro cursor c _ _
    simp [timesAfter]
  | cons e es ih =>
    intro cursor c sorted later
    obtain ⟨first, sorted⟩ := List.pairwise_cons.1 sorted
    have le := later e List.mem_cons_self
    rw [timesAfter]
    simp only [List.mem_cons, exists_eq_or_imp]
    -- an event at the cursor adds no time, a later one moves the cursor
    split
    · rename_i now
      rw [ih sorted fun f hf => later f (List.mem_cons_of_mem _ hf)]
      refine and_congr_right fun after => ?_
      rw [or_iff_right]
      omega
    · rw [List.mem_cons, ih sorted first]
      constructor
      · rintro (rfl | ⟨after, found⟩)
        · exact ⟨by omega, Or.inl rfl⟩
        · exact ⟨by omega, Or.inr found⟩
      · rintro ⟨after, rfl | ⟨f, hf, rfl⟩⟩
        · exact Or.inl rfl
        · have := first f hf
          by_cases same : f.time = e.time
          · exact Or.inl same
          · exact Or.inr ⟨by omega, f, hf, rfl⟩

/-- They ascend, as each one is behind the cursor that has moved up to the one before. -/
theorem pairwise_timesAfter {es : List Event} :
    ∀ {cursor : Int}, es.Pairwise (fun a b => a.time ≤ b.time) → (∀ e ∈ es, cursor ≤ e.time) →
      (timesAfter cursor es).Pairwise (· < ·) := by
  induction es with
  | nil => exact fun _ _ => List.Pairwise.nil
  | cons e es ih =>
    intro cursor sorted later
    obtain ⟨first, sorted⟩ := List.pairwise_cons.1 sorted
    rw [timesAfter]
    split
    · exact ih sorted fun f hf => later f (List.mem_cons_of_mem _ hf)
    · rw [List.pairwise_cons]
      exact ⟨fun c hc => ((mem_timesAfter sorted first).1 hc).1, ih sorted first⟩

/-- The cuts ascend. -/
theorem pairwise_cuts (t : Timeline α) (query : Slot) : (t.cuts query).Pairwise (· < ·) :=
  pairwise_timesAfter (t.sorted_events query) fun _ he => Int.le_of_lt (inside_of_mem_events he).1

/-- The query is cut at the ends of its items that lie properly inside. -/
theorem mem_cuts {c : Int} :
    c ∈ t.cuts query
      ↔ (∃ e ∈ t.entries, c ∈ ends e.slot) ∧ query.start < c ∧ c < query.stop := by
  rw [cuts, mem_timesAfter (t.sorted_events query) fun _ he =>
    Int.le_of_lt (inside_of_mem_events he).1]
  constructor
  · rintro ⟨after, e, he, rfl⟩
    obtain ⟨x, at_, hx⟩ := mem_events.1 he
    obtain ⟨cross, -, kind⟩ := mem_eventsOf.1 hx
    unfold crosses at cross
    rw [Bool.and_eq_true, Bool.not_eq_true'] at cross
    refine ⟨⟨x, List.mem_of_getElem? at_, ?_⟩, inside_of_mem_events he⟩
    rw [ends, cross.2]
    rcases kind with ⟨-, time, -⟩ | ⟨-, time, -⟩ <;> simp [time]
  · rintro ⟨⟨x, hx, hc⟩, after, before⟩
    obtain ⟨i, at_⟩ := List.mem_iff_getElem?.1 hx
    unfold ends at hc
    split at hc
    · -- a point has no ends to cut at
      cases hc
    · rename_i proper
      rw [List.mem_cons, List.mem_singleton] at hc
      have order := x.slot.ordered
      have cross : crosses query x.slot := by
        rw [crosses_iff_bounds (by omega)]
        rw [Slot.isPoint_iff] at proper
        omega
      refine ⟨after, ?_⟩
      rcases hc with rfl | rfl
      · exact ⟨opening x i, (opening_mem at_ cross).2 after, rfl⟩
      · exact ⟨closing x i, (closing_mem at_ cross).2 before, rfl⟩

end Conference.Timeline
