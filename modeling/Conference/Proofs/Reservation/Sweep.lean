import Conference.Proofs.Reservation.Removal
import Mathlib.Data.List.TakeDrop

/-!
# Sweeps

A truncation deletes the young nodes one after the other. Each of them is dealt with alike: its old
children are taken away from it, then it goes with all that is still below it. What goes in the end
is a list of nodes, with the links at them; it holds all young nodes, so that the nodes that are
left are in the journal that is left.

So a forest stays orderly whatever is done to it, also where an attachment is refused on the way.
-/

namespace Conference.ReservationForest

variable {f g : ReservationForest} {key : Nat} {old : List Nat}

/-! ## One young node -/

/-- Takes the old children of a node away from it. -/
def rescue (old : List Nat) (f : ReservationForest) (key : Nat) : ReservationForest :=
  ((f.children key).filter (old.contains ·)).foldl detach f

/-- Detaching keeps a forest orderly, however often. -/
theorem orderly_foldl_detach (keys : List Nat) : ∀ {f : ReservationForest}, f.Orderly →
    (keys.foldl detach f).Orderly := by
  induction keys with
  | nil => exact id
  | cons key keys ih => exact fun orderly => ih (orderly.detach key)

/-- The links that are left are those to the other nodes. -/
theorem links_foldl_detach (keys : List Nat) : ∀ f : ReservationForest,
    (keys.foldl detach f).links = f.links.filter fun l => !keys.contains l.2 := by
  induction keys with
  | nil => simp
  | cons key keys ih =>
    intro f
    rw [List.foldl_cons, ih, detach, List.filter_filter]
    congr 1
    funext l
    rw [List.contains_cons, Bool.not_or, Bool.and_comm]

/-- No node is lost by being detached. -/
theorem entries_foldl_detach (keys : List Nat) :
    ∀ f : ReservationForest, (keys.foldl detach f).entries = f.entries := by
  induction keys with
  | nil => exact fun _ => rfl
  | cons key keys ih => exact fun f => ih (f.detach key)

/-- Nor by being rescued. -/
theorem isLive_rescue (old : List Nat) (f : ReservationForest) (key other : Nat) :
    (f.rescue old key).isLive other = f.isLive other := by
  rw [isLive, rescue, entries_foldl_detach, isLive]

/-- A rescue cuts the links from the node to its old children. -/
theorem mem_links_rescue {l : Nat × Nat} :
    l ∈ (f.rescue old key).links ↔ l ∈ f.links ∧ ((key, l.2) ∈ f.links → l.2 ∉ old) := by
  rw [rescue, links_foldl_detach, List.mem_filter]
  simp [mem_children, imp_iff_not_or]

/-- Nothing has to be done for a node that is not there, as it has no children. -/
theorem removeYoung_eq (linked : f.WellLinked) (old : List Nat) (key : Nat) :
    f.removeYoung old key = (f.rescue old key).remove key := by
  by_cases live : f.isLive key
  · rw [removeYoung, if_pos live, rescue]
  · rw [removeYoung, if_neg live, rescue, linked.children_eq_nil live, List.filter_nil,
      List.foldl_nil, remove, if_neg live]

/-- A young node goes with all that is still below it when its old children have been taken away. -/
theorem removeYoung_takes (orderly : f.Orderly) (old : List Nat) (key : Nat) :
    ∃ gone : List Nat, gone.Nodup
      ∧ (∀ lower, lower ∈ gone ↔ f.isLive lower ∧ (f.rescue old key).AtOrAbove key lower)
      ∧ (f.removeYoung old key).1 = gone.length ∧ f.Without gone (f.removeYoung old key).2 := by
  have rescued : (f.rescue old key).Orderly := orderly_foldl_detach _ orderly
  have shrinks : f.Shrinks (f.rescue old key) := shrinks_foldl_detach _ f
  obtain ⟨gone, different, mem, count, without⟩ := remove_takes rescued key
  simp only [isLive_rescue] at mem
  rw [removeYoung_eq orderly.linked]
  refine ⟨gone, different, mem, count, ?_, ?_, without.journal.trans shrinks.journal,
    without.nextKey.trans shrinks.nextKey⟩
  · rw [without.entries, rescue, entries_foldl_detach]
  · -- the links to the rescued children lead from the node itself
    have links (l : Nat × Nat) (there : l ∈ f.links) :
        ((!gone.contains l.1 && !gone.contains l.2)
          && !((f.children key).filter (old.contains ·)).contains l.2)
          = (!gone.contains l.1 && !gone.contains l.2) := by
      by_cases child : l.2 ∈ (f.children key).filter (old.contains ·)
      · have linked := mem_children.1 (List.mem_filter.1 child).1
        have upper : l.1 = key := orderly.linked.single l there _ linked rfl
        have top : key ∈ gone := (mem key).2 ⟨(orderly.linked.live _ linked).1, .refl⟩
        simp [upper, top]
      · have other : ((f.children key).filter (old.contains ·)).contains l.2 = false := by
          simpa using child
        rw [other, Bool.not_false, Bool.and_true]
    rw [without.links, rescue, links_foldl_detach, List.filter_filter]
    exact List.filter_congr links

/-! ## All young nodes -/

/-- The keys deleted by the whole loop, each of them once, as many as it counts. None of those given
are live in the end. -/
theorem removeAllYoung_takes (old keys : List Nat) : ∀ {f : ReservationForest}, f.Orderly →
    ∃ gone : List Nat, gone.Nodup ∧ (∀ lower ∈ gone, f.isLive lower)
      ∧ (f.removeAllYoung old keys).1 = gone.length ∧ f.Without gone (f.removeAllYoung old keys).2
      ∧ ∀ key ∈ keys, ¬ (f.removeAllYoung old keys).2.isLive key := by
  induction keys with
  | nil => exact fun {f} _ => ⟨[], List.nodup_nil, nofun, rfl, .refl f, nofun⟩
  | cons key keys ih =>
    intro f orderly
    obtain ⟨first, different, mem, count, without⟩ := removeYoung_takes orderly old key
    obtain ⟨rest, different', live, count', without', dead⟩ := ih (without.orderly orderly)
    -- what goes later was still there after the first removal
    have later {lower : Nat} (taken : lower ∈ rest) : f.isLive lower ∧ lower ∉ first :=
      without.isLive_iff.1 (live lower taken)
    refine ⟨first ++ rest, ?_, fun lower taken => ?_, ?_, without.trans without', ?_⟩
    · refine List.nodup_append.2 ⟨different, different', fun lower taken other taken' same => ?_⟩
      exact (later taken').2 (same ▸ taken)
    · exact (List.mem_append.1 taken).elim (fun now => ((mem lower).1 now).1) fun then_ =>
        (later then_).1
    · rw [List.length_append, ← count, ← count']
      rfl
    · refine List.forall_mem_cons.2 ⟨fun left => ?_, dead⟩
      obtain ⟨live', stayed⟩ := without.isLive_iff.1 (without'.isLive_iff.1 left).1
      exact stayed ((mem key).2 ⟨live', .refl⟩)

/-- The node was created before the mark. -/
def Older (f : ReservationForest) (mark key : Nat) : Prop :=
  key ∈ f.journal.drop (f.journal.length - mark)

instance (f : ReservationForest) (mark key : Nat) : Decidable (f.Older mark key) :=
  inferInstanceAs (Decidable (key ∈ f.journal.drop (f.journal.length - mark)))

/-- Every key of the journal is younger or older than the mark. -/
theorem mem_journal_iff {mark : Nat} :
    key ∈ f.journal ↔ key ∈ f.journal.take (f.journal.length - mark) ∨ f.Older mark key := by
  rw [Older, ← List.mem_append, List.take_append_drop]

/-- The journal is cut back to the mark, and what is left of the forest is recorded in what is left
of the journal. -/
theorem Orderly.truncate (orderly : f.Orderly) (mark : Nat) : (f.truncate mark).2.Orderly := by
  obtain ⟨gone, -, -, -, without, dead⟩ :=
    removeAllYoung_takes (f.journal.drop (f.journal.length - mark))
      (f.journal.take (f.journal.length - mark)) orderly
  have rest := without.orderly orderly
  refine ⟨⟨rest.linked.live, rest.linked.single⟩, rest.once, rest.keys, fun key live => ?_,
    orderly.descending.sublist (List.drop_sublist _ _), fun key mem => ?_⟩
  · have known := orderly.recorded key (without.isLive_iff.1 live).1
    exact (mem_journal_iff.1 known).resolve_left fun young => dead key young live
  · exact without.nextKey.symm ▸ orderly.issued key (List.mem_of_mem_drop mem)

/-! ## Forests that have come about -/

namespace Operation

/-- The forest as an operation leaves it. A refused one leaves it as it was. -/
def outcome (f : ReservationForest) (op : Operation) : ReservationForest :=
  (op.apply f).toOption.getD f

/-- The forest that some operations have made of the empty one. -/
def reached (ops : List Operation) : ReservationForest := ops.foldl outcome .empty

/-- One operation keeps the forest orderly, one case for each of them. -/
theorem orderly_outcome (orderly : f.Orderly) (op : Operation) : (outcome f op).Orderly := by
  cases op with
  | insert node => exact orderly.insert node
  | attach parent child =>
    unfold outcome
    cases done : apply f (.attach parent child) with
    | error fault => exact orderly
    | ok g => exact orderly.attach done
  | setRoot key => exact orderly.setRoot key
  | remove key => exact orderly.remove key
  | truncate mark => exact orderly.truncate mark

/-- So every forest is orderly that the operations lead to. -/
theorem orderly_reached (ops : List Operation) : (reached ops).Orderly := by
  have all (ops : List Operation) : ∀ {f : ReservationForest}, f.Orderly →
      (ops.foldl outcome f).Orderly := by
    induction ops with
    | nil => exact id
    | cons op ops ih => exact fun orderly => ih (orderly_outcome orderly op)
  exact all ops .empty

end Operation

end Conference.ReservationForest
