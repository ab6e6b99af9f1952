import Conference.Proofs.Reservation.Growth

/-!
# Truncation takes growth back

The nodes made after a mark are deleted one by one, each with its subtree. For any mark this only
takes nodes and links away. When the forest has grown since the mark was taken, more can be said:
the invariant of the loop is that the forest is the old one with some of the new nodes left, and
with links among those that are left. At its end none are left.
-/

namespace Conference.ReservationForest

/-! ## Deletion only takes away -/

/-- `g` is `f` without some of its nodes and links. -/
structure Shrinks (f g : ReservationForest) : Prop where
  entries : ∀ e ∈ g.entries, e ∈ f.entries
  links : ∀ l ∈ g.links, l ∈ f.links
  journal : g.journal = f.journal
  nextKey : g.nextKey = f.nextKey
  root : f.root = none → g.root = none

namespace Shrinks

variable {f g h : ReservationForest}

theorem refl (f : ReservationForest) : f.Shrinks f := ⟨fun _ he => he, fun _ hl => hl, rfl, rfl, id⟩

/-- What is taken away in two steps is taken away. -/
theorem trans (first : f.Shrinks g) (second : g.Shrinks h) : f.Shrinks h where
  entries := fun e he => first.entries e (second.entries e he)
  links := fun l hl => first.links l (second.links l hl)
  journal := second.journal.trans first.journal
  nextKey := second.nextKey.trans first.nextKey
  root := fun none => second.root (first.root none)

/-- A forest being built stays one: its keys, links and journal have been issued all the same. -/
theorem inProgress (shrinks : f.Shrinks g) (start : f.InProgress) : g.InProgress where
  entries := by
    rw [shrinks.nextKey]
    exact fun e he => start.entries e (shrinks.entries e he)
  links := by
    rw [shrinks.nextKey]
    exact fun l hl => start.links l (shrinks.links l hl)
  journal := by
    rw [shrinks.nextKey, shrinks.journal]
    exact start.journal
  root := shrinks.root start.root

end Shrinks

/-- Cutting a node off takes links away, and nothing else. -/
theorem shrinks_detach (f : ReservationForest) (key : Nat) : f.Shrinks (f.detach key) where
  entries := fun _ he => he
  links := fun _ hl => (List.mem_filter.1 hl).1
  journal := rfl
  nextKey := rfl
  root := id

/-- By induction on the nodes cut off. -/
theorem shrinks_foldl_detach (keys : List Nat) :
    ∀ f : ReservationForest, f.Shrinks (keys.foldl detach f) := by
  induction keys with
  | nil => exact fun f => .refl f
  | cons key keys ih => exact fun f => (f.shrinks_detach key).trans (ih (f.detach key))

/-- Discarding keys drops their entries and every link at them. -/
theorem shrinks_discard (f : ReservationForest) (keys : List Nat) : f.Shrinks (f.discard keys) where
  entries := fun _ he => (List.mem_filter.1 he).1
  links := fun _ hl => (List.mem_filter.1 hl).1
  journal := rfl
  nextKey := rfl
  root := by
    intro none
    show f.root.filter _ = Option.none
    rw [none]
    rfl

/-- Whether the node is there or not, and with its old children detached first. -/
theorem shrinks_removeYoung (old : List Nat) (f : ReservationForest) (key : Nat) :
    f.Shrinks (f.removeYoung old key).2 := by
  unfold removeYoung
  split
  · have rescued := shrinks_foldl_detach ((f.children key).filter (old.contains ·)) f
    unfold remove
    split
    · exact rescued.trans ((shrinks_detach _ key).trans (shrinks_discard _ _))
    · exact rescued
  · exact .refl f

/-- Truncation only takes away, whatever the mark. -/
theorem shrinks_removeAllYoung (old keys : List Nat) :
    ∀ f : ReservationForest, f.Shrinks (f.removeAllYoung old keys).2 := by
  induction keys with
  | nil => exact fun f => .refl f
  | cons key keys ih => exact fun f => (shrinks_removeYoung old f key).trans (ih _)

/-- Whatever the mark, truncation leaves a forest in progress. -/
theorem InProgress.truncate {f : ReservationForest} (start : f.InProgress) (mark : Nat) :
    (f.truncate mark).2.InProgress := by
  have rest := shrinks_removeAllYoung (f.journal.drop (f.journal.length - mark))
    (f.journal.take (f.journal.length - mark)) f
  have kept := rest.inProgress start
  refine ⟨kept.entries, kept.links, fun key hk => ?_, kept.root⟩
  show key < (f.removeAllYoung _ _).2.nextKey
  rw [rest.nextKey]
  exact start.journal key (List.mem_of_mem_drop hk)

/-! ## Truncation of what has grown -/

/-- `g` is `f` with some new nodes left, all of them under the given keys. -/
structure Remainder (f g : ReservationForest) (keys : List Nat) : Prop where
  entries : ∃ left, g.entries = f.entries ++ left ∧
    ∀ e ∈ left, e.key ∈ keys ∧ f.nextKey ≤ e.key
  links : ∃ made, g.links = f.links ++ made ∧
    ∀ l ∈ made, (g.isLive l.1 ∧ f.nextKey ≤ l.1) ∧ g.isLive l.2 ∧ f.nextKey ≤ l.2
  root : g.root = none

section Subtree

variable {f : ReservationForest}

/-- A subtree stays within any set of keys that links do not leave. -/
theorem subtreeWithin_closed {p : Nat → Prop} (closed : ∀ l ∈ f.links, p l.1 → p l.2) :
    ∀ (levels : Nat) {key : Nat}, p key → ∀ k ∈ f.subtreeWithin levels key, p k := by
  intro levels
  induction levels with
  | zero => intro key _ k hk; cases hk
  | succ levels ih =>
    intro key hkey k hk
    rw [subtreeWithin] at hk
    split at hk
    · rcases List.mem_cons.1 hk with rfl | hk
      · exact hkey
      · obtain ⟨child, hchild, hk⟩ := List.mem_flatMap.1 hk
        exact ih (closed _ (mem_children.1 hchild) hkey) k hk
    · cases hk

/-- A live node belongs to its own subtree, however much fuel there is. -/
theorem mem_subtree_self {key : Nat} (live : f.isLive key) : key ∈ f.subtree key := by
  obtain ⟨e, he, -⟩ := isLive_iff.1 live
  have some_entry : f.size ≠ 0 := fun none => by
    rw [size, List.length_eq_zero_iff] at none
    rw [none] at he
    cases he
  obtain ⟨levels, hl⟩ := Nat.exists_eq_succ_of_ne_zero some_entry
  rw [subtree, hl, subtreeWithin, if_pos live]
  exact List.mem_cons_self

end Subtree

namespace Remainder

variable {f g : ReservationForest} {key : Nat} {keys : List Nat}

/-- The links out of a new node lead to new nodes. -/
theorem links_closed (rest : f.Remainder g keys) (start : f.InProgress) :
    ∀ l ∈ g.links, f.nextKey ≤ l.1 → f.nextKey ≤ l.2 := by
  intro l hl young
  obtain ⟨made, links, ends⟩ := rest.links
  rw [links, List.mem_append] at hl
  rcases hl with old | made
  · have := (start.links l old).1
    omega
  · exact (ends l made).2.2

/-- The old entries stay when young keys are discarded, and `key` is no more among the new ones. -/
theorem entries_discard (rest : f.Remainder g (key :: keys)) (start : f.InProgress)
    {gone : List Nat} (young : ∀ k ∈ gone, f.nextKey ≤ k) (this : key ∈ gone) :
    ∃ left, ((g.detach key).discard gone).entries = f.entries ++ left ∧
      ∀ e ∈ left, e.key ∈ keys ∧ f.nextKey ≤ e.key := by
  obtain ⟨left, entries, hleft⟩ := rest.entries
  refine ⟨left.filter fun e => !gone.contains e.key, ?_, ?_⟩
  · show g.entries.filter (fun e => !gone.contains e.key) = _
    rw [entries, List.filter_append]
    congr 1
    rw [List.filter_eq_self]
    intro e he
    have below := start.entries e he
    -- only young keys go, and the old entries have older ones
    have kept : e.key ∉ gone := fun hit => by
      have := young _ hit
      omega
    simpa using kept
  · intro e he
    obtain ⟨he, kept⟩ := List.mem_filter.1 he
    obtain ⟨among, above⟩ := hleft e he
    refine ⟨?_, above⟩
    rcases List.mem_cons.1 among with same | among
    · rw [same] at kept
      simp [this] at kept
    · exact among

/-- The old links stay as well, and the new ones that are left lead between entries that are
left. -/
theorem links_discard (rest : f.Remainder g (key :: keys)) (start : f.InProgress) {gone : List Nat}
    (young : ∀ k ∈ gone, f.nextKey ≤ k) (hkey : f.nextKey ≤ key) :
    ∃ made, ((g.detach key).discard gone).links = f.links ++ made ∧
      ∀ l ∈ made, (((g.detach key).discard gone).isLive l.1 ∧ f.nextKey ≤ l.1)
        ∧ ((g.detach key).discard gone).isLive l.2 ∧ f.nextKey ≤ l.2 := by
  obtain ⟨made, links, ends⟩ := rest.links
  refine ⟨(made.filter fun l => !(l.2 == key)).filter fun l =>
    !gone.contains l.1 && !gone.contains l.2, ?_, ?_⟩
  · show (g.links.filter (fun l => !(l.2 == key))).filter
      (fun l => !gone.contains l.1 && !gone.contains l.2) = _
    rw [links, List.filter_append, List.filter_append]
    congr 1
    rw [List.filter_filter, List.filter_eq_self]
    -- the ends of an old link are old, so neither is deleted
    intro l hl
    have below := start.links l hl
    have first : l.1 ∉ gone := fun hit => by
      have := young _ hit
      omega
    have second : l.2 ∉ gone := fun hit => by
      have := young _ hit
      omega
    have other : l.2 ≠ key := by omega
    simp [first, second, other]
  · intro l hl
    obtain ⟨hl, kept⟩ := List.mem_filter.1 hl
    obtain ⟨⟨live₁, above₁⟩, live₂, above₂⟩ := ends l (List.mem_filter.1 hl).1
    simp only [Bool.and_eq_true, Bool.not_eq_true', List.contains_eq_mem, decide_eq_false_iff_not]
      at kept
    have survives {k : Nat} (live : g.isLive k) (hk : k ∉ gone) :
        ((g.detach key).discard gone).isLive k := by
      obtain ⟨e, he, rfl⟩ := isLive_iff.1 live
      exact isLive_iff.2 ⟨e, List.mem_filter.2 ⟨he, by simpa using hk⟩, rfl⟩
    exact ⟨⟨survives live₁ kept.1, above₁⟩, survives live₂ kept.2, above₂⟩

/-- Deleting new nodes, detached from their parent first, leaves the old ones alone. -/
theorem discard (rest : f.Remainder g (key :: keys)) (start : f.InProgress) {gone : List Nat}
    (young : ∀ k ∈ gone, f.nextKey ≤ k) (this : key ∈ gone) (hkey : f.nextKey ≤ key) :
    f.Remainder ((g.detach key).discard gone) keys where
  entries := rest.entries_discard start young this
  links := rest.links_discard start young hkey
  root := by
    show g.root.filter _ = none
    rw [rest.root]
    rfl

/-- One step of the loop: the first of the keys is dealt with. -/
theorem removeYoung (rest : f.Remainder g (key :: keys)) (start : f.InProgress)
    (hkey : f.nextKey ≤ key) : f.Remainder (g.removeYoung f.journal key).2 keys := by
  unfold ReservationForest.removeYoung
  split
  · rename_i live
    -- the children of a new node are new, so none of them has to be rescued
    have no_old : (g.children key).filter (f.journal.contains ·) = [] := by
      rw [List.filter_eq_nil_iff]
      intro child hchild
      have above := rest.links_closed start _ (mem_children.1 hchild) hkey
      intro old
      have below := start.journal child (by simpa using old)
      omega
    rw [no_old, List.foldl_nil, remove, if_pos live]
    have detached_live : (g.detach key).isLive key := live
    refine rest.discard start ?_ (mem_subtree_self detached_live) hkey
    refine subtreeWithin_closed (p := fun k => f.nextKey ≤ k) ?_ _ hkey
    intro l hl
    exact rest.links_closed start l (List.mem_filter.1 hl).1
  · rename_i dead
    obtain ⟨left, entries, hleft⟩ := rest.entries
    refine ⟨⟨left, entries, fun e he => ⟨?_, (hleft e he).2⟩⟩, rest.links, rest.root⟩
    rcases List.mem_cons.1 (hleft e he).1 with same | among
    · exact absurd (isLive_iff.2 ⟨e, entries ▸ List.mem_append_right _ he, same⟩) dead
    · exact among

/-- After the loop none of the young nodes are left, by induction on those to be removed. -/
theorem removeAllYoung (start : f.InProgress) :
    ∀ (keys : List Nat) {g : ReservationForest}, f.Remainder g keys →
      (∀ key ∈ keys, f.nextKey ≤ key) → f.Remainder (g.removeAllYoung f.journal keys).2 [] := by
  intro keys
  induction keys with
  | nil => intro g rest _; exact rest
  | cons key keys ih =>
    intro g rest young
    have step := rest.removeYoung start (young key List.mem_cons_self)
    exact ih step fun k hk => young k (List.mem_cons_of_mem _ hk)

/-- When no key is left, no new node and no new link is. -/
theorem eq_of_nil (rest : f.Remainder g []) (start : f.InProgress) :
    g.entries = f.entries ∧ g.links = f.links := by
  obtain ⟨left, entries, hleft⟩ := rest.entries
  obtain ⟨made, links, ends⟩ := rest.links
  have no_entry : left = [] := by
    rw [List.eq_nil_iff_forall_not_mem]
    intro e he
    cases (hleft e he).1
  rw [no_entry, List.append_nil] at entries
  -- a link of what is left would have a young end, and no young node is left
  have no_link : made = [] := by
    rw [List.eq_nil_iff_forall_not_mem]
    intro l hl
    obtain ⟨⟨live, above⟩, -⟩ := ends l hl
    obtain ⟨e, he, same⟩ := isLive_iff.1 live
    have below := start.entries e (entries ▸ he)
    omega
  rw [no_link, List.append_nil] at links
  exact ⟨entries, links⟩

end Remainder

/-- Truncating a forest that has grown gives back what it was, but for the keys given out. -/
theorem truncate_of_grows {f g : ReservationForest} {new : List Entry} (start : f.InProgress)
    (grows : f.Grows g new) : (g.truncate f.mark).2 = { f with nextKey := g.nextKey } := by
  have young_length : g.journal.length - f.mark = (new.map (·.key)).reverse.length := by
    rw [grows.journal, List.length_append, mark, Nat.add_sub_cancel]
  have young : g.journal.take (g.journal.length - f.mark) = (new.map (·.key)).reverse := by
    rw [young_length, grows.journal, List.take_left]
  have old : g.journal.drop (g.journal.length - f.mark) = f.journal := by
    rw [young_length, grows.journal, List.drop_left]
  -- everything above the mark is new, and links of new nodes lead to new nodes
  have whole : f.Remainder g (new.map (·.key)).reverse := by
    refine ⟨⟨new, grows.entries, fun e he => ?_⟩, ?_, grows.root.trans start.root⟩
    · have mem := List.mem_map_of_mem (f := (·.key)) he
      exact ⟨List.mem_reverse.2 mem, (grows.fresh _ mem).1⟩
    · obtain ⟨made, links, ends⟩ := grows.links
      have live {key : Nat} (hk : key ∈ new.map (·.key)) : g.isLive key := by
        obtain ⟨e, he, rfl⟩ := List.mem_map.1 hk
        exact isLive_iff.2 ⟨e, grows.entries ▸ List.mem_append_right _ he, rfl⟩
      refine ⟨made, links, fun l hl => ?_⟩
      obtain ⟨first, second⟩ := ends l hl
      exact ⟨⟨live first, (grows.fresh _ first).1⟩, live second, (grows.fresh _ second).1⟩
  have none_left := Remainder.removeAllYoung start _ whole fun key hk =>
    (grows.fresh key (List.mem_reverse.1 hk)).1
  obtain ⟨entries, links⟩ := none_left.eq_of_nil start
  unfold truncate
  simp only [young, old]
  rw [ReservationForest.mk.injEq]
  exact ⟨entries, links, rfl, (shrinks_removeAllYoung _ _ g).nextKey,
    none_left.root.trans start.root.symm⟩

end Conference.ReservationForest
