import Conference.Proofs.Reservation.Sweep

/-!
# What a truncation sweeps along

A truncation deletes the young nodes, the youngest first, and keeps the old children of each. An old
node further down goes too if it is still below a young child of a young node when that goes. It is
so just if every young node on the way from that child down to it is older than the node that goes:
a younger one would have gone before, and would have taken the rest of the way along or set it free.

The invariant of the loop tells which nodes are gone from the young ones that have been dealt with,
and from the links at the start alone. The ancestors of one node are above one another, hence what
takes a node takes all below it, as far down as there are only older young nodes on the way.
-/

namespace Conference.ReservationForest

variable {f g : ReservationForest} {old : Nat → Prop} {upper middle lower node key : Nat}

/-- There is a young child of the upper node on the way to the lower one, and the young nodes from
there on are all older than the upper node. -/
def Sweeps (f : ReservationForest) (old : Nat → Prop) (upper lower : Nat) : Prop :=
  ∃ child, f.parent? child = some upper ∧ ¬ old child ∧ f.AtOrAbove child lower
    ∧ ∀ node, f.AtOrAbove child node → f.AtOrAbove node lower → ¬ old node → node < upper

/-- A node takes itself and what it sweeps along. -/
def Takes (f : ReservationForest) (old : Nat → Prop) (upper lower : Nat) : Prop :=
  lower = upper ∨ f.Sweeps old upper lower

/-- Some young node sweeps the node along in a truncation to the mark. -/
def SweptAlong (f : ReservationForest) (mark key : Nat) : Prop :=
  ∃ upper, ¬ f.Older mark upper ∧ f.Sweeps (f.Older mark) upper key

/-! ## Ways up -/

theorem atOrAbove_total (left : f.AtOrAbove upper lower) (right : f.AtOrAbove node lower) :
    f.AtOrAbove upper node ∨ f.AtOrAbove node upper := by
  induction left with
  | refl => exact .inr right
  | @tail parent child up found ih =>
    rcases Relation.ReflTransGen.cases_tail right with rfl | ⟨parent', right', found'⟩
    · exact .inl (up.tail found)
    · obtain rfl := Option.some.inj (found.symm.trans found')
      exact ih right'

theorem Acyclic.antisymm (acyclic : f.Acyclic) (down : f.AtOrAbove upper lower)
    (up : f.AtOrAbove lower upper) :
    upper = lower := by
  rcases Relation.reflTransGen_iff_eq_or_transGen.1 down with same | above
  · exact same.symm
  · exact absurd (above.trans_left up) (acyclic upper)

/-- Every node on the way down from a node comes after the child that leads there. -/
theorem Acyclic.atOrAbove_child (acyclic : f.Acyclic) {child : Nat}
    (found : f.parent? child = some upper) (down : f.AtOrAbove child lower)
    (from_upper : f.AtOrAbove upper node) (to_lower : f.AtOrAbove node lower) :
    node = upper ∨ f.AtOrAbove child node := by
  rcases Relation.ReflTransGen.cases_head from_upper with same | ⟨child', found', down'⟩
  · exact .inl same.symm
  · rcases atOrAbove_total down (down'.trans to_lower) with first | second
    · exact .inr (first.trans down')
    · by_cases same : child' = child
      · exact .inr (same ▸ down')
      · exact absurd second (not_atOrAbove_sibling (acyclic upper) found' found same)

/-- A way down that some links still make is the only one. -/
theorem Acyclic.atOrAbove_of_links (acyclic : f.Acyclic) (linked : f.WellLinked)
    (links : ∀ l ∈ g.links, l ∈ f.links) (way : g.AtOrAbove upper lower)
    (down : f.AtOrAbove upper node) (rest : f.AtOrAbove node lower) :
    g.AtOrAbove node lower := by
  induction way with
  | refl =>
    rw [acyclic.antisymm down rest]
    exact .refl
  | @tail parent child _ found ih =>
    rcases Relation.ReflTransGen.cases_tail rest with same | ⟨parent', rest', found'⟩
    · rw [same]
      exact .refl
    · have found₀ := linked.parent?_eq_some.2 (links _ (mem_links_of_parent? found))
      obtain rfl := Option.some.inj (found₀.symm.trans found')
      exact (ih rest').tail found

theorem acyclic_of_rank (rank : Nat → Nat) (ranked : ∀ l ∈ f.links, rank l.1 < rank l.2) :
    f.Acyclic := by
  have rises {upper lower : Nat} (above : f.Above upper lower) : rank upper < rank lower := by
    induction above with
    | single found => exact ranked _ (mem_links_of_parent? found)
    | tail _ found ih => exact Nat.lt_trans ih (ranked _ (mem_links_of_parent? found))
  exact fun key cycle => Nat.lt_irrefl _ (rises cycle)

/-! ## What one node takes -/

/-- No young node on the way is younger than the one that takes. -/
theorem Takes.le (acyclic : f.Acyclic) (taken : f.Takes old upper lower)
    (from_upper : f.AtOrAbove upper node) (to_lower : f.AtOrAbove node lower) (young : ¬ old node) :
    node ≤ upper := by
  rcases taken with rfl | ⟨child, found, -, down, older⟩
  · exact Nat.le_of_eq (acyclic.antisymm from_upper to_lower).symm
  · rcases acyclic.atOrAbove_child found down from_upper to_lower with rfl | below
    · exact Nat.le_refl _
    · exact Nat.le_of_lt (older node below to_lower young)

/-- What takes a node takes what is below it, unless there is a young node on the way that is as
young. -/
theorem Takes.trans (young : ¬ old upper) (taken : f.Takes old upper middle)
    (down : f.AtOrAbove middle lower)
    (older : ∀ node, f.AtOrAbove middle node → f.AtOrAbove node lower → ¬ old node → node < upper) :
    f.Takes old upper lower := by
  rcases taken with rfl | ⟨child, found, young', down', older'⟩
  · exact absurd (older middle .refl down young) (Nat.lt_irrefl _)
  · refine .inr ⟨child, found, young', down'.trans down,
      fun node from_child to_lower young_node => ?_⟩
    rcases atOrAbove_total to_lower down with before | after
    · exact older' node from_child before young_node
    · exact older node after to_lower young_node

/-! ## The loop -/

/-- Some young nodes have been dealt with, and `g` is what they have left of `f`. The others are
older. -/
structure InSweep (f : ReservationForest) (old popped keys : List Nat)
    (g : ReservationForest) : Prop where
  without : ∃ gone, f.Without gone g
  live : ∀ key, g.isLive key ↔ f.isLive key ∧ ∀ upper ∈ popped, ¬ f.Takes (· ∈ old) upper key
  young : ∀ upper ∈ popped, upper ∉ old
  left : ∀ key, f.isLive key → key ∉ old → key ∈ popped ∨ key ∈ keys
  older : ∀ upper ∈ popped, ∀ key ∈ keys, key < upper
  descending : keys.Pairwise (· > ·)
  disjoint : ∀ key ∈ keys, key ∉ old

namespace InSweep

variable {old popped keys : List Nat}

section Step

variable (orderly : f.Orderly) (acyclic : f.Acyclic) (sweep : f.InSweep old popped (key :: keys) g)

include sweep

theorem links : ∀ l ∈ g.links, l ∈ f.links := by
  obtain ⟨gone, without⟩ := sweep.without
  exact fun l mem => (without.mem_links_iff.1 mem).1

theorem orderly_of_start (orderly : f.Orderly) : g.Orderly := by
  obtain ⟨gone, without⟩ := sweep.without
  exact without.orderly orderly

theorem mem_links (there : (upper, lower) ∈ f.links) (live : g.isLive upper)
    (live' : g.isLive lower) :
    (upper, lower) ∈ g.links := by
  obtain ⟨gone, without⟩ := sweep.without
  exact without.mem_links_iff.2
    ⟨there, (without.isLive_iff.1 live).2, (without.isLive_iff.1 live').2⟩

include orderly acyclic

/-- If a node that is left is taken next, then the whole way down to it is left. -/
theorem live_between (live : g.isLive lower) (taken : f.Takes (· ∈ old) key lower)
    (from_key : f.AtOrAbove key node) (to_lower : f.AtOrAbove node lower) : g.isLive node := by
  obtain ⟨live₀, stays⟩ := (sweep.live lower).1 live
  refine (sweep.live node).2 ⟨orderly.linked.live_of_atOrAbove live₀ to_lower,
    fun upper mem taken' => ?_⟩
  -- a node dealt with before is younger than the next one; with a node on the way it would have
  -- taken the lower one
  refine stays upper mem (taken'.trans (sweep.young upper mem) to_lower
    fun between from_node to_lower' young => ?_)
  have le := taken.le acyclic (from_key.trans from_node) to_lower' young
  have less := sweep.older upper mem key List.mem_cons_self
  omega

/-- A node that is still below the next one is taken by it. -/
theorem takes_of_atOrAbove (live : g.isLive lower) (down : (g.rescue old key).AtOrAbove key lower) :
    f.Takes (· ∈ old) key lower := by
  have linked := (sweep.orderly_of_start orderly).linked
  rcases Relation.ReflTransGen.cases_head down with rfl | ⟨child, found, down'⟩
  · exact .inl rfl
  · obtain ⟨there, rescued⟩ := mem_links_rescue.1 (mem_links_of_parent? found)
    have found₀ : f.parent? child = some key :=
      orderly.linked.parent?_eq_some.2 (sweep.links _ there)
    have way : g.AtOrAbove child lower :=
      Relation.ReflTransGen.mono (fun _ _ found =>
        linked.parent?_eq_some.2 (mem_links_rescue.1 (mem_links_of_parent? found)).1) _ _ down'
    have way₀ : f.AtOrAbove child lower :=
      Relation.ReflTransGen.mono (fun _ _ found =>
        orderly.linked.parent?_eq_some.2 (sweep.links _ (mem_links_of_parent? found))) _ _ way
    refine .inr ⟨child, found₀, rescued there, way₀, fun node from_child to_lower young => ?_⟩
    have rest := acyclic.atOrAbove_of_links orderly.linked sweep.links way from_child to_lower
    obtain ⟨live_node, stays⟩ := (sweep.live node).1 (linked.live_of_atOrAbove live rest)
    -- a young node that is left has not been dealt with, and the next one is not below its own
    -- child
    rcases sweep.left node live_node young with dealt | same | later
    · exact absurd (.inl rfl) (stays node dealt)
    · exact (acyclic key (Relation.TransGen.head' found₀ from_child)).elim
    · exact (List.pairwise_cons.1 sweep.descending).1 node ‹_›

/-- A node that is left and is taken next is still below the one that takes it. -/
theorem atOrAbove_of_takes (live : g.isLive lower) (taken : f.Takes (· ∈ old) key lower) :
    (g.rescue old key).AtOrAbove key lower := by
  have linked : (g.rescue old key).WellLinked :=
    (orderly_foldl_detach _ (sweep.orderly_of_start orderly)).linked
  have alive {node : Nat} (from_key : f.AtOrAbove key node) (to_lower : f.AtOrAbove node lower) :
      g.isLive node :=
    sweep.live_between orderly acyclic live taken from_key to_lower
  rcases taken with rfl | ⟨child, found, young, down, -⟩
  · exact .refl
  · have first : (g.rescue old key).parent? child = some key := by
      refine linked.parent?_eq_some.2 (mem_links_rescue.2 ⟨?_, fun _ => young⟩)
      exact sweep.mem_links (mem_links_of_parent? found) (alive .refl (down.head found))
        (alive (.single found) down)
    have way {node : Nat} (from_child : f.AtOrAbove child node) :
        f.AtOrAbove node lower → (g.rescue old key).AtOrAbove child node := by
      induction from_child with
      | refl => exact fun _ => .refl
      | @tail parent node above found' ih =>
        intro rest
        refine (ih (rest.head found')).tail
          (linked.parent?_eq_some.2 (mem_links_rescue.2 ⟨?_, fun rescued => ?_⟩))
        · exact sweep.mem_links (mem_links_of_parent? found') (alive (above.head found)
            (rest.head found')) (alive ((above.tail found').head found) rest)
        · -- another child of the node that goes is not on the way
          have found'' := orderly.linked.parent?_eq_some.2 (sweep.links _ rescued)
          obtain rfl := Option.some.inj (found'.symm.trans found'')
          exact (acyclic _ (Relation.TransGen.head' found above)).elim
    exact (way down .refl).head first

/-- One turn of the loop: the next node takes what it takes. -/
theorem removeYoung : f.InSweep old (key :: popped) keys (g.removeYoung old key).2 := by
  obtain ⟨gone, without⟩ := sweep.without
  obtain ⟨more, -, mem, -, without'⟩ := removeYoung_takes (without.orderly orderly) old key
  obtain ⟨older, descending⟩ := List.pairwise_cons.1 sweep.descending
  refine ⟨⟨gone ++ more, without.trans without'⟩, fun lower => ?_, ?_, fun node live young =>
    ?_, ?_, descending, fun node later => sweep.disjoint node (List.mem_cons_of_mem _ later)⟩
  · rw [without'.isLive_iff, mem, List.forall_mem_cons, @and_comm (¬ _), ← and_assoc, ← sweep.live]
    refine and_congr_right fun live => not_congr ?_
    rw [and_iff_right live]
    exact ⟨sweep.takes_of_atOrAbove orderly acyclic live,
      sweep.atOrAbove_of_takes orderly acyclic live⟩
  · exact List.forall_mem_cons.2 ⟨sweep.disjoint key List.mem_cons_self, sweep.young⟩
  · -- a young key was dealt with, is dealt with now, or comes later
    rcases sweep.left node live young with dealt | same | later
    · exact .inl (List.mem_cons_of_mem _ dealt)
    · exact .inl List.mem_cons_self
    · exact .inr ‹_›
  · exact List.forall_mem_cons.2 ⟨older, fun upper dealt node later =>
      sweep.older upper dealt node (List.mem_cons_of_mem _ later)⟩

end Step

theorem removeAllYoung (orderly : f.Orderly) (acyclic : f.Acyclic) (keys : List Nat) :
    ∀ {popped : List Nat} {g : ReservationForest}, f.InSweep old popped keys g →
      f.InSweep old (keys.reverse ++ popped) [] (g.removeAllYoung old keys).2 := by
  induction keys with
  | nil => exact id
  | cons key keys ih =>
    intro popped g sweep
    rw [List.reverse_cons, List.append_assoc]
    exact ih (sweep.removeYoung orderly acyclic)

end InSweep

/-! ## Truncations -/

variable {mark : Nat}

/-- A young node and an old one are different, since no key is in the journal twice. -/
theorem Orderly.not_older (orderly : f.Orderly)
    (young : key ∈ f.journal.take (f.journal.length - mark)) :
    ¬ f.Older mark key := by
  have different : f.journal.Nodup := orderly.descending.imp fun {_ _} less => Nat.ne_of_gt less
  exact fun older => List.disjoint_take_drop different (Nat.le_refl _) young older

theorem isLive_truncate (orderly : f.Orderly) (acyclic : f.Acyclic) (mark key : Nat) :
    (f.truncate mark).2.isLive key ↔ f.isLive key ∧ f.Older mark key ∧ ¬ f.SweptAlong mark key := by
  -- before the sweep nothing has gone, and all young keys are still to be removed
  have start : f.InSweep (f.journal.drop (f.journal.length - mark)) []
      (f.journal.take (f.journal.length - mark)) f :=
    { without := ⟨[], .refl f⟩
      live := by simp
      young := nofun
      left := fun key live young =>
        .inr ((mem_journal_iff.1 (orderly.recorded key live)).resolve_right young)
      older := nofun
      descending := orderly.descending.sublist (List.take_sublist _ _)
      disjoint := fun key young => orderly.not_older young }
  have result := (start.removeAllYoung orderly acyclic).live key
  rw [List.append_nil] at result
  simp only [List.mem_reverse] at result
  rw [truncate]
  refine result.trans (and_congr_right fun live => ⟨fun stays => ⟨?_, ?_⟩, ?_⟩)
  · refine (mem_journal_iff.1 (orderly.recorded key live)).resolve_left fun young => ?_
    exact stays key young (.inl rfl)
  · rintro ⟨upper, young, child, found, rest⟩
    have known := orderly.recorded upper (orderly.linked.live_of_parent? found)
    exact stays upper ((mem_journal_iff.1 known).resolve_right young) (.inr ⟨child, found, rest⟩)
  · rintro ⟨older, kept⟩ upper young (rfl | sweeps)
    · exact orderly.not_older young older
    · exact kept ⟨upper, orderly.not_older young, sweeps⟩

/-- What sweeps an old parent along sweeps its old children along. -/
theorem SweptAlong.child (acyclic : f.Acyclic) {parent : Nat} (swept : f.SweptAlong mark parent)
    (found : f.parent? key = some parent) (older_parent : f.Older mark parent)
    (older : f.Older mark key) :
    f.SweptAlong mark key := by
  obtain ⟨upper, young, sweeps⟩ := swept
  have taken : f.Takes (f.Older mark) upper key := by
    refine Takes.trans young (.inr sweeps) (.single found)
      fun node from_parent to_key young_node => ?_
    -- there are only the parent and the child on the way, and both are old
    rcases acyclic.atOrAbove_child found .refl from_parent to_key with rfl | below
    · exact absurd older_parent young_node
    · exact absurd (acyclic.antisymm below to_key ▸ older) young_node
  rcases taken with rfl | sweeps
  · exact absurd older young
  · exact ⟨upper, young, sweeps⟩

/-- A truncation of a forest without cycles leaves the nodes that were created before the mark and
are not swept along. It tells how many nodes go. A node that is left is what it was, without its
parent if that was young and with the same parent otherwise. The marks from then on go on from the
smaller one. No node is swept along if young children are younger than their parents. -/
theorem truncate_leaves_unswept (ops : List Operation) (acyclic : (Operation.reached ops).Acyclic)
    (mark : Nat) :
    let f := Operation.reached ops
    let g := (f.truncate mark).2
    (∀ key, g.isLive key ↔ f.isLive key ∧ f.Older mark key ∧ ¬ f.SweptAlong mark key)
    ∧ (f.truncate mark).1 + g.size = f.size
    ∧ (∀ key, g.isLive key → g.get? key = f.get? key)
    ∧ (∀ key parent, g.isLive key → f.parent? key = some parent →
      (f.Older mark parent → g.parent? key = some parent)
        ∧ (¬ f.Older mark parent → g.parent? key = none))
    ∧ (∀ key, f.parent? key = none → g.parent? key = none)
    ∧ g.mark = min mark f.mark
    ∧ ((∀ upper child, f.parent? child = some upper → ¬ f.Older mark child → upper < child) →
      ∀ key, g.isLive key ↔ f.isLive key ∧ f.Older mark key) := by
  intro f g
  have orderly : f.Orderly := Operation.orderly_reached ops
  obtain ⟨gone, different, live, count, without, -⟩ :=
    removeAllYoung_takes (f.journal.drop (f.journal.length - mark))
      (f.journal.take (f.journal.length - mark)) orderly
  have leaves := isLive_truncate orderly acyclic mark
  have parents (key parent : Nat) : g.parent? key = some parent ↔ f.parent? key = some parent
      ∧ g.isLive parent ∧ g.isLive key := without.parent?_eq_some orderly
  refine ⟨leaves, ?_, fun key live' => without.get? (without.isLive_iff.1 live').2,
    fun key parent live' found => ⟨?_, ?_⟩, fun key free => ?_, ?_, fun ascending key => ?_⟩
  · -- the keys that are counted are live ones, each counted once
    show (f.removeAllYoung _ _).1 + _ = _
    rw [count]
    exact without.length_add_size orderly different live
  · intro older_parent
    obtain ⟨-, older, kept⟩ := (leaves key).1 live'
    refine (parents key parent).2
      ⟨found, (leaves parent).2 ⟨orderly.linked.live_of_parent? found, older_parent, ?_⟩, live'⟩
    exact fun swept => kept (swept.child acyclic found older_parent older)
  · intro young
    rw [Option.eq_none_iff_forall_ne_some]
    intro parent' found'
    obtain ⟨same, live_parent, -⟩ := (parents key parent').1 found'
    obtain rfl := Option.some.inj (found.symm.trans same)
    exact young ((leaves _).1 live_parent).2.1
  · rw [Option.eq_none_iff_forall_ne_some]
    intro parent found
    rw [((parents key parent).1 found).1] at free
    cases free
  · show (f.journal.drop _).length = min mark f.journal.length
    rw [List.length_drop]
    omega
  · rw [leaves]
    refine and_congr_right fun _ => and_iff_left ?_
    rintro ⟨upper, -, child, found, young, down, older⟩
    exact Nat.lt_asymm (ascending upper child found young) (older child .refl down young)

/-- An old node that becomes a child of a young one, beside a young sibling. -/
def gathered : List Operation :=
  [.insert (booking "a"), .insert (booking "b"), .insert (booking "c"), .attach 1 0, .attach 1 2]

/-- The old node is left without a parent when the two young ones go. -/
theorem gathered_leaves_older :
    let f := Operation.reached gathered
    let g := (f.truncate 1).2
    f.Acyclic ∧ f.Older 1 0 ∧ f.parent? 0 = some 1 ∧ g.isLive 0
      ∧ g.parent? 0 = none ∧ ¬ f.SweptAlong 1 0
      ∧ (f.truncate 1).1 + g.size = 3 ∧ g.size = 1 ∧ g.mark = 1 := by
  intro f g
  -- the young node above is a root, so its rank may be the greatest
  have acyclic : f.Acyclic := acyclic_of_rank (if · = 1 then 0 else 1) (by decide)
  obtain ⟨leaves, count, -, parents, -, mark, -⟩ := truncate_leaves_unswept gathered acyclic 1
  have older : f.Older 1 0 := by decide
  have young : ¬ f.Older 1 1 := by decide
  have live : g.isLive 0 := by decide
  have parent : f.parent? 0 = some 1 := by decide
  have size : f.size = 3 := by decide
  rw [size] at count
  exact ⟨acyclic, older, parent, live, (parents 0 1 live parent).2 young, ((leaves 0).1 live).2.2,
    count, by decide, mark⟩

/-- An old node that is put below a young one, which is put below a younger one. -/
def stacked : List Operation :=
  [.insert (booking "a"), .insert (booking "b"), .insert (booking "c"), .attach 2 1, .attach 1 0]

/-- The youngest node goes first and takes both others along, the old one too. -/
theorem stacked_sweeps_older :
    let f := Operation.reached stacked
    f.Acyclic ∧ f.isLive 0 ∧ f.Older 1 0 ∧ f.parent? 0 = some 1 ∧ ¬ f.Older 1 1
      ∧ ¬ (f.truncate 1).2.isLive 0 ∧ (f.truncate 1).1 = 3 :=
  ⟨acyclic_of_rank (2 - ·) (by decide), rfl, by decide, rfl, by decide, by decide, rfl⟩

end Conference.ReservationForest
