import Conference.Proofs.Reservation.Nodes
import Conference.Proofs.Reservation.Runs
import Mathlib.Data.List.Nodup

/-!
# What a deletion takes

A node that is deleted is detached first. It has no parent then, so that neither it nor any node
below it is on a cycle, whatever the rest of the forest is like: the way up from a node on a cycle
goes round for ever and never comes to a node without a parent. So the traversal that looks for the
nodes to delete comes to an end, and it finds each node that has the deleted one on its way up,
once.
-/

namespace Conference.ReservationForest

variable {f g h : ReservationForest} {key : Nat}

/-- No node has two parents or two entries, and the nodes that are there are in the journal, which
grows by younger keys. -/
structure Orderly (f : ReservationForest) : Prop where
  linked : f.WellLinked
  once : (f.links.map (·.2)).Nodup
  keys : (f.entries.map (·.key)).Nodup
  recorded : ∀ key, f.isLive key → key ∈ f.journal
  descending : f.journal.Pairwise (· > ·)
  issued : ∀ key ∈ f.journal, key < f.nextKey

theorem Orderly.children_nodup (orderly : f.Orderly) (key : Nat) : (f.children key).Nodup :=
  orderly.once.sublist (List.filter_sublist.map _)

/-- Just the live keys have a node. -/
theorem isSome_get? (f : ReservationForest) (key : Nat) : (f.get? key).isSome = f.isLive key := by
  rw [get?, Option.isSome_map, isLive, Bool.eq_iff_iff, List.find?_isSome, List.any_eq_true]

theorem get?_eq_none_iff : f.get? key = none ↔ ¬ f.isLive key := by
  rw [← isSome_get?, Option.not_isSome_iff_eq_none]

theorem isLive_of_get? {node : Reservation} (there : f.get? key = some node) : f.isLive key := by
  rw [← isSome_get?, there]
  rfl

theorem exists_get? (live : f.isLive key) : ∃ node, f.get? key = some node :=
  Option.isSome_iff_exists.1 ((isSome_get? f key).trans live)

/-- What is not in the forest has no parent. -/
theorem WellLinked.parent?_eq_none (linked : f.WellLinked) (dead : ¬ f.isLive key) :
    f.parent? key = none := by
  rw [Option.eq_none_iff_forall_ne_some]
  exact fun parent found => dead (linked.live _ (mem_links_of_parent? found)).2

/-- What is not in the forest has no children. -/
theorem WellLinked.children_eq_nil (linked : f.WellLinked) (dead : ¬ f.isLive key) :
    f.children key = [] := by
  rw [List.eq_nil_iff_forall_not_mem]
  exact fun child below => dead (linked.live_of_parent? (linked.mem_children.1 below))

/-! ## Detached nodes -/

/-- Detaching a node leaves the parents of all others as they are. -/
theorem parent?_detach_of_ne {other : Nat} (different : other ≠ key) :
    (f.detach key).parent? other = f.parent? other := by
  rw [parent?, detach, List.find?_filter, parent?]
  congr 2
  funext l
  by_cases led : l.2 = other
  · simp [led, different]
  · simp [led]

/-- A detached node is missing below its parent, and nowhere else, as it was nowhere else. -/
theorem children_detach (f : ReservationForest) (key parent : Nat) :
    (f.detach key).children parent = (f.children parent).filter (· != key) := by
  rw [children, detach, children, List.filter_map, List.filter_filter, List.filter_filter]
  congr 2
  funext l
  exact Bool.and_comm _ _

/-- A node without a parent cannot be detached any further. -/
theorem detach_of_parent?_eq_none (linked : f.WellLinked) (free : f.parent? key = none) :
    f.detach key = f := by
  have untouched : f.links.filter (fun l => !(l.2 == key)) = f.links := by
    refine List.filter_eq_self.2 fun l there => ?_
    rw [Bool.not_eq_true', beq_eq_false_iff_ne]
    rintro rfl
    rw [linked.parent?_eq_some.2 (there : (l.1, l.2) ∈ f.links)] at free
    cases free
  rw [detach, untouched]

/-- An attachment gives the child its parent and leaves the other parents as they are. -/
theorem parent?_attach_eq {parent child : Nat} (done : f.attach parent child = .ok g) (key : Nat) :
    g.parent? key = if key = child then some parent else f.parent? key := by
  split
  · rename_i same
    rw [same, parent?_attach done]
  · rename_i different
    obtain ⟨-, -, -, -, rfl⟩ := attach_eq_ok_iff.1 done
    rw [parent?, List.find?_append, parent?]
    simp [Ne.symm different]

/-- Detaching a node does not change what is below it. -/
theorem atOrAbove_detach_iff {lower : Nat} :
    (f.detach key).AtOrAbove key lower ↔ f.AtOrAbove key lower := by
  constructor
  · intro down
    refine Relation.ReflTransGen.mono (fun parent child found => ?_) _ _ down
    by_cases top : child = key
    · rw [top, parent?_detach] at found
      cases found
    · rwa [parent?_detach_of_ne top] at found
  · intro down
    induction down with
    | refl => exact .refl
    | @tail parent child _ found ih =>
      -- the one link that has gone leads to the node itself, and from there the way starts anew
      by_cases top : child = key
      · rw [top]
        exact .refl
      · rw [← parent?_detach_of_ne top] at found
        exact ih.tail found

/-- The only way up from a node on a cycle is round the cycle. -/
theorem above_self_of_atOrAbove {upper lower : Nat} (cycle : f.Above lower lower)
    (down : f.AtOrAbove upper lower) :
    f.Above upper upper := by
  induction down using Relation.ReflTransGen.head_induction_on with
  | refl => exact cycle
  | head found _ ih =>
    obtain ⟨last, round, last_found⟩ := Relation.TransGen.tail'_iff.1 ih
    obtain rfl := Option.some.inj (found.symm.trans last_found)
    exact Relation.TransGen.head' found round

/-- Below a node without a parent there is no cycle, since a cycle leads up to its own nodes
again. -/
theorem noCycleBelow_of_parent?_eq_none (free : f.parent? key = none) : f.NoCycleBelow key := by
  intro lower down cycle
  obtain ⟨last, -, found⟩ := Relation.TransGen.tail'_iff.1 (above_self_of_atOrAbove cycle down)
  rw [free] at found
  cases found

/-! ## Subtrees -/

/-- Everything above a live node is live. -/
theorem WellLinked.live_of_atOrAbove (linked : f.WellLinked) {upper lower : Nat}
    (live : f.isLive lower) (down : f.AtOrAbove upper lower) : f.isLive upper := by
  induction down with
  | refl => exact live
  | tail _ found ih => exact ih (linked.live_of_parent? found)

theorem keyOf_eq_some {depth thing : Nat} :
    f.keyOf depth key = some thing ↔ f.isLive key ∧ key = thing := by
  unfold keyOf
  split <;> simp [*]

/-- The subtree of a node is the walk from it, when there is no cycle below. -/
theorem walk_subtree (linked : f.WellLinked) (apart : f.NoCycleBelow key) :
    f.Walk f.keyOf [(0, key)] (f.subtree key) := by
  rw [subtree, subtreeWithin_eq_gatherWithin f f.size 0]
  exact walk_of_noCycleBelow linked (fun _ _ => keyOf_eq_none) apart 0

/-- A walk finds just the live nodes that are at or below one of the pending ones. By induction on
the walk. -/
theorem Walk.mem_found_iff (linked : f.WellLinked) {pending : List (Nat × Nat)} {found : List Nat}
    (walk : f.Walk f.keyOf pending found) {lower : Nat} :
    lower ∈ found ↔ f.isLive lower ∧ ∃ p ∈ pending, f.AtOrAbove p.2 lower := by
  induction walk with
  | done => simp
  | @pass depth key pending found absent _ ih =>
    rw [ih]
    refine and_congr_right fun live =>
      ⟨fun ⟨p, mem, down⟩ => ⟨p, List.mem_cons_of_mem _ mem, down⟩, ?_⟩
    rintro ⟨p, mem, down⟩
    -- what is passed over is not live, so nothing live is below it
    rcases List.mem_cons.1 mem with rfl | later
    · exact absurd (linked.live_of_atOrAbove live down) (keyOf_eq_none.1 absent)
    · exact ⟨p, later, down⟩
  | @meet depth key thing pending found met _ ih =>
    obtain ⟨live, rfl⟩ := keyOf_eq_some.1 met
    rw [List.mem_cons, ih]
    constructor
    · rintro (rfl | ⟨live', p, mem, down⟩)
      · exact ⟨live, _, List.mem_cons_self, .refl⟩
      · refine ⟨live', ?_⟩
        rcases List.mem_append.1 mem with child | later
        · obtain ⟨child, below, rfl⟩ := List.mem_map.1 child
          exact ⟨_, List.mem_cons_self, down.head (linked.mem_children.1 below)⟩
        · exact ⟨p, List.mem_cons_of_mem _ later, down⟩
    · rintro ⟨live', p, mem, down⟩
      rcases List.mem_cons.1 mem with rfl | later
      · -- below the node that is met: the node itself, or below one of its children
        rcases Relation.ReflTransGen.cases_head down with same | ⟨child, below, down'⟩
        · exact .inl same.symm
        · have among : (depth + 1, child) ∈ (f.children key).map (depth + 1, ·) :=
            List.mem_map_of_mem (linked.mem_children.2 below)
          exact .inr ⟨live', _, List.mem_append_left _ among, down'⟩
      · exact .inr ⟨live', p, List.mem_append_right _ later, down⟩

/-- A child that is at or above another child of the same node is above its parent. -/
theorem not_atOrAbove_sibling {child sibling : Nat} (noCycle : ¬ f.Above key key)
    (found : f.parent? child = some key) (found' : f.parent? sibling = some key)
    (different : child ≠ sibling) : ¬ f.AtOrAbove child sibling := by
  intro down
  rcases Relation.ReflTransGen.cases_tail down with same | ⟨parent, down', last⟩
  · exact different same.symm
  · obtain rfl := Option.some.inj (last.symm.trans found')
    exact noCycle (Relation.TransGen.head' found down')

/-- By induction on the walk. No pending node is at or above another one, so that what is found
below one is not found below another. -/
theorem Walk.nodup_found (orderly : f.Orderly) {pending : List (Nat × Nat)} {found : List Nat}
    (walk : f.Walk f.keyOf pending found)
    (apart : pending.Pairwise fun p q => ¬ f.AtOrAbove p.2 q.2 ∧ ¬ f.AtOrAbove q.2 p.2) :
    found.Nodup := by
  have linked := orderly.linked
  induction walk with
  | done => exact List.nodup_nil
  | pass _ _ ih => exact ih apart.of_cons
  | @meet depth key thing pending found met rest ih =>
    have noCycle :=
      (Walk.meet met rest).acyclic_below linked (fun _ _ => keyOf_eq_none) _ List.mem_cons_self
    obtain ⟨live, rfl⟩ := keyOf_eq_some.1 met
    obtain ⟨others, pending_apart⟩ := List.pairwise_cons.1 apart
    -- the key is not found again below its children or later, and the children are apart from each
    -- other and from the later ones
    refine List.nodup_cons.2 ⟨fun again => ?_, ih (List.pairwise_append.2 ⟨?_, pending_apart, ?_⟩)⟩
    · obtain ⟨-, p, mem, down⟩ := (rest.mem_found_iff linked).1 again
      rcases List.mem_append.1 mem with child | later
      · obtain ⟨child, below, rfl⟩ := List.mem_map.1 child
        exact noCycle key .refl (Relation.TransGen.head' (linked.mem_children.1 below) down)
      · exact (others p later).2 down
    · rw [List.pairwise_map]
      refine (orderly.children_nodup key).imp_of_mem
        fun {child sibling} below below' different => ?_
      have found := linked.mem_children.1 below
      have found' := linked.mem_children.1 below'
      exact ⟨not_atOrAbove_sibling (noCycle key .refl) found found' different,
        not_atOrAbove_sibling (noCycle key .refl) found' found different.symm⟩
    · intro p mem q later
      obtain ⟨child, below, rfl⟩ := List.mem_map.1 mem
      have found := linked.mem_children.1 below
      refine ⟨fun down => (others q later).1 (down.head found), fun down => ?_⟩
      rcases Relation.ReflTransGen.cases_tail down with same | ⟨parent, down', last⟩
      · refine (others q later).1 ?_
        rw [← same]
        exact .single found
      · obtain rfl := Option.some.inj (last.symm.trans found)
        exact (others q later).2 down'

/-! ## Nodes that go -/

/-- `g` is `f` without the given nodes and the links at them. -/
structure Without (f : ReservationForest) (gone : List Nat) (g : ReservationForest) : Prop where
  entries : g.entries = f.entries.filter fun e => !gone.contains e.key
  links : g.links = f.links.filter fun l => !gone.contains l.1 && !gone.contains l.2
  journal : g.journal = f.journal
  nextKey : g.nextKey = f.nextKey

namespace Without

variable {gone gone' : List Nat}

theorem refl (f : ReservationForest) : f.Without [] f := ⟨by simp, by simp, rfl, rfl⟩

/-- The live nodes are those that have been there and are not gone. -/
theorem isLive_iff (without : f.Without gone g) {key : Nat} :
    g.isLive key ↔ f.isLive key ∧ key ∉ gone := by
  rw [ReservationForest.isLive_iff, ReservationForest.isLive_iff, without.entries]
  constructor
  · rintro ⟨e, mem, rfl⟩
    obtain ⟨there, stays⟩ := List.mem_filter.1 mem
    exact ⟨⟨e, there, rfl⟩, by simpa using stays⟩
  · rintro ⟨⟨e, there, rfl⟩, stays⟩
    exact ⟨e, List.mem_filter.2 ⟨there, by simpa using stays⟩, rfl⟩

/-- The links are those that have been there and have lost no end. -/
theorem mem_links_iff (without : f.Without gone g) {l : Nat × Nat} :
    l ∈ g.links ↔ l ∈ f.links ∧ l.1 ∉ gone ∧ l.2 ∉ gone := by
  rw [without.links, List.mem_filter]
  simp

/-- What two removals leave behind, taken as one. -/
theorem trans (first : f.Without gone g) (second : g.Without gone' h) :
    f.Without (gone ++ gone') h where
  entries := by
    rw [second.entries, first.entries, List.filter_filter]
    congr 1
    funext e
    simp [Bool.and_comm]
  links := by
    rw [second.links, first.links, List.filter_filter]
    congr 1
    funext l
    simp only [List.contains_append, Bool.not_or]
    ac_rfl
  journal := second.journal.trans first.journal
  nextKey := second.nextKey.trans first.nextKey

/-- Taking nodes away keeps the forest in order. -/
theorem orderly (without : f.Without gone g) (orderly : f.Orderly) : g.Orderly where
  linked := by
    refine orderly.linked.of_links (fun l mem => (without.mem_links_iff.1 mem).1) fun l mem => ?_
    obtain ⟨there, upper, lower⟩ := without.mem_links_iff.1 mem
    obtain ⟨live, live'⟩ := orderly.linked.live l there
    exact ⟨without.isLive_iff.2 ⟨live, upper⟩, without.isLive_iff.2 ⟨live', lower⟩⟩
  once := by
    rw [without.links]
    exact orderly.once.sublist (List.filter_sublist.map _)
  keys := by
    rw [without.entries]
    exact orderly.keys.sublist (List.filter_sublist.map _)
  recorded key live := without.journal ▸ orderly.recorded key (without.isLive_iff.1 live).1
  descending := without.journal ▸ orderly.descending
  issued := without.journal ▸ without.nextKey ▸ orderly.issued

/-- A node that stays is the same. -/
theorem get? (without : f.Without gone g) {key : Nat} (stays : key ∉ gone) :
    g.get? key = f.get? key := by
  rw [ReservationForest.get?, without.entries, List.find?_filter, ReservationForest.get?]
  congr 2
  funext e
  by_cases named : e.key = key
  · simp [named, stays]
  · simp [named]

/-- A node that stays keeps those children that stay. -/
theorem children (without : f.Without gone g) {key : Nat} (stays : key ∉ gone) :
    g.children key = (f.children key).filter fun child => !gone.contains child := by
  rw [ReservationForest.children, without.links, ReservationForest.children, List.filter_map,
    List.filter_filter, List.filter_filter]
  congr 2
  funext l
  by_cases led : l.1 = key
  · simp [led, stays]
  · simp [beq_false_of_ne led]

/-- A node that stays keeps its parent if that one stays as well. -/
theorem parent?_eq_some (without : f.Without gone g) (orderly : f.Orderly) {parent child : Nat} :
    g.parent? child = some parent ↔ f.parent? child = some parent ∧ g.isLive parent
      ∧ g.isLive child := by
  rw [(without.orderly orderly).linked.parent?_eq_some, without.mem_links_iff,
    orderly.linked.parent?_eq_some, without.isLive_iff, without.isLive_iff]
  -- both ends of a link have been live, so only what has gone matters
  refine and_congr_right fun there => ?_
  rw [and_iff_right (orderly.linked.live _ there).1, and_iff_right (orderly.linked.live _ there).2]

/-- The nodes that go and those that stay make up the forest. -/
theorem length_add_size (without : f.Without gone g) (orderly : f.Orderly) (different : gone.Nodup)
    (live : ∀ key ∈ gone, f.isLive key) : gone.length + g.size = f.size := by
  have same : gone.Perm ((f.entries.filter fun e => gone.contains e.key).map (·.key)) := by
    rw [List.perm_ext_iff_of_nodup different (orderly.keys.sublist (List.filter_sublist.map _))]
    intro key
    rw [List.mem_map]
    constructor
    · intro mem
      obtain ⟨e, there, rfl⟩ := ReservationForest.isLive_iff.1 (live key mem)
      exact ⟨e, List.mem_filter.2 ⟨there, by simpa using mem⟩, rfl⟩
    · rintro ⟨e, mem, rfl⟩
      simpa using (List.mem_filter.1 mem).2
  rw [same.length_eq, List.length_map, size, without.entries, size]
  exact (List.length_eq_length_filter_add _).symm

end Without

/-- Detaching only drops links. -/
theorem Orderly.detach (orderly : f.Orderly) (key : Nat) : (f.detach key).Orderly where
  linked := orderly.linked.detach key
  once := orderly.once.sublist (List.filter_sublist.map _)
  keys := orderly.keys
  recorded := orderly.recorded
  descending := orderly.descending
  issued := orderly.issued

/-- A node that has been detached is on no cycle, so that its subtree is the result of a walk. -/
theorem walk_subtree_detach (linked : f.WellLinked) (key : Nat) :
    (f.detach key).Walk (f.detach key).keyOf [(0, key)] ((f.detach key).subtree key) :=
  walk_subtree (linked.detach key) (noCycleBelow_of_parent?_eq_none (parent?_detach f key))

/-- The subtree of a detached node consists of what is at or below the node. -/
theorem mem_subtree_detach (linked : f.WellLinked) (key lower : Nat) :
    lower ∈ (f.detach key).subtree key ↔ f.isLive lower ∧ f.AtOrAbove key lower := by
  rw [(walk_subtree_detach linked key).mem_found_iff (linked.detach key)]
  simp only [List.mem_singleton, exists_eq_left, atOrAbove_detach_iff]
  rfl

/-- How many nodes a removal takes, and which ones. -/
theorem remove_of_live (live : f.isLive key) :
    f.remove key = (((f.detach key).subtree key).length,
      (f.detach key).discard ((f.detach key).subtree key)) := by
  rw [remove, if_pos live]

/-- A removal takes away the subtree of the detached node. The link to the parent goes with it, as
one of its ends does. -/
theorem without_remove (linked : f.WellLinked) (live : f.isLive key) :
    f.Without ((f.detach key).subtree key) (f.remove key).2 := by
  have top : key ∈ (f.detach key).subtree key := (mem_subtree_detach linked key key).2 ⟨live, .refl⟩
  rw [remove_of_live live]
  refine ⟨rfl, ?_, rfl, rfl⟩
  show (f.links.filter _).filter _ = _
  rw [List.filter_filter]
  congr 1
  funext l
  by_cases led : l.2 = key
  · simp [led, top]
  · simp [led]

/-- A deletion takes the nodes at or below the given one, all of them and no others, and tells how
many they are. -/
theorem remove_takes (orderly : f.Orderly) (key : Nat) :
    ∃ gone : List Nat, gone.Nodup ∧ (∀ lower, lower ∈ gone ↔ f.isLive lower ∧ f.AtOrAbove key lower)
      ∧ (f.remove key).1 = gone.length ∧ f.Without gone (f.remove key).2 := by
  by_cases live : f.isLive key
  · refine ⟨(f.detach key).subtree key, ?_, mem_subtree_detach orderly.linked key, by
      rw [remove_of_live live], without_remove orderly.linked live⟩
    exact (walk_subtree_detach orderly.linked key).nodup_found (orderly.detach key)
      (List.pairwise_singleton _ _)
  · -- a node that is not there has no node below it
    have none_below (lower : Nat) : ¬ (f.isLive lower ∧ f.AtOrAbove key lower) :=
      fun ⟨live', down⟩ => live (orderly.linked.live_of_atOrAbove live' down)
    refine ⟨[], List.nodup_nil, fun lower =>
      iff_of_false List.not_mem_nil (none_below lower), ?_, ?_⟩
    · rw [remove, if_neg live]
      rfl
    · rw [remove, if_neg live]
      exact .refl f

/-- What a deletion takes it takes with all children. So the nodes that stay keep their links, but
for the one to the node that is deleted. -/
theorem links_remove (orderly : f.Orderly) {other : Nat} (stays : (f.remove key).2.isLive other) :
    (f.remove key).2.parent? other = f.parent? other
      ∧ (f.remove key).2.children other = (f.children other).filter (· != key) := by
  obtain ⟨gone, -, mem, -, without⟩ := remove_takes orderly key
  obtain ⟨live, kept⟩ := without.isLive_iff.1 stays
  constructor
  · refine Option.ext fun parent => ?_
    rw [without.parent?_eq_some orderly, and_iff_left_iff_imp]
    refine fun found => ⟨without.isLive_iff.2
      ⟨orderly.linked.live_of_parent? found, fun taken => ?_⟩, stays⟩
    exact kept ((mem other).2 ⟨live, ((mem parent).1 taken).2.tail found⟩)
  · rw [without.children kept]
    refine List.filter_congr fun child below => ?_
    have found := orderly.linked.mem_children.1 below
    have live_child : f.isLive child := (orderly.linked.live _ (mem_links_of_parent? found)).2
    -- of the children only the removed node itself can have gone: each other one would be below it
    -- with its parent
    have taken_iff : child ∈ gone ↔ child = key := by
      rw [mem, and_iff_right live_child]
      constructor
      · intro down
        rcases Relation.ReflTransGen.cases_tail down with same | ⟨parent, down', found'⟩
        · exact same
        · obtain rfl := Option.some.inj (found.symm.trans found')
          exact absurd ((mem other).2 ⟨live, down'⟩) kept
      · rintro rfl
        exact .refl
    rw [Bool.eq_iff_iff, Bool.not_eq_true', ← Bool.not_eq_true, List.contains_iff_mem,
      taken_iff, bne_iff_ne]

/-! ## What keeps a forest orderly -/

namespace Orderly

theorem lt_nextKey (orderly : f.Orderly) (live : f.isLive key) : key < f.nextKey :=
  orderly.issued key (orderly.recorded key live)

theorem empty : ReservationForest.empty.Orderly where
  linked := .empty
  once := List.nodup_nil
  keys := List.nodup_nil
  recorded := nofun
  descending := .nil
  issued := nofun

/-- A new node has a key that is greater than all keys given out, so it is in no link and not among
the entries. -/
theorem insert (orderly : f.Orderly) (node : Reservation) : (f.insert node).Orderly where
  linked := orderly.linked.insert node
  once := orderly.once
  keys := by
    show ((f.entries ++ [(⟨f.nextKey, node⟩ : Entry)]).map (·.key)).Nodup
    rw [List.map_append, List.nodup_append_comm]
    -- the new key is above every key in use
    refine List.nodup_cons.2 ⟨fun mem => ?_, orderly.keys⟩
    obtain ⟨e, there, same⟩ := List.mem_map.1 mem
    exact Nat.lt_irrefl _ (orderly.lt_nextKey (ReservationForest.isLive_iff.2 ⟨e, there, same⟩))
  recorded key live := by
    rw [isLive_insert, Bool.or_eq_true, beq_iff_eq] at live
    rcases live with old | rfl
    · exact List.mem_cons_of_mem _ (orderly.recorded key old)
    · exact List.mem_cons_self
  descending := List.pairwise_cons.2 ⟨orderly.issued, orderly.descending⟩
  issued :=
    List.forall_mem_cons.2 ⟨Nat.lt_succ_self _, fun key mem =>
      Nat.lt_succ_of_lt (orderly.issued key mem)⟩

/-- The new key leads to the new node, all others to what they led to. -/
theorem get?_insert (orderly : f.Orderly) (node : Reservation) (key : Nat) :
    (f.insert node).get? key = if f.nextKey = key then some node else f.get? key := by
  rw [get?, ReservationForest.insert, List.find?_append, get?]
  split
  · rename_i new
    have unused : f.entries.find? (·.key == key) = none := by
      rw [← Option.map_eq_none_iff, ← get?, get?_eq_none_iff, ← new]
      exact fun live => Nat.lt_irrefl _ (orderly.lt_nextKey live)
    simp [unused, new]
  · rename_i other
    simp [other]

/-- An attachment adds one link, to a child that has had none. -/
theorem attach {parent child : Nat} (orderly : f.Orderly) (done : f.attach parent child = .ok g) :
    g.Orderly := by
  have linked := orderly.linked.attach done
  obtain ⟨-, -, -, free, rfl⟩ := attach_eq_ok_iff.1 done
  refine ⟨linked, ?_, orderly.keys, orderly.recorded, orderly.descending, orderly.issued⟩
  rw [List.map_append, List.nodup_append_comm]
  refine List.nodup_cons.2 ⟨fun mem => ?_, orderly.once⟩
  obtain ⟨l, there, rfl⟩ := List.mem_map.1 mem
  rw [orderly.linked.parent?_eq_some.2 (there : (l.1, l.2) ∈ f.links)] at free
  cases free

theorem setRoot (orderly : f.Orderly) (key : Nat) : (f.setRoot key).Orderly where
  linked := ⟨orderly.linked.live, orderly.linked.single⟩
  once := orderly.once
  keys := orderly.keys
  recorded := orderly.recorded
  descending := orderly.descending
  issued := orderly.issued

/-- A removal takes nodes away and does nothing else. -/
theorem remove (orderly : f.Orderly) (key : Nat) : (f.remove key).2.Orderly := by
  obtain ⟨gone, -, -, -, without⟩ := remove_takes orderly key
  exact without.orderly orderly

end Orderly

end Conference.ReservationForest
