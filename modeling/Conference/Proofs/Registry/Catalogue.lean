import Conference.Proofs.Lookup
import Conference.Proofs.Registry.Containers
import Conference.Registry
import Mathlib.Data.List.Sort

/-!
# Catalogues

A registry can be kept in three parts: a store that holds the entries in whatever order, a directory
from identifiers to keys of the store, and a counter for the places in the order of registration.
Each part is changed by itself, and the order of registration has to be won back from the numbers of
the entries when they are selected.

A catalogue shows a registry if the store holds its entries, in some order, and the directory leads
from the identifier of an entry to its key and from nowhere else to anything. In a registry the
numbers of the entries grow, hence to sort what the store lists gives the order of the registry,
whatever the store does.
-/

namespace Conference

/-- A registry that is kept in a store and a directory. -/
structure Catalogue (S : Store Registered) (D : Directory S.Key) where
  resources : S.State
  index : D.State
  workingInterval : Option Slot
  nextIndex : Nat

namespace Catalogue

variable {S : Store Registered} {D : Directory S.Key}

def empty : Catalogue S D := ⟨S.empty, D.empty, none, 0⟩

def contains (c : Catalogue S D) (id : ResourceId) : Bool := (D.find? c.index id).isSome

def size (c : Catalogue S D) : Nat := (S.entries c.resources).length

def find? (c : Catalogue S D) (id : ResourceId) : Option Registered :=
  (D.find? c.index id).bind (S.get? c.resources)

def get? (c : Catalogue S D) (id : ResourceId) : Option Resource := (c.find? id).map (·.resource)

def index? (c : Catalogue S D) (id : ResourceId) : Option Nat := (c.find? id).map (·.index)

/-- Registers a resource unless its identifier is registered already. -/
def add (c : Catalogue S D) (resource : Resource) : Bool × Catalogue S D :=
  if c.contains resource.id then (false, c)
  else
    let stored := S.insert c.resources ⟨resource, c.nextIndex, none⟩
    (true,
      { c with
        resources := stored.2
        index := D.insert c.index resource.id stored.1
        nextIndex := c.nextIndex + 1 })

def remove (c : Catalogue S D) (id : ResourceId) : Option Resource × Catalogue S D :=
  let found := D.remove c.index id
  match found.1 with
  | none => (none, { c with index := found.2 })
  | some key =>
    let taken := S.remove c.resources key
    (taken.1.map (·.resource), { c with resources := taken.2, index := found.2 })

def clear (c : Catalogue S D) : Catalogue S D :=
  { c with resources := S.clear c.resources, index := D.clear c.index, nextIndex := 0 }

/-- Registers the resources of an inventory, and no others. -/
def load (c : Catalogue S D) (inv : Inventory) : Catalogue S D :=
  inv.resources.foldl (fun c resource => (c.add resource).2) c.clear

/-- The identifiers of the resources that satisfy `p`, in order of registration. -/
def select (c : Catalogue S D) (p : Resource → Bool) : List ResourceId :=
  ((((S.entries c.resources).map (·.2)).filter (p ·.resource)).mergeSort (·.index ≤ ·.index)).map
    (·.resource.id)

end Catalogue

/-- The entries have identifiers of their own and are numbered in their order. -/
structure Registry.Numbered (g : Registry) : Prop where
  ids : (g.entries.map (·.resource.id)).Nodup
  ascending : g.entries.Pairwise (·.index < ·.index)
  below : ∀ e ∈ g.entries, e.index < g.nextIndex

namespace Registry

variable {g : Registry}

/-- As no two entries share an identifier, finding is membership. -/
theorem find?_eq_some_iff (numbered : g.Numbered) {id : ResourceId} {e : Registered} :
    g.find? id = some e ↔ e ∈ g.entries ∧ e.resource.id = id := by
  constructor
  · intro found
    exact ⟨List.mem_of_find?_eq_some found, by simpa using List.find?_some found⟩
  · rintro ⟨mem, rfl⟩
    exact find?_key_of_mem numbered.ids mem

theorem contains_iff {id : ResourceId} :
    g.contains id = true ↔ id ∈ g.entries.map (·.resource.id) := by
  simp [contains]

theorem add_of_contains {resource : Resource} (there : g.contains resource.id = true) :
    g.add resource = (false, g) :=
  if_pos there

theorem add_of_not_contains {resource : Resource} (absent : g.contains resource.id = false) :
    g.add resource = (true, { g with
      entries := g.entries ++ [⟨resource, g.nextIndex, none⟩]
      nextIndex := g.nextIndex + 1 }) :=
  if_neg (Bool.eq_false_iff.1 absent)

/-- A resource is added just if its identifier is new. -/
theorem add_fst (g : Registry) (resource : Resource) :
    (g.add resource).1 = !g.contains resource.id := by
  cases there : g.contains resource.id with
  | true => rw [add_of_contains there, Bool.not_true]
  | false => rw [add_of_not_contains there, Bool.not_false]

/-- A removal answers with the resource that has been there. -/
theorem remove_fst (g : Registry) (id : ResourceId) : (g.remove id).1 = g.get? id := by
  unfold remove get?
  split
  · rename_i absent
    rw [absent, Option.map_none]
  · rename_i e found
    rw [found, Option.map_some]

theorem remove_of_find?_eq_none {id : ResourceId} (absent : g.find? id = none) :
    g.remove id = (none, g) := by
  rw [remove, absent]

/-- A removal takes the entry of the identifier away, if there is one. -/
theorem remove_snd (g : Registry) (id : ResourceId) :
    (g.remove id).2 = { g with entries := g.entries.eraseP (·.resource.id == id) } := by
  unfold remove
  split
  · rename_i absent
    rw [List.eraseP_of_forall_not (List.find?_eq_none.1 absent)]
  · rfl

/-- As identifiers are distinct, one entry is taken out if any. -/
theorem entries_remove (numbered : g.Numbered) (id : ResourceId) :
    (g.remove id).2.entries = g.entries.filter (·.resource.id != id) := by
  rw [remove_snd]
  have apart : g.entries.Pairwise fun e e' => e.resource.id ≠ e'.resource.id :=
    List.pairwise_map.1 numbered.ids
  show g.entries.eraseP _ = _
  generalize g.entries = entries at apart
  induction entries with
  | nil => rfl
  | cons e entries ih =>
    rw [List.pairwise_cons] at apart
    rw [List.eraseP_cons, List.filter_cons]
    by_cases same : e.resource.id = id
    · -- the identifier does not occur again behind its entry
      have others : ∀ e' ∈ entries, (e'.resource.id != id) = true := fun e' mem => by
        simpa [← same] using (apart.1 e' mem).symm
      simp [same, List.filter_eq_self.2 others]
    · rw [beq_false_of_ne same, bne_iff_ne.2 same, if_pos rfl, ih apart.2]
      rfl

/-- The indexes ascend, so they tell the entries apart. -/
theorem eq_of_index_eq {es : List Registered} (ascending : es.Pairwise (·.index < ·.index))
    {a b : Registered} (left : a ∈ es) (right : b ∈ es) (same : a.index = b.index) : a = b := by
  have apart : (es.map (·.index)).Nodup :=
    List.pairwise_map.2 (ascending.imp fun {_ _} less => Nat.ne_of_lt less)
  exact List.inj_on_of_nodup_map apart left right same

/-- What an identifier leads to is the registered resource that bears it. -/
theorem get?_eq_some_iff (numbered : g.Numbered) {id : ResourceId} {resource : Resource} :
    g.get? id = some resource ↔ resource.id = id ∧ resource ∈ g.entries.map (·.resource) := by
  rw [get?, List.mem_map, Option.map_eq_some_iff]
  simp only [find?_eq_some_iff numbered]
  constructor
  · rintro ⟨e, ⟨mem, named⟩, rfl⟩
    exact ⟨named, e, mem, rfl⟩
  · rintro ⟨named, e, mem, rfl⟩
    exact ⟨e, ⟨mem, named⟩, rfl⟩

/-- A place in the order of registration belongs to one resource only. -/
theorem eq_of_index? (numbered : g.Numbered) {id id' : ResourceId} {place : Nat}
    (at_place : g.index? id = some place) (at_place' : g.index? id' = some place) : id = id' := by
  obtain ⟨e, found, rfl⟩ := Option.map_eq_some_iff.1 at_place
  obtain ⟨e', found', index⟩ := Option.map_eq_some_iff.1 at_place'
  obtain ⟨mem, rfl⟩ := (find?_eq_some_iff numbered).1 found
  obtain ⟨mem', rfl⟩ := (find?_eq_some_iff numbered).1 found'
  rw [eq_of_index_eq numbered.ascending mem' mem index]

/-- A selection names no resource twice. -/
theorem select_nodup (numbered : g.Numbered) (p : Resource → Bool) : (g.select p).Nodup := by
  have ids : ((g.entries.map (·.resource)).map (·.id)).Nodup := by
    rw [List.map_map]
    exact numbered.ids
  exact ids.sublist (List.filter_sublist.map _)

/-- Entries that are put in some order are brought back into that of their numbers. -/
theorem mergeSort_index {es es' : List Registered} (perm : es.Perm es')
    (ascending : es'.Pairwise (·.index < ·.index)) :
    es.mergeSort (·.index ≤ ·.index) = es' := by
  have sorted : (es.mergeSort (·.index ≤ ·.index)).Pairwise fun a b =>
      decide (a.index ≤ b.index) = true := by
    refine List.pairwise_mergeSort (fun a b c ab bc => ?_) (fun a b => ?_) es
    · exact decide_eq_true (Nat.le_trans (of_decide_eq_true ab) (of_decide_eq_true bc))
    · simpa using Nat.le_total a.index b.index
  simp only [decide_eq_true_eq] at sorted
  -- both lists are sorted, and no two entries have the same number, so that there is one way only
  -- to sort them
  have same : (es.mergeSort (·.index ≤ ·.index)).Perm es' := (List.mergeSort_perm _ _).trans perm
  refine same.eq_of_pairwise (fun a b left right ab ba => ?_) sorted
    (ascending.imp fun {_ _} less => Nat.le_of_lt less)
  exact eq_of_index_eq ascending (same.mem_iff.1 left) right (Nat.le_antisymm ab ba)

/-! ## Entries stay numbered -/

theorem numbered_of_entries_eq_nil (none : g.entries = []) : g.Numbered := by
  constructor <;> simp [none]

/-- A new resource gets the next index, which is above all others. -/
theorem Numbered.add (h : g.Numbered) (resource : Resource) : (g.add resource).2.Numbered := by
  unfold Registry.add
  split
  · exact h
  · rename_i absent
    rw [contains_iff] at absent
    -- the identifier is new, and the index is above those before
    constructor
    · rw [List.map_append, List.nodup_append_comm]
      exact List.nodup_cons.2 ⟨absent, h.ids⟩
    · refine List.pairwise_append.2 ⟨h.ascending, List.pairwise_singleton _ _,
        fun e mem e' new => ?_⟩
      rw [List.mem_singleton.1 new]
      exact h.below e mem
    · intro e mem
      rcases List.mem_append.1 mem with old | new
      · exact Nat.lt_succ_of_lt (h.below e old)
      · rw [List.mem_singleton.1 new]
        exact Nat.lt_succ_self _

/-- Fewer entries are still in order. -/
theorem Numbered.remove (h : g.Numbered) (id : ResourceId) : (g.remove id).2.Numbered := by
  rw [remove_snd]
  have part : (g.entries.eraseP (·.resource.id == id)).Sublist g.entries := List.eraseP_sublist
  exact ⟨h.ids.sublist (part.map _), h.ascending.sublist part, fun e mem =>
    h.below e (part.subset mem)⟩

end Registry

namespace Catalogue

variable {S : Store Registered} {D : Directory S.Key} {c : Catalogue S D} {g : Registry}

/-- The store holds the entries of the registry, and the directory has the key of each of them and
no other keys. -/
structure Shows (c : Catalogue S D) (g : Registry) : Prop where
  entries : ((S.entries c.resources).map (·.2)).Perm g.entries
  keys : ∀ id key, D.find? c.index id = some key
    ↔ ∃ e, S.get? c.resources key = some e ∧ e.resource.id = id
  workingInterval : c.workingInterval = g.workingInterval
  nextIndex : c.nextIndex = g.nextIndex

/-! ## Equal answers -/

/-- An identifier in the index leads to an entry, so asking for it is asking the index. -/
theorem Shows.isSome_find? (h : c.Shows g) (id : ResourceId) :
    (c.find? id).isSome = c.contains id := by
  rw [Catalogue.find?, contains]
  cases leads : D.find? c.index id with
  | none => rfl
  | some key =>
    obtain ⟨e, held, -⟩ := (h.keys id key).1 leads
    rw [Option.bind_some, held]
    rfl

/-- As many resources are stored as are registered. -/
theorem Shows.size (h : c.Shows g) : c.size = g.size := by
  rw [Catalogue.size, Registry.size, ← h.entries.length_eq, List.length_map]

/-- Both find the same entry under an identifier. -/
theorem Shows.find? (stored : S.Lawful) (numbered : g.Numbered) (h : c.Shows g) (id : ResourceId) :
    c.find? id = g.find? id := by
  refine Option.ext fun e => ?_
  rw [Registry.find?_eq_some_iff numbered, ← h.entries.mem_iff, Catalogue.find?,
    Option.bind_eq_some_iff]
  constructor
  · rintro ⟨key, leads, held⟩
    obtain ⟨e', held', named⟩ := (h.keys id key).1 leads
    obtain rfl := Option.some.inj (held.symm.trans held')
    exact ⟨List.mem_map.2 ⟨(key, e), (stored.mem_entries _ _ _).2 held, rfl⟩, named⟩
  · rintro ⟨mem, named⟩
    obtain ⟨⟨key, e'⟩, listed, rfl⟩ := List.mem_map.1 mem
    have held := (stored.mem_entries _ _ _).1 listed
    exact ⟨key, (h.keys id key).2 ⟨e', held, named⟩, held⟩

/-- Both contain the same identifiers. -/
theorem Shows.contains (stored : S.Lawful) (numbered : g.Numbered) (h : c.Shows g)
    (id : ResourceId) :
    c.contains id = g.contains id := by
  rw [← h.isSome_find?, h.find? stored numbered, Registry.isSome_find?]

/-- Both select the same resources, in the order of declaration. The catalogue sorts by index, the
registry is sorted already. -/
theorem Shows.select (numbered : g.Numbered) (h : c.Shows g) (p : Resource → Bool) :
    c.select p = g.select p := by
  rw [Catalogue.select, Registry.mergeSort_index (h.entries.filter _) (numbered.ascending.filter _),
    Registry.select, List.filter_map, List.map_map]
  rfl

/-! ## Equal changes -/

/-- Both begin without a resource. -/
theorem shows_empty (stored : S.Lawful) (directed : D.Lawful) :
    (empty : Catalogue S D).Shows .empty where
  entries := by
    rw [show S.entries (empty : Catalogue S D).resources = []
      from stored.entries_eq_nil stored.get?_empty]
    exact .nil
  keys id key := by simp [empty, directed.find?_empty, stored.get?_empty]
  workingInterval := rfl
  nextIndex := rfl

/-- Clearing leaves both empty, with indexes from the beginning. -/
theorem Shows.clear (stored : S.Lawful) (directed : D.Lawful) (h : c.Shows g) :
    c.clear.Shows { g with entries := [], nextIndex := 0 } where
  entries := by
    rw [show S.entries c.clear.resources = []
      from stored.entries_eq_nil (stored.get?_clear c.resources)]
    exact .nil
  keys id key := by simp [Catalogue.clear, directed.find?_clear, stored.get?_clear]
  workingInterval := h.workingInterval
  nextIndex := rfl

/-- The new key is that of no other identifier, so the directory drops no pair for it. -/
theorem keys_add (stored : S.Lawful) (directed : D.Lawful) (h : c.Shows g) (entry : Registered)
    (absent : D.find? c.index entry.resource.id = none) (id : ResourceId) (key : S.Key) :
    D.find? (D.insert c.index entry.resource.id (S.insert c.resources entry).1) id = some key
      ↔ ∃ e, S.get? (S.insert c.resources entry).2 key = some e ∧ e.resource.id = id := by
  have fresh := stored.get?_fresh c.resources entry
  have new := stored.get?_insert c.resources entry
  have old := stored.get?_insert_of_ne c.resources entry
  generalize S.insert c.resources entry = inserted at fresh new old
  have unused (id : ResourceId) : D.find? c.index id ≠ some inserted.1 := by
    intro leads
    obtain ⟨e, held, -⟩ := (h.keys id inserted.1).1 leads
    rw [fresh] at held
    cases held
  by_cases isNew : key = inserted.1
  · -- the new key stands for the new entry, and only the new identifier leads to it
    subst isNew
    rw [new]
    by_cases same : id = entry.resource.id
    · subst same
      exact ⟨fun _ => ⟨entry, rfl, rfl⟩, fun _ => directed.find?_insert _ _ _⟩
    · rw [directed.find?_insert_of_ne _ _ _ _ same (unused id)]
      refine ⟨fun leads => absurd leads (unused id), ?_⟩
      rintro ⟨e, held, named⟩
      cases held
      exact absurd named.symm same
  · rw [old key isNew, ← h.keys id key]
    by_cases same : id = entry.resource.id
    · subst same
      rw [directed.find?_insert, absent, Option.some.injEq]
      exact ⟨fun equal => absurd equal.symm isNew, nofun⟩
    · rw [directed.find?_insert_of_ne _ _ _ _ same (unused id)]

/-- Both take a resource or both refuse it. -/
theorem Shows.add (stored : S.Lawful) (directed : D.Lawful) (numbered : g.Numbered) (h : c.Shows g)
    (resource : Resource) :
    (c.add resource).1 = (g.add resource).1 ∧ (c.add resource).2.Shows (g.add resource).2 := by
  rw [Catalogue.add, Registry.add, ← h.contains stored numbered]
  split
  · exact ⟨rfl, h⟩
  · rename_i absent
    refine ⟨rfl, ?_, ?_, h.workingInterval, congrArg (· + 1) h.nextIndex⟩
    · -- the entries as multisets: the store may put the new one anywhere
      rw [h.nextIndex]
      have more := (stored.entries_insert c.resources ⟨resource, g.nextIndex, none⟩).map (·.2)
      exact more.trans ((h.entries.cons _).trans (List.perm_append_singleton _ _).symm)
    · rw [Catalogue.contains, Option.not_isSome_iff_eq_none] at absent
      exact keys_add stored directed h ⟨resource, c.nextIndex, none⟩ absent

/-- The identifier led to the key that is gone, and no other one did. -/
theorem keys_remove (stored : S.Lawful) (directed : D.Lawful) (h : c.Shows g) {id : ResourceId}
    {key : S.Key} (leads : D.find? c.index id = some key) (other : ResourceId) (key' : S.Key) :
    D.find? (D.remove c.index id).2 other = some key'
      ↔ ∃ e, S.get? (S.remove c.resources key).2 key' = some e ∧ e.resource.id = other := by
  have gone : D.find? (D.remove c.index id).2 id = none := directed.find?_remove _ _
  by_cases isGone : key' = key
  · -- only the identifier that is removed led to the key, since the key stood for one entry
    subst isGone
    rw [stored.get?_remove]
    refine ⟨fun leads' => ?_, nofun⟩
    have different : other ≠ id := by
      rintro rfl
      rw [gone] at leads'
      cases leads'
    rw [directed.find?_remove_of_ne _ _ _ different] at leads'
    obtain ⟨e, held, named⟩ := (h.keys id key').1 leads
    obtain ⟨e', held', named'⟩ := (h.keys other key').1 leads'
    obtain rfl := Option.some.inj (held.symm.trans held')
    exact absurd (named'.symm.trans named) different
  · rw [stored.get?_remove_of_ne _ _ _ isGone, ← h.keys other key']
    by_cases same : other = id
    · rw [same, gone, leads, Option.some.injEq]
      exact ⟨nofun, fun equal => absurd equal.symm isGone⟩
    · rw [directed.find?_remove_of_ne _ _ _ same]

/-- What the store holds after a removal are the entries of other identifiers. -/
theorem entries_remove (stored : S.Lawful) (directed : D.Lawful) (h : c.Shows g) {id : ResourceId}
    {key : S.Key} (leads : D.find? c.index id = some key) :
    ((S.entries (S.remove c.resources key).2).map (·.2)).Perm
      (g.entries.filter (·.resource.id != id)) := by
  obtain ⟨e, held, named⟩ := (h.keys id key).1 leads
  -- nothing left bears the identifier, or the index would still lead there
  have others : ∀ e' ∈ (S.entries (S.remove c.resources key).2).map (·.2),
      (e'.resource.id != id) = true := by
    intro e' mem
    obtain ⟨⟨key', e'⟩, listed, rfl⟩ := List.mem_map.1 mem
    rw [bne_iff_ne]
    intro same
    have leads' :=
      (keys_remove stored directed h leads id key').2
        ⟨e', (stored.mem_entries _ _ _).1 listed, same⟩
    rw [directed.find?_remove] at leads'
    cases leads'
  have taken : ((S.entries c.resources).map (·.2)).Perm
      (e :: (S.entries (S.remove c.resources key).2).map (·.2)) :=
    (stored.entries_remove held).map _
  have kept := (taken.symm.trans h.entries).filter (·.resource.id != id)
  rwa [List.filter_cons_of_neg (by simp [named]), List.filter_eq_self.2 others] at kept

/-- Both give up the same resource, or have none to give up. -/
theorem Shows.remove (stored : S.Lawful) (directed : D.Lawful) (numbered : g.Numbered)
    (h : c.Shows g) (id : ResourceId) :
    (c.remove id).1 = (g.remove id).1 ∧ (c.remove id).2.Shows (g.remove id).2 := by
  have same : c.find? id = g.find? id := h.find? stored numbered id
  rw [Registry.remove_fst, Registry.get?, ← same, Catalogue.find?, Catalogue.remove]
  simp only [directed.remove_fst]
  cases leads : D.find? c.index id with
  | none =>
    rw [Catalogue.find?, leads, Option.bind_none] at same
    rw [Registry.remove_of_find?_eq_none same.symm]
    refine ⟨rfl, h.entries, fun other key => ?_, h.workingInterval, h.nextIndex⟩
    rw [← h.keys other key]
    -- removing what is not there changes no lookup
    by_cases equal : other = id
    · rw [equal, directed.find?_remove, leads]
    · rw [directed.find?_remove_of_ne _ _ _ equal]
  | some key =>
    rw [Option.bind_some]
    refine ⟨congrArg (Option.map _) (stored.remove_fst _ _), ?_,
      keys_remove stored directed h leads, ?_, ?_⟩
    · rw [Registry.entries_remove numbered]
      exact entries_remove stored directed h leads
    · rw [Registry.remove_snd]
      exact h.workingInterval
    · rw [Registry.remove_snd]
      exact h.nextIndex

end Catalogue

end Conference
