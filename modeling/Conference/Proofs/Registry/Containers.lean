import Conference.Identifier
import Mathlib.Data.List.Nodup

/-!
# Containers

A store gives out a key for each value that is put into it, and a directory tells the key that
belongs to an identifier. Neither of them says anything of order: a store is free to use a place
again, and lists what it holds as it likes. What may be relied on is said for each key, and for each
identifier, by itself.

One of the stores is made of slots. The slot that was given up last is filled first, so what it
lists is in the order of the slots and not in that of insertion.
-/

namespace Conference

/-- A container that gives out a key for each value. -/
structure Store (α : Type) where
  State : Type
  Key : Type
  empty : State
  insert : State → α → Key × State
  remove : State → Key → Option α × State
  clear : State → State
  get? : State → Key → Option α
  /-- What is held, each value with its key. -/
  entries : State → List (Key × α)

/-- A key stands for its value until that is removed, and until then it is not given out again. -/
structure Store.Lawful {α : Type} (S : Store α) : Prop where
  get?_empty : ∀ key, S.get? S.empty key = none
  get?_clear : ∀ s key, S.get? (S.clear s) key = none
  get?_fresh : ∀ s a, S.get? s (S.insert s a).1 = none
  get?_insert : ∀ s a, S.get? (S.insert s a).2 (S.insert s a).1 = some a
  get?_insert_of_ne : ∀ s a key, key ≠ (S.insert s a).1 → S.get? (S.insert s a).2 key = S.get? s key
  remove_fst : ∀ s key, (S.remove s key).1 = S.get? s key
  get?_remove : ∀ s key, S.get? (S.remove s key).2 key = none
  get?_remove_of_ne : ∀ s key other, other ≠ key → S.get? (S.remove s key).2 other = S.get? s other
  mem_entries : ∀ s key a, (key, a) ∈ S.entries s ↔ S.get? s key = some a
  keys_nodup : ∀ s, ((S.entries s).map (·.1)).Nodup

/-- A container of identifiers and keys in which each identifier has one key, and each key one
identifier. -/
structure Directory (κ : Type) where
  State : Type
  empty : State
  insert : State → ResourceId → κ → State
  remove : State → ResourceId → Option κ × State
  clear : State → State
  find? : State → ResourceId → Option κ

/-- To insert a pair drops the pairs with the same identifier or with the same key, and no
others. -/
structure Directory.Lawful {κ : Type} (D : Directory κ) : Prop where
  find?_empty : ∀ id, D.find? D.empty id = none
  find?_clear : ∀ d id, D.find? (D.clear d) id = none
  find?_insert : ∀ d id key, D.find? (D.insert d id key) id = some key
  find?_insert_of_ne : ∀ d id key other, other ≠ id → D.find? d other ≠ some key →
    D.find? (D.insert d id key) other = D.find? d other
  remove_fst : ∀ d id, (D.remove d id).1 = D.find? d id
  find?_remove : ∀ d id, D.find? (D.remove d id).2 id = none
  find?_remove_of_ne : ∀ d id other, other ≠ id → D.find? (D.remove d id).2 other = D.find? d other

/-! ## What a lawful store lists -/

namespace Store.Lawful

variable {α : Type} {S : Store α} (h : S.Lawful)

include h

/-- Entries have different keys, so none comes twice. -/
theorem entries_nodup (s : S.State) : (S.entries s).Nodup := (h.keys_nodup s).of_map _

/-- A store in which nothing is found has no entries. -/
theorem entries_eq_nil {s : S.State} (none : ∀ key, S.get? s key = none) : S.entries s = [] := by
  rw [List.eq_nil_iff_forall_not_mem]
  rintro ⟨key, a⟩ mem
  rw [h.mem_entries, none key] at mem
  cases mem

/-- What is inserted is one more entry, under a key that has not been in use. -/
theorem entries_insert (s : S.State) (a : α) :
    (S.entries (S.insert s a).2).Perm (((S.insert s a).1, a) :: S.entries s) := by
  have fresh : ((S.insert s a).1, a) ∉ S.entries s := by
    rw [h.mem_entries, h.get?_fresh]
    exact nofun
  rw [List.perm_ext_iff_of_nodup (h.entries_nodup _) (List.nodup_cons.2 ⟨fresh, h.entries_nodup s⟩)]
  rintro ⟨key, b⟩
  rw [List.mem_cons, h.mem_entries, h.mem_entries, Prod.mk.injEq]
  -- the new key or another one
  by_cases same : key = (S.insert s a).1
  · rw [same, h.get?_insert, h.get?_fresh]
    simp [eq_comm]
  · rw [h.get?_insert_of_ne s a key same]
    simp [same]

/-- What is removed is the entry of the key. -/
theorem entries_remove {s : S.State} {key : S.Key} {a : α} (held : S.get? s key = some a) :
    (S.entries s).Perm ((key, a) :: S.entries (S.remove s key).2) := by
  have gone : (key, a) ∉ S.entries (S.remove s key).2 := by
    rw [h.mem_entries, h.get?_remove]
    exact nofun
  rw [List.perm_ext_iff_of_nodup (h.entries_nodup _) (List.nodup_cons.2 ⟨gone, h.entries_nodup _⟩)]
  rintro ⟨other, b⟩
  rw [List.mem_cons, h.mem_entries, h.mem_entries, Prod.mk.injEq]
  by_cases same : other = key
  · rw [same, held, h.get?_remove]
    simp [eq_comm]
  · rw [h.get?_remove_of_ne s key other same]
    simp [same]

end Store.Lawful

/-! ## Slots -/

/-- Places for values, each with the number of times that a value was put in or taken out. -/
structure Slots (α : Type) where
  places : List (Nat × Option α)
  /-- The places that were given up, the last one first. -/
  free : List Nat

namespace Slots

variable {α : Type}

/-- A key is a place and its number at the time when the value was put in. -/
def get? (s : Slots α) (key : Nat × Nat) : Option α :=
  s.places[key.1]?.bind fun place => if place.1 = key.2 then place.2 else none

/-- The place that is used next with its number, if there is one that was given up. -/
def vacant? (s : Slots α) : Option (Nat × Nat) :=
  match s.free with
  | [] => none
  | place :: _ =>
    match s.places[place]? with
    | some (number, none) => some (place, number)
    | _ => none

def insert (s : Slots α) (a : α) : (Nat × Nat) × Slots α :=
  match s.vacant? with
  -- the new number keeps the old keys of the place from coming back
  | some (place, number) =>
    ((place, number + 1), ⟨s.places.set place (number + 1, some a), s.free.tail⟩)
  | none => ((s.places.length, 1), ⟨s.places ++ [(1, some a)], s.free⟩)

def remove (s : Slots α) (key : Nat × Nat) : Option α × Slots α :=
  match s.get? key with
  | some a => (some a, ⟨s.places.set key.1 (key.2 + 1, none), key.1 :: s.free⟩)
  | none => (none, s)

/-- Takes all values out, that in the first place first. -/
def clear (s : Slots α) : Slots α where
  places := s.places.map fun place => (if place.2.isSome then place.1 + 1 else place.1, none)
  free :=
    ((List.range s.places.length).filter fun i =>
      (s.places[i]?.bind (·.2)).isSome).reverse ++ s.free

/-- What is in a place, with its key. -/
def held? (s : Slots α) (i : Nat) : Option ((Nat × Nat) × α) :=
  s.places[i]?.bind fun place => place.2.map fun a => ((i, place.1), a)

def entries (s : Slots α) : List ((Nat × Nat) × α) := (List.range s.places.length).filterMap s.held?

/-- The slots as a store. -/
def store (α : Type) : Store α where
  State := Slots α
  Key := Nat × Nat
  empty := ⟨[], []⟩
  insert := insert
  remove := remove
  clear := clear
  get? := get?
  entries := entries

/-- A place holds what its current key leads to. -/
theorem held?_eq_some_iff {s : Slots α} {i : Nat} {key : Nat × Nat} {a : α} :
    s.held? i = some (key, a) ↔ key.1 = i ∧ s.get? key = some a := by
  obtain ⟨place, number⟩ := key
  simp only [held?, get?, Option.bind_eq_some_iff, Option.map_eq_some_iff, Prod.mk.injEq]
  constructor
  · rintro ⟨held, there, b, full, ⟨rfl, rfl⟩, rfl⟩
    exact ⟨rfl, held, there, by rw [if_pos rfl, full]⟩
  · rintro ⟨rfl, held, there, found⟩
    split at found
    · exact ⟨held, there, a, found, ⟨rfl, ‹_›⟩, rfl⟩
    · cases found

/-- A vacant place is empty. -/
theorem getElem?_of_vacant? {s : Slots α} {place number : Nat}
    (vacant : s.vacant? = some (place, number)) :
    s.places[place]? = some (number, none) := by
  unfold vacant? at vacant
  split at vacant
  · cases vacant
  · split at vacant
    · rename_i there
      cases vacant
      exact there
    · cases vacant

/-- A place that is set holds the new value by its new number, and the old keys of the place are no
longer of use. -/
theorem get?_set {s : Slots α} {free : List Nat} {place number : Nat} {held : Option α}
    (key : Nat × Nat) (range : place < s.places.length) :
    get? ⟨s.places.set place (number, held), free⟩ key
      = if key.1 = place then if number = key.2 then held else none else s.get? key := by
  unfold get?
  rw [List.getElem?_set]
  by_cases same : place = key.1
  · subst same
    simp [range]
  · rw [if_neg same, if_neg (Ne.symm same)]

/-- A new place behind the others is found under its first key. -/
theorem get?_push {s : Slots α} (a : α) (key : Nat × Nat) :
    get? ⟨s.places ++ [(1, some a)], s.free⟩ key
      = if key = (s.places.length, 1) then some a else s.get? key := by
  obtain ⟨place, number⟩ := key
  unfold get?
  rcases Nat.lt_trichotomy place s.places.length with old | rfl | new
  · rw [List.getElem?_append_left old, if_neg (by simp; omega)]
  · simp [eq_comm]
  · rw [List.getElem?_eq_none (by simp; omega), if_neg (by simp; omega),
      List.getElem?_eq_none (by omega)]

/-- No key of a vacant place is of use, whatever its number. -/
theorem get?_of_vacant {s : Slots α} {place number : Nat}
    (vacant : s.places[place]? = some (number, none)) (n : Nat) :
    s.get? (place, n) = none := by
  simp [get?, vacant]

/-- The new key has led nowhere, and now leads to what is inserted. Other keys are not affected,
also those of the same place that have expired. -/
theorem get?_insert (s : Slots α) (a : α) (key : Nat × Nat) :
    s.get? (s.insert a).1 = none
      ∧ (s.insert a).2.get? key = if key = (s.insert a).1 then some a else s.get? key := by
  unfold insert
  split
  · rename_i place number vacant
    have there := getElem?_of_vacant? vacant
    obtain ⟨range, -⟩ := List.getElem?_eq_some_iff.1 there
    refine ⟨get?_of_vacant there _, ?_⟩
    obtain ⟨other, n⟩ := key
    rw [get?_set _ range]
    -- the place was vacant, so its older keys lead nowhere and go on doing so
    by_cases same : other = place
    · subst same
      rw [if_pos rfl, get?_of_vacant there]
      simp [eq_comm]
    · rw [if_neg same, if_neg (by simp [same])]
  · exact ⟨by simp [get?], get?_push a key⟩

/-- A removal gives up what has been held, and only its own key expires. -/
theorem get?_remove (s : Slots α) (key other : Nat × Nat) :
    (s.remove key).1 = s.get? key
      ∧ (s.remove key).2.get? other = if other = key then none else s.get? other := by
  unfold remove
  split
  · rename_i a held
    refine ⟨held.symm, ?_⟩
    obtain ⟨place, number⟩ := key
    obtain ⟨p, there, found⟩ := Option.bind_eq_some_iff.1 held
    obtain ⟨range, -⟩ := List.getElem?_eq_some_iff.1 there
    obtain ⟨place', n⟩ := other
    rw [get?_set _ range]
    by_cases same : place' = place
    · subst same
      -- no other key of this place has been of use
      have stale (different : n ≠ number) : s.get? (place', n) = none := by
        split at found
        · simp only [get?, there, Option.bind_some]
          rw [if_neg (by simp_all [eq_comm])]
        · cases found
      by_cases same : n = number
      · simp [same]
      · simp [same, stale same]
    · rw [if_neg same, if_neg (by simp [same])]
  · rename_i gone
    refine ⟨gone.symm, ?_⟩
    split
    · subst other
      exact gone
    · rfl

theorem get?_clear (s : Slots α) (key : Nat × Nat) : s.clear.get? key = none := by
  unfold clear get?
  rw [List.getElem?_map]
  cases s.places[key.1]? <;> simp

/-- Keys of different places are different. -/
theorem keys_nodup (s : Slots α) : (s.entries.map (·.1)).Nodup := by
  rw [List.Nodup, List.pairwise_map, entries, List.pairwise_filterMap]
  refine List.pairwise_lt_range.imp fun {i j} less => ?_
  rintro ⟨key, a⟩ first ⟨key', b⟩ second (same : key = key')
  obtain ⟨rfl, -⟩ := held?_eq_some_iff.1 first
  obtain ⟨rfl, -⟩ := held?_eq_some_iff.1 second
  rw [same] at less
  exact Nat.lt_irrefl _ less

/-- The entries are what the keys lead to. -/
theorem mem_entries (s : Slots α) (key : Nat × Nat) (a : α) :
    (key, a) ∈ s.entries ↔ s.get? key = some a := by
  rw [entries, List.mem_filterMap]
  constructor
  · rintro ⟨i, -, there⟩
    exact (held?_eq_some_iff.1 there).2
  · intro held
    obtain ⟨p, there, -⟩ := Option.bind_eq_some_iff.1 held
    obtain ⟨range, -⟩ := List.getElem?_eq_some_iff.1 there
    exact ⟨key.1, List.mem_range.2 range, held?_eq_some_iff.2 ⟨rfl, held⟩⟩

/-- Slots with numbered keys are a lawful store although places are used again. -/
theorem lawful_store (α : Type) : (store α).Lawful where
  get?_empty _ := rfl
  get?_clear := get?_clear
  get?_fresh s a := (get?_insert s a (s.insert a).1).1
  get?_insert s a := ((get?_insert s a _).2).trans (if_pos rfl)
  get?_insert_of_ne s a key other := ((get?_insert s a key).2).trans (if_neg other)
  remove_fst s key := (get?_remove s key key).1
  get?_remove s key := ((get?_remove s key key).2).trans (if_pos rfl)
  get?_remove_of_ne s key other different := ((get?_remove s key other).2).trans (if_neg different)
  mem_entries := mem_entries
  keys_nodup := keys_nodup

end Slots

/-! ## Functions -/

/-- A function from identifiers to keys as a directory. -/
def Directory.function (κ : Type) [DecidableEq κ] : Directory κ where
  State := ResourceId → Option κ
  empty _ := none
  insert d id key other :=
    if other = id then some key else if d other = some key then none else d other
  remove d id := (d id, fun other => if other = id then none else d other)
  clear _ _ := none
  find? d id := d id

/-- A function is a lawful directory. -/
theorem Directory.lawful_function (κ : Type) [DecidableEq κ] : (Directory.function κ).Lawful where
  find?_empty _ := rfl
  find?_clear _ _ := rfl
  find?_insert _ _ _ := if_pos rfl
  find?_insert_of_ne _ _ _ _ different apart := (if_neg different).trans (if_neg apart)
  remove_fst _ _ := rfl
  find?_remove _ _ := if_pos rfl
  find?_remove_of_ne _ _ _ different := if_neg different

end Conference
