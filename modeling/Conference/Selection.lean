/-!
# Selections from a fixed list

A selection is a set of elements of a finite type whose elements come in a fixed order. It is kept
as the list of its elements in that order, so two selections with the same elements are equal, and
everything that is decided by walking through one is decided the same way each time.
-/

namespace Conference

/-- A finite type with the fixed order of its elements. -/
class Listed (α : Type) where
  all : List α
  mem_all : ∀ a : α, a ∈ all

/-- A set of elements of `α`, held in the order in which `α` lists them. -/
structure Selection (α : Type) [DecidableEq α] [Listed α] where
  toList : List α
  canonical : toList = Listed.all.filter (toList.contains ·)

namespace Selection

variable {α : Type} [DecidableEq α] [Listed α]

/-- A selection is known by its list, since the list is in the order of the type. -/
theorem eq_of_toList {s t : Selection α} (h : s.toList = t.toList) : s = t := by
  cases s; cases t; cases h; rfl

instance : DecidableEq (Selection α) := fun s t =>
  if h : s.toList = t.toList then isTrue (eq_of_toList h)
  else isFalse (fun e => h (congrArg toList e))

def contains (s : Selection α) (a : α) : Bool := s.toList.contains a

instance : Membership α (Selection α) := ⟨fun s a => a ∈ s.toList⟩

instance (a : α) (s : Selection α) : Decidable (a ∈ s) :=
  inferInstanceAs (Decidable (a ∈ s.toList))

/-- The elements that satisfy a test. -/
def those (p : α → Bool) : Selection α where
  toList := Listed.all.filter p
  canonical := by
    apply List.filter_congr
    intro a ha
    cases hp : p a <;> simp [List.contains_eq_mem, ha, hp]

/-- The elements of a list, however often and in whatever order it holds them. -/
def ofList (l : List α) : Selection α := those (l.contains ·)

def empty : Selection α := those (fun _ => false)

def isEmpty (s : Selection α) : Bool := s.toList.isEmpty

def size (s : Selection α) : Nat := s.toList.length

def insert (a : α) (s : Selection α) : Selection α :=
  those (fun b => b == a || s.contains b)

def inter (s t : Selection α) : Selection α :=
  those (fun a => s.contains a && t.contains a)

def isSubset (s t : Selection α) : Bool := s.toList.all (t.contains ·)

def meets (s t : Selection α) : Bool := s.toList.any (t.contains ·)

/-- The elements of any of several selections. -/
def join (ss : List (Selection α)) : Selection α :=
  those (fun a => ss.any (·.contains a))

@[simp]
theorem mem_toList {a : α} {s : Selection α} : a ∈ s.toList ↔ a ∈ s := Iff.rfl

/-- The test for a member decides membership. -/
@[simp]
theorem contains_iff {s : Selection α} {a : α} : s.contains a = true ↔ a ∈ s := by
  simp [contains, List.contains_eq_mem, Membership.mem]

/-- The members of a selection by a test are those that pass it. -/
@[simp]
theorem mem_those {p : α → Bool} {a : α} : a ∈ (those p : Selection α) ↔ p a = true := by
  show a ∈ Listed.all.filter p ↔ _
  simp [List.mem_filter, Listed.mem_all]

/-- Neither the order of the list nor its duplicates count. -/
@[simp]
theorem mem_ofList {l : List α} {a : α} : a ∈ ofList l ↔ a ∈ l := by
  simp [ofList]

@[simp]
theorem not_mem_empty {a : α} : a ∉ (empty : Selection α) := by
  simp [empty]

@[simp]
theorem mem_insert {a b : α} {s : Selection α} : b ∈ s.insert a ↔ b = a ∨ b ∈ s := by
  simp [insert]

@[simp]
theorem mem_inter {a : α} {s t : Selection α} : a ∈ s.inter t ↔ a ∈ s ∧ a ∈ t := by
  simp [inter]

/-- A selection has a member unless it is empty. -/
theorem exists_mem_iff {s : Selection α} : (∃ a, a ∈ s) ↔ ¬ s.isEmpty := by
  rw [isEmpty, List.isEmpty_iff, List.eq_nil_iff_forall_not_mem, Classical.not_forall_not]
  exact Iff.rfl

/-- The test for a subset decides inclusion. -/
theorem isSubset_iff {s t : Selection α} : s.isSubset t = true ↔ ∀ a ∈ s, a ∈ t := by
  simp [isSubset]

/-- Selections are determined by their elements. -/
@[ext]
theorem ext {s t : Selection α} (h : ∀ a, a ∈ s ↔ a ∈ t) : s = t := by
  apply eq_of_toList
  rw [s.canonical, t.canonical]
  apply List.filter_congr
  intro a _
  have := h a
  rw [← contains_iff, ← contains_iff] at this
  exact Bool.eq_iff_iff.2 this

end Selection

end Conference
