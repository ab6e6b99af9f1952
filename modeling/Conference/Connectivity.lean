/-!
# Connectivity

Which of some labelled participants are connected with the first one. Links name their ends by
label; a label stands for the first participant that bears it.
-/

namespace Conference.Connectivity

/-- The place of the first participant with a label. -/
def indexOf? (labels : List String) (label : String) : Option Nat := labels.findIdx? (· == label)

/-- Joins two groups. Each participant is assigned the number of its group. -/
def merge (groups : List Nat) (a b : Nat) : List Nat :=
  match groups[a]?, groups[b]? with
  | some g, some h => groups.map (fun k => if k = h then g else k)
  | _, _ => groups

/-- Joins the groups of the ends of a link. A link with an end that no one bears joins nothing. -/
def link (labels : List String) (groups : List Nat) (ends : String × String) : List Nat :=
  match indexOf? labels ends.1, indexOf? labels ends.2 with
  | some a, some b => merge groups a b
  | _, _ => groups

def groups (labels : List String) (links : List (String × String)) : List Nat :=
  links.foldl (link labels) (List.range labels.length)

/-- The labels, among the first `count` participants, of those that are not connected with the
first. -/
def unreachable (labels : List String) (links : List (String × String))
    (count : Nat) : List String :=
  let found := groups labels links
  ((labels.zip found).take count).filterMap
    (fun p => if some p.2 = found.head? then none else some p.1)

/-! ## Groups -/

@[simp]
theorem length_merge (groups : List Nat) (a b : Nat) :
    (merge groups a b).length = groups.length := by
  unfold merge
  split
  · rw [List.length_map]
  · rfl

@[simp]
theorem length_link (labels : List String) (groups : List Nat) (ends : String × String) :
    (link labels groups ends).length = groups.length := by
  unfold link
  split
  · rw [length_merge]
  · rfl

theorem length_groups (labels : List String) (links : List (String × String)) :
    (groups labels links).length = labels.length := by
  have fold (found : List Nat) :
      (links.foldl (link labels) found).length = found.length := by
    induction links generalizing found with
    | nil => rfl
    | cons ends links ih => rw [List.foldl_cons, ih, length_link]
  rw [groups, fold, List.length_range]

/-- Merging brings the groups of two participants together. -/
theorem merge_same {groups : List Nat} {a b g h : Nat} (ha : groups[a]? = some g)
    (hb : groups[b]? = some h) : (merge groups a b)[a]? = (merge groups a b)[b]? := by
  rw [merge, ha, hb]
  simp only [List.getElem?_map, ha, hb, Option.map_some]
  -- the group of `b` is renamed, and that of `a` only if it is the same
  by_cases same : g = h <;> simp [same]

/-- Merging splits no group. -/
theorem merge_keeps {groups : List Nat} {i j : Nat} (same : groups[i]? = groups[j]?) (a b : Nat) :
    (merge groups a b)[i]? = (merge groups a b)[j]? := by
  unfold merge
  split
  · rw [List.getElem?_map, List.getElem?_map, same]
  · exact same

end Conference.Connectivity
