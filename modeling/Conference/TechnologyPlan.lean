import Conference.Technology

/-!
# Technology plans

A room connects groups that each speak some technologies if it speaks at least one of every group.
The sets that arise by choosing one technology from each group are the candidates for what a room
has to speak, the smallest first.
-/

namespace Conference.TechnologySet

/-- The place of a technology in the order of all of them. -/
def rank : Technology → Nat
  | .h323 => 0
  | .sip => 1
  | .adobeConnect => 2
  | .rtmp => 3
  | .skypeForBusiness => 4

/-- The order of sequences of technologies, element by element. -/
def precedes : List Technology → List Technology → Bool
  | _, [] => false
  | [], _ :: _ => true
  | a :: as, b :: bs =>
    if rank a < rank b then true else if rank b < rank a then false else precedes as bs

/-- Smaller sets come first, and sets of one size by their elements in order. -/
def before (s t : TechnologySet) : Bool :=
  decide (s.size < t.size) || (decide (s.size = t.size) && precedes s.toList t.toList)

/-- The bound on the number of combinations that are kept from one group to the next. -/
def maxCombinations : Nat := 64

/-- The elements of a list without later repetitions of earlier ones. -/
def distinct (sets : List TechnologySet) : List TechnologySet :=
  sets.foldl (fun found s => if found.contains s then found else found ++ [s]) []

/-- Extends each combination by each technology of a group. -/
def extend (group : TechnologySet) (combinations : List TechnologySet) : List TechnologySet :=
  (distinct (combinations.flatMap fun s => group.toList.map (s.insert ·))).take maxCombinations

def combine (combinations : List TechnologySet) : List TechnologySet → List TechnologySet
  | [] => combinations
  | group :: groups => combine (extend group combinations) groups

/-- Puts a set in front of the first one that does not come before it. -/
def insertSorted (s : TechnologySet) : List TechnologySet → List TechnologySet
  | [] => [s]
  | t :: ts => if before t s then t :: insertSorted s ts else s :: t :: ts

/-- The sets that arise by choosing one technology from each group, the smallest first. A group
without technologies leaves no choice. -/
def combinations (groups : List TechnologySet) : List TechnologySet :=
  (combine [.empty] groups).foldr insertSorted []

end Conference.TechnologySet
