import Conference.Fault
import Conference.Fullness

/-!
# Candidates

Resources that can take more load in one dimension. They are ranked by how full they are, the
fullest first, so that resources in use are filled up and empty ones stay free for large requests.
Of equally full ones the one that was registered first comes first.
-/

namespace Conference

structure Candidate where
  resource : ResourceId
  /-- The place in the order of registration. -/
  index : Nat
  maximum : Nat
  available : Nat
deriving DecidableEq

namespace Candidate

/-- The candidate of which `used` out of `maximum` is in use. More cannot be in use than there
is. -/
def make (resource : ResourceId) (index maximum used : Nat) : Except Fault Candidate :=
  if maximum < used then .error (.negativeAvailableCapacity resource used maximum)
  else .ok ⟨resource, index, maximum, maximum - used⟩

def fullness (c : Candidate) : Nat := Fullness.ratio c.available c.maximum

/-- The order of candidates: fuller ones are less, and equally full ones go by registration. -/
def compare (a b : Candidate) : Ordering :=
  if a.index = b.index then .eq
  else if b.fullness < a.fullness then .lt
  else if a.fullness < b.fullness then .gt
  else if a.index < b.index then .lt
  else .gt

/-- Puts a candidate in front of the first one that does not come before it. -/
def insert (c : Candidate) : List Candidate → List Candidate
  | [] => [c]
  | d :: ds => if compare d c = .lt then d :: insert c ds else c :: d :: ds

def rank (cs : List Candidate) : List Candidate := cs.foldr insert []

/-! ## Ranking keeps the candidates -/

theorem insert_perm (c : Candidate) (cs : List Candidate) : (insert c cs).Perm (c :: cs) := by
  induction cs with
  | nil => exact .refl _
  | cons d ds ih =>
    rw [insert]
    split
    · exact (ih.cons d).trans (.swap c d ds)
    · exact .refl _

/-- Ranking changes the order and nothing else. -/
theorem rank_perm (cs : List Candidate) : (rank cs).Perm cs := by
  induction cs with
  | nil => exact .refl _
  | cons c cs ih => exact (insert_perm c (rank cs)).trans (ih.cons c)

end Candidate

end Conference
