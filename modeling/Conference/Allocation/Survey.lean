import Conference.Job
import Conference.Request

/-!
# Surveys

The search for resources that can take a load: which resources come into question at all, which of
these have capacity left during a slot, and in which order they are tried.
-/

namespace Conference.Survey

/-- The resources that come into question: the given one, if it may be used and is usable, or else
all usable ones. It is a failure if there are none. -/
def eligible (given : Option ResourceId) (slot : Slot) (usable : Resource → Bool)
    (capability : String) :
    Attempt (List ResourceId) := do
  match given with
  | some id =>
    match ← modifyGet (·.checkResource id slot) with
    | .error reason => Attempt.refuse reason
    | .ok resource =>
      if usable resource then pure [id]
      else Attempt.refuse (.resourceNotCapable id capability)
  | none =>
    match (← get).registry.select usable with
    | [] => Attempt.refuse (.noResourceWithCapability capability)
    | ids => pure ids

/-- Looks whether a resource has capacity left. The reason against it is reported. -/
def examine (slot : Slot) (dimension : Dimension) (id : ResourceId) :
    Action (Option Candidate) := do
  modify (·.openReport (.checkingResource id))
  match ← modifyGet (·.checkResource id slot) with
  | .error reason =>
    modify (·.addError reason)
    modify (·.closeError)
    pure none
  | .ok resource =>
    let maximum := (resource.capacity? dimension).getD 0
    let used ← Action.ask (·.used id slot dimension)
    if maximum ≤ used then
      modify (·.addError (.resourceCapacityExhausted id used maximum))
      modify (·.closeError)
      pure none
    else
      let registry := (← get).registry
      let index := (registry.index? id).getD registry.nextIndex
      let candidate ← Action.ask (fun _ => Candidate.make id index maximum used)
      modify (·.addReport (.resourceAvailable id candidate.available maximum))
      modify (·.closeReport)
      pure (some candidate)

/-- The resources of a list that have capacity left, in the order of the list. -/
def examineAll (slot : Slot) (dimension : Dimension) : List ResourceId → Action (List Candidate)
  | [] => pure []
  | id :: ids => do
    let found ← examine slot dimension id
    let others ← examineAll slot dimension ids
    pure (found.toList ++ others)

/-- The resources of a list that have capacity left, under a report of their own. -/
def available (slot : Slot) (dimension : Dimension) (ids : List ResourceId) :
    Action (List Candidate) := do
  modify (·.openReport .findingAvailableResource)
  let candidates ← examineAll slot dimension ids
  modify (·.closeReport)
  pure candidates

def rank (candidates : List Candidate) : Action (List Candidate) := do
  let ranked := Candidate.rank candidates
  modify (·.addReport (.sortingResources (ranked.map (·.resource))))
  pure ranked

/-- The resources to try, in their order. Where the resource is given there is nothing to rank. -/
def candidates (given : Option ResourceId) (slot : Slot) (dimension : Dimension)
    (ids : List ResourceId) : Action (List Candidate) := do
  let found ← available slot dimension ids
  if given.isNone then rank found else pure found

end Conference.Survey
