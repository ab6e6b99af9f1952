import Conference.Allocation.Survey

/-!
# Aliases

The allocation of an alias from a provider. The node for the alias carries the aliases made from one
value, and its child holds that value.
-/

namespace Conference.AliasSpec

/-- What the specification asks for, in words. -/
def capability (spec : AliasSpec) : String :=
  let kinds := spec.types.render "any alias"
  s!"{kinds} ({spec.technologies.render})"

/-- The resource provides what is asked for, and may do so for an alias on `target`. -/
def isUsable (spec : AliasSpec) (target : Option ResourceId) (resource : Resource) : Bool :=
  match resource.aliasProvider? with
  | none => false
  | some provider =>
    !(provider.restricted && decide (target ≠ some resource.id))
      && provider.canProvide spec.types spec.technologies

/-- The value to hand out: the one that is asked for, or the first free one. The reason against it
is reported. -/
def pickValue (spec : AliasSpec) (slot : Slot) (id : ResourceId) (provider : AliasProvider) :
    Action (Option String) := do
  let used ← Action.ask (·.allocatedValues id slot)
  match spec.value with
  | some value =>
    if !provider.pool.accepts value then
      modify (·.addError (.valueInvalid id value))
      pure none
    else if used.contains value then
      modify (·.addError (.valueAlreadyAllocated id value))
      pure none
    else pure (some value)
  | none =>
    match provider.pool.firstFree? used with
    | some value => pure (some value)
    | none =>
      modify (·.addError (.valueNotAvailable id))
      pure none

def reserve (spec : AliasSpec) (slot : Slot) (id : ResourceId) (provider : AliasProvider)
    (value : String) : Action Nat := do
  let aliases := (provider.matching spec.types spec.technologies).map (·.generate value)
  let key ← modifyGet (·.create (.made slot (.aliases id aliases)))
  let child ← modifyGet (·.create (.made slot (.value id value)))
  Action.change (·.attach key child)
  pure key

def tryAll (spec : AliasSpec) (slot : Slot) : List Candidate → Action (Option Nat)
  | [] => pure none
  | candidate :: rest => do
    let id := candidate.resource
    match ((← get).resource? id).bind (·.aliasProvider?) with
    | none => tryAll spec slot rest
    | some provider =>
      modify (·.openReport (.allocatingValue id))
      match ← spec.pickValue slot id provider with
      | none =>
        modify (·.closeError)
        tryAll spec slot rest
      | some value =>
        modify (·.closeReport)
        some <$> spec.reserve slot id provider value

/-- The resource, if it provides aliases, refuses to hand out the value. -/
def refuses (registry : Registry) (value : String) (id : ResourceId) : Bool :=
  match (registry.get? id).bind (·.aliasProvider?) with
  | some provider => !provider.pool.accepts value
  | none => true

/-- Why no provider was found. A value that every eligible provider refuses is no question of
capacity. -/
def reason (spec : AliasSpec) (registry : Registry) (ids : List ResourceId) : Report :=
  match spec.value, ids.head? with
  | some value, some first =>
    if ids.all (refuses registry value) then .valueInvalid first value
    else .noAvailableResource spec.capability
  | _, _ => .noAvailableResource spec.capability

def allocate (spec : AliasSpec) (target : Option ResourceId) (slot : Slot) : Attempt Nat := do
  let ids ← Survey.eligible spec.resource slot (spec.isUsable target) spec.capability
  let candidates ← Survey.candidates spec.resource slot .values ids
  match ← spec.tryAll slot candidates with
  | some key => pure key
  | none => Attempt.refuse (spec.reason (← get).registry ids)

/-- The job for an alias. A provider that is restricted to its own rooms serves it only if `target`,
the resource that the alias is for, is that provider. -/
def job (spec : AliasSpec) (target : Option ResourceId) (slot : Slot) : Job :=
  .new slot (.allocatingAlias spec.types spec.technologies) (spec.allocate target)

end Conference.AliasSpec
