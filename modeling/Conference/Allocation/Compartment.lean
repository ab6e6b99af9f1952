import Conference.Allocation.Exclusive
import Conference.Allocation.Room
import Conference.Connectivity
import Conference.TechnologyPlan

/-!
# Compartments

The allocation of a group of participants that are connected with each other: two single endpoints
with a technology in common directly, all others through one room.
-/

namespace Conference.Compartment

structure Endpoint where
  label : String
  technologies : TechnologySet
  /-- The number of endpoints that it stands for. -/
  count : Nat
  key : Nat
deriving DecidableEq

/-- The room that connects the participants. -/
structure Bridge where
  label : String
  key : Nat
deriving DecidableEq

def endpointCount (participants : List Participant) : Nat :=
  participants.foldr (fun p n => p.count + n) 0

def terminalEndpoint (session : Session) (id : ResourceId) (key : Nat) : Endpoint where
  label := id.text
  technologies := ((session.resource? id).map (·.technologies)).getD .empty
  count := 1
  key := key

/-- Allocates the first of some terminals that can be allocated. -/
def tryTerminals (slot : Slot) : List Candidate → Action (Option Endpoint)
  | [] => pure none
  | candidate :: rest => do
    let id := candidate.resource
    match ← Action.outcome (Exclusive.endpointJob id id.text slot).run with
    | .ok key => pure (some (terminalEndpoint (← get) id key))
    | .error _ => tryTerminals slot rest

/-- Fails for the reason that a report gives, and ends the innermost open report as an error. -/
def refuseLookup {α : Type} (report : Report) : Attempt α := do
  let failure ← modifyGet (·.fail report)
  modify (·.closeError)
  throw failure

/-- Allocates any free terminal that speaks one of the technologies. -/
def lookUp (slot : Slot) (technologies : TechnologySet) : Attempt Endpoint := do
  modify (·.openReport (.lookingUpEndpoint technologies))
  let capability := s!"a terminal ({technologies.render})"
  match (← get).registry.select (fun r => r.terminal?.isSome && r.supportsAny technologies) with
  | [] => refuseLookup (.noResourceWithCapability capability)
  | ids =>
    let candidates ← Survey.available slot .exclusive ids
    match ← tryTerminals slot candidates with
    | some endpoint =>
      modify (·.closeReport)
      pure endpoint
    | none => refuseLookup (.noAvailableResource capability)

/-- Allocates a participant. One from outside the inventory is named by its place, counted from
one. -/
def place (slot : Slot) (index : Nat) : Participant → Attempt Endpoint
  | .existing id => do
    let key ← (Exclusive.endpointJob id id.text slot).run
    pure (terminalEndpoint (← get) id key)
  | .lookup technologies => lookUp slot technologies
  | .external technologies count => do
    let label := s!"external endpoint {index + 1}"
    let key ← modifyGet (·.create (.made slot (.endpoint label none technologies count)))
    pure ⟨label, technologies, count, key⟩

/-- Allocates all participants from a place on. -/
def placeAll (slot : Slot) : (index : Nat) → List Participant → Attempt (List Endpoint)
  | _, [] => pure []
  | index, participant :: participants => do
    let endpoint ← place slot index participant
    let others ← placeAll slot (index + 1) participants
    pure (endpoint :: others)

/-- The first technology of both sets. -/
def common? (s t : TechnologySet) : Option Technology := (s.inter t).toList.head?

/-- Connects two endpoints directly, if both are single and have a technology in common. -/
def direct (a b : Endpoint) : Except Report Connection :=
  if 1 < a.count ∨ 1 < b.count then .error (.connectionToMultipleEndpoints a.label b.label)
  else match common? a.technologies b.technologies with
    | some technology => .ok ⟨a.label, b.label, technology⟩
    | none => .error (.connectionIncompatible a.label b.label)

/-- Tries to connect the endpoints without a room. Only two can be. -/
def connectDirectly : List Endpoint → Action (Option Connection)
  | [a, b] => do
    modify (·.openReport (.connectingDirectly a.label b.label))
    match direct a b with
    | .ok connection =>
      modify (·.closeReport)
      pure (some connection)
    | .error reason =>
      modify (·.addError reason)
      modify (·.closeError)
      pure none
  | _ => pure none

/-- What a node of a room is called in connections. -/
def bridgeLabel (session : Session) (key : Nat) : String :=
  match (session.reservations.get? key).bind (·.kind.resource?) with
  | some id => s!"room {id.text}"
  | none => "room"

def roomTechnologies (session : Session) (key : Nat) : TechnologySet :=
  match session.reservations.get? key with
  | some node => match node.kind with
    | .room _ _ technologies => technologies
    | _ => .empty
  | none => .empty

/-- Tries sets of technologies until a room that speaks all of one set can be allocated. The failure
is that of the last one. -/
def tryBridges (slot : Slot) (participants : Nat) (last : Option Failure) :
    List TechnologySet → Action (Except (Option Failure) Bridge)
  | [] => pure (.error last)
  | technologies :: rest => do
    modify (·.openReport (.bridgingWithRoom technologies))
    let spec : RoomSpec := ⟨participants, technologies, none, []⟩
    match ← Action.outcome (spec.job slot).run with
    | .ok key =>
      modify (·.closeReport)
      pure (.ok ⟨bridgeLabel (← get) key, key⟩)
    | .error failure =>
      modify (·.closeError)
      tryBridges slot participants (some failure) rest

def bridgeable (registry : Registry) (endpoints : List Endpoint) : List TechnologySet :=
  (TechnologySet.combinations (endpoints.map (·.technologies))).filter fun technologies =>
    !(registry.select fun r => r.roomProvider?.isSome && r.supportsAll technologies).isEmpty

/-- The largest count that fits into 32 bits. -/
def maxCount : Nat := 4294967295

/-- The sum of the endpoints' counts. It has to fit into 32 bits. -/
def participantCount (endpoints : List Endpoint) : Except Fault Nat :=
  let n := endpoints.foldr (fun e n => e.count + n) 0
  if n ≤ maxCount then .ok n else .error .countOverflow

/-- Allocates a room that connects all endpoints. -/
def bridge (slot : Slot) (endpoints : List Endpoint) : Attempt Bridge := do
  let all : TechnologySet := Selection.join (endpoints.map (·.technologies))
  match bridgeable (← get).registry endpoints with
  | [] => Attempt.refuse (.noBridgingRoom all)
  | sets =>
    let participants ← Attempt.ask (fun _ => participantCount endpoints)
    match ← tryBridges slot participants none sets with
    | .ok bridge => pure bridge
    | .error (some failure) => throw failure
    | .error none => Attempt.refuse (.noBridgingRoom all)

def spokes (label : String) (technologies : TechnologySet) (endpoints : List Endpoint) :
    List Connection :=
  endpoints.filterMap fun endpoint =>
    (common? endpoint.technologies technologies).map (⟨endpoint.label, label, ·⟩)

def connect (slot : Slot) (endpoints : List Endpoint) :
    Attempt (List Connection × Option Bridge) := do
  match ← connectDirectly endpoints with
  | some connection => pure ([connection], none)
  | none =>
    let bridge ← bridge slot endpoints
    let technologies := roomTechnologies (← get) bridge.key
    pure (spokes bridge.label technologies endpoints, some bridge)

/-- Checks that the connections reach every endpoint from the first one. -/
def verify (endpoints : List Endpoint) (bridge : Option Bridge) (connections : List Connection) :
    Attempt Unit := do
  let labels := endpoints.map (·.label) ++ bridge.toList.map (·.label)
  match Connectivity.unreachable labels (connections.map (fun c => (c.origin, c.target)))
      endpoints.length with
  | [] => pure ()
  | unreachable => Attempt.refuse (.participantsNotConnected unreachable)

/-- Makes nodes the children of another, in their order. -/
def attachAll (parent : Nat) : List Nat → Action Unit
  | [] => pure ()
  | key :: keys => do
    Action.change (·.attach parent key)
    attachAll parent keys

def allocate (participants : List Participant) (slot : Slot) : Attempt Nat := do
  let count := endpointCount participants
  if count < 2 then Attempt.refuse (.tooFewParticipants count)
  else
    let endpoints ← placeAll slot 0 participants
    let (connections, bridge) ← connect slot endpoints
    verify endpoints bridge connections
    let key ← modifyGet (·.create (.made slot (.compartment connections)))
    attachAll key (endpoints.map (·.key) ++ bridge.toList.map (·.key))
    pure key

def job (participants : List Participant) (slot : Slot) : Job :=
  .new slot (.allocatingCompartment participants.length) (allocate participants)

end Conference.Compartment
