import Conference.Proofs.Granted.Labels
import Conference.Proofs.Scheduler.Compartment
import Conference.Proofs.Scheduler.Integrity
import Conference.Scenario

/-!
# Rooms are large enough

The room that bridges between the participants of a compartment has a license for each endpoint for
which they stand, and it claims these licenses from its resource. The endpoints are counted in a
word of 32 bits, one participant after the other. That gives their exact number if it fits into the
word, and otherwise is a fault, whatever a room could hold.
-/

namespace Conference

namespace Attempt

variable {α β : Type} {s : Session} {fault : Fault}

theorem get_bind_apply (next : Session → Attempt β) (s : Session) :
    ((get : Attempt Session) >>= next) s = next s s :=
  rfl

theorem ask_bind_of_error {f : Session → Except Fault α} (next : α → Attempt β)
    (met : f s = .error fault) :
    (Attempt.ask f >>= next) s = .error fault := by
  have asked : Attempt.ask f s = .error fault := by
    show ((Action.ask f s).bind _ : Except Fault _) = _
    rw [Action.ask, met]
    rfl
  show ((Attempt.ask f s).bind _ : Except Fault _) = _
  rw [asked]
  rfl

end Attempt

namespace Compartment

variable {g : Registry} {slot : Slot} {s t : Session}
  {participants : List Participant} {es : List Endpoint}

/-! ## The count -/

/-- The number of endpoints for which the participants stand. -/
def total (participants : List Participant) : Nat := (participants.map (·.count)).sum

/-- Adds counts to a sum, which has to fit into 32 bits each time. -/
def addUp (sum : Nat) : List Nat → Except Fault Nat
  | [] => .ok sum
  | n :: ns => if sum + n ≤ maxCount then addUp (sum + n) ns else .error .countOverflow

theorem endpointCount_eq_total (participants : List Participant) :
    endpointCount participants = total participants := by
  rw [total, List.sum_eq_foldr, List.foldr_map]
  rfl

/-- By induction on the counts: one that does not fit is not made good by those behind it. -/
theorem addUp_eq (ns : List Nat) : ∀ {sum : Nat}, sum ≤ maxCount →
    addUp sum ns = if sum + ns.sum ≤ maxCount then .ok (sum + ns.sum)
      else .error .countOverflow := by
  induction ns with
  | nil => exact fun fits => (if_pos fits).symm
  | cons n ns ih =>
    intro sum fits
    rw [addUp, List.sum_cons, ← Nat.add_assoc]
    split
    · rename_i fits'
      exact ih fits'
    · rename_i above
      exact (if_neg fun fits' => above (Nat.le_trans (Nat.le_add_right _ _) fits')).symm

/-- The endpoints are counted one after the other. -/
theorem participantCount_eq_addUp (es : List Endpoint) :
    participantCount es = addUp 0 (es.map (·.count)) := by
  rw [addUp_eq _ (Nat.zero_le _), Nat.zero_add, List.sum_eq_foldr, List.foldr_map]
  rfl

theorem participantCount_eq (counts : es.map (·.count) = participants.map (·.count)) :
    participantCount es
      = if total participants ≤ maxCount then .ok (total participants)
        else .error .countOverflow := by
  rw [participantCount_eq_addUp, addUp_eq _ (Nat.zero_le _), Nat.zero_add, counts]
  rfl

/-- Where there is a set of technologies to try, the endpoints are counted before that. -/
theorem bridge_eq_countOverflow (counts : es.map (·.count) = participants.map (·.count))
    (planned : bridgeable t.registry es ≠ []) (above : maxCount < total participants) :
    bridge slot es t = .error .countOverflow := by
  have counted : participantCount es = .error .countOverflow := by
    rw [participantCount_eq counts, if_neg (Nat.not_le.2 above)]
  obtain ⟨first, rest, sets⟩ := List.exists_cons_of_ne_nil planned
  unfold bridge
  rw [Attempt.get_bind_apply, sets]
  exact Attempt.ask_bind_of_error _ counted

/-! ## The room -/

/-- The node is that of a room with `n` licenses, which it claims from its resource. -/
def IsRoomFor (slot : Slot) (n : Nat) (node : Reservation) : Prop :=
  ∃ id technologies, node.kind = .room id n technologies
    ∧ node.claim? = some (id, slot, .roomLicenses n)

/-- The nodes below another one are those of as many endpoints, none of which is a room, and the
room, if there is one, with `n` licenses. -/
def Seated (f : ReservationForest) (slot : Slot) (endpoints n parent : Nat) : Prop :=
  ∃ (ends : List Nat) (room : Option Nat), f.children parent = ends ++ room.toList
    ∧ ends.length = endpoints
    ∧ (∀ key ∈ ends, ∃ node, f.get? key = some node ∧ ∀ id licenses technologies,
        node.kind ≠ .room id licenses technologies)
    ∧ ∀ key ∈ room, ∃ node, f.get? key = some node ∧ IsRoomFor slot n node

theorem connect_seats (h : s.Under g) (slot : Slot) (es : List Endpoint) :
    (connect slot es).Delivers s fun c t =>
      ∀ b ∈ c.2, ∃ n, participantCount es = .ok n ∧ b.Seats slot t.reservations n := by
  unfold connect
  refine Attempt.Ensures.bind (Attempt.Ensures.lift (connectDirectly_quiet es s)) ?_
  intro found t quiet
  split
  · exact Attempt.Ensures.pure fun _ never => nomatch never
  · refine Attempt.Ensures.bind (bridge_speaks (h.of_quiet quiet) slot es) ?_
    rintro b u ⟨-, seats⟩
    apply Attempt.Ensures.get_bind
    apply Attempt.Ensures.pure
    rintro _ ⟨⟩
    exact seats

/-- The node of an endpoint is no room. -/
theorem Endpoint.StandsFor.not_room {e : Endpoint} {f : ReservationForest} {index : Nat}
    {p : Participant} (stands : e.StandsFor g slot f index p) :
    ∃ node, f.get? e.key = some node
      ∧ ∀ id licenses technologies, node.kind ≠ .room id licenses technologies := by
  cases p with
  | existing id => exact ⟨_, stands.node, nofun⟩
  | lookup technologies =>
    obtain ⟨id, terminal, -⟩ := stands
    exact ⟨_, terminal.node, nofun⟩
  | external technologies count =>
    obtain ⟨-, -, -, node⟩ := stands
    exact ⟨_, node, nofun⟩

/-- The nodes below that of the compartment are those of the endpoints, and the room, which is there
for the number that has been counted. -/
theorem allocate_seats (h : s.Under g) (participants : List Participant) (slot : Slot) :
    (allocate participants slot).Delivers s fun key t =>
      Seated t.reservations slot participants.length (total participants) key := by
  unfold allocate
  simp only
  split
  · exact Attempt.Delivers.refuse
  · refine Attempt.Ensures.bind
      (Attempt.Delivers.and (placeAll_ensures participants 0 s) (Attempt.Delivers.and
        (placeAll_standsFor participants 0 h) (placeAll_counts participants 0 s))) ?_
    rintro es t ⟨⟨_, builds, -⟩, placed, counts⟩
    have under := h.builds builds
    refine Attempt.Ensures.bind
      (Attempt.Delivers.and (connect_ensures slot es t) (connect_seats under slot es)) ?_
    rintro ⟨connections, room⟩ u ⟨⟨_, builds', -⟩, seats⟩
    have start := (under.builds builds').progress
    refine Attempt.Ensures.bind
      (Attempt.Delivers.of_ensures (verify_quiet es room connections u)) ?_
    rintro _ u rfl
    refine (adopt_delivers start (.made slot (.compartment connections)) _).mono
      fun key v done => ?_
    obtain ⟨extend, -, children⟩ := done
    have length : es.length = participants.length := by
      have same := congrArg List.length counts
      rwa [List.length_map, List.length_map] at same
    refine ⟨es.map (·.key), room.map (·.key), ?_, ?_, ?_, ?_⟩
    · refine children.trans ?_
      cases room <;> rfl
    · rw [List.length_map, length]
    · -- the endpoints are no rooms
      intro key mem
      obtain ⟨e, he, rfl⟩ := List.mem_map.1 mem
      obtain ⟨index, there⟩ := List.mem_iff_getElem?.1 he
      obtain ⟨p, -, stands⟩ := exists_standsFor placed there
      obtain ⟨node, found, other⟩ := (stands.extends (under.extends builds')).not_room
      exact ⟨node, extend _ _ found, other⟩
    · -- the room has as many seats as participants have been counted
      intro key mem
      obtain ⟨b, hb, rfl⟩ := Option.mem_map.1 mem
      obtain ⟨n, counted, id, technologies, found⟩ := seats b hb
      rw [participantCount_eq counts] at counted
      split at counted
      · obtain rfl := Except.ok.inj counted
        exact ⟨_, extend _ _ found, id, technologies, rfl, rfl⟩
      · cases counted

end Compartment

namespace Scheduler

open Compartment

/-- Below the node of a granted compartment, a room has as many licenses as the participants stand
for endpoints, and claims that many. A compartment with no more endpoints than can be counted comes
to an end, and one with more meets the fault as soon as it asks for a room. -/
theorem granted_room_is_sized {s : Scheduler} (arises : s.Arises) (participants : List Participant)
    (slot : Slot) (ledger : Ledger) :
    (∀ done tree, s.allocate (.compartment participants) slot ledger = .ok done →
      done.result = .ok tree →
      ∃ root, tree.root = some root
        ∧ Seated tree slot participants.length (total participants) root)
    ∧ (total participants ≤ maxCount →
      ∃ done, s.allocate (.compartment participants) slot ledger = .ok done)
    ∧ ∀ (t : Session) (es : List Endpoint), es.map (·.count) = participants.map (·.count) →
      bridgeable t.registry es ≠ [] → maxCount < total participants →
        bridge slot es t = .error .countOverflow := by
  refine ⟨fun done tree run success => ?_, fun fits => ?_, fun _ _ => bridge_eq_countOverflow⟩
  · refine granted_of_delivers run success
      (P := fun tree => ∃ root, tree.root = some root
        ∧ Seated tree slot participants.length (total participants) root) fun t quiet => ?_
    exact (allocate_seats ((arises.under_session ledger).of_quiet quiet) participants slot).mono
      fun key _ seated => ⟨key, rfl, seated⟩
  · -- an allocation ends, or counts more than fit into the count
    rcases s.allocate_ends (.compartment participants) slot ledger with done | ⟨-, above⟩
    · exact done
    · rw [Specification.Overflows, endpointCount_eq_total] at above
      exact absurd fits (Nat.not_le.2 above)

/-- The studio, a phone and three who dial in need five licenses. Two groups of more than can be
counted together do not even get to ask for the gateway. -/
theorem sample_conference_is_seated :
    let s := ofInventory Sample.exchange
    let ledger := Ledger.empty "pass" ⟨0, 100, by decide⟩
    let groups : List Endpoint :=
      [⟨"west", .ofList [.h323], maxCount, 0⟩, ⟨"east", .ofList [.sip], 1, 1⟩]
    (∃ done tree root,
      s.allocate (.compartment Sample.conference) ⟨1, 5, by decide⟩ ledger = .ok done
      ∧ done.result = .ok tree ∧ tree.root = some root ∧ Seated tree ⟨1, 5, by decide⟩ 3 5 root)
    ∧ bridge ⟨1, 5, by decide⟩ groups (s.session ledger) = .error .countOverflow := by
  intro s ledger groups
  have arises : s.Arises := .ofInventory Sample.exchange
  constructor
  · have granted : s.Grants (.compartment Sample.conference) ⟨1, 5, by decide⟩ ledger := by
      decide +kernel
    obtain ⟨done, tree, run, success⟩ := granted
    have sized := granted_room_is_sized arises Sample.conference ⟨1, 5, by decide⟩ ledger
    obtain ⟨root, rooted, seated⟩ := sized.1 done tree run success
    exact ⟨done, tree, root, run, success, rooted, seated⟩
  · have overflows := granted_room_is_sized arises
      [.external (.ofList [.h323]) maxCount, .external (.ofList [.sip]) 1] ⟨1, 5, by decide⟩ ledger
    exact overflows.2.2 (s.session ledger) groups rfl (by decide +kernel) (by decide)

/-- A hall that speaks H.323, and a request for two groups from outside. Each of them can be
counted. -/
def stadium : ScenarioFile where
  domain := "stadium"
  workingInterval := ⟨0, 100⟩
  resources := [⟨"hall", "Hall", true, none, [.h323], [.roomProvider maxCount]⟩]
  allocations := []
  requests := [⟨"match", ⟨1, 5⟩, .compartment [.external [.h323] maxCount, .external [.h323] 1]⟩]

/-- The file is accepted, but together the groups cannot be counted, so no room is asked for. -/
theorem stadium_is_not_seated :
    ∃ scenario request participants, Scenario.ofFile stadium = .ok scenario
      ∧ scenario.requests = [request]
      ∧ request.specification = .compartment participants
      ∧ (∀ p ∈ participants, 0 < p.count ∧ p.count ≤ maxCount)
      ∧ (ofInventory scenario.inventory).allocate request.specification request.slot
          (.empty "pass" scenario.workingInterval) = .error .countOverflow := by
  let groups : List Participant :=
    [.external (.ofList [.h323]) maxCount, .external (.ofList [.h323]) 1]
  let hall : Resource :=
    { Resource.plain ⟨"hall"⟩ "Hall" with
      technologies := .ofList [.h323]
      capabilities := [.roomProvider maxCount] }
  -- the scenario that the file describes, with a hall that has room for the first group
  refine ⟨⟨"stadium", ⟨0, 100, by decide⟩, ⟨"stadium", [hall], [], 0⟩,
    [⟨⟨"match"⟩, ⟨1, 5, by decide⟩, .compartment groups⟩]⟩, _, groups, ?_, rfl, rfl, ?_, rfl⟩
  · decide +kernel
  · decide

end Scheduler

end Conference
