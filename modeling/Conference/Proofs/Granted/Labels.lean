import Conference.Proofs.Granted.Compartment
import Conference.Proofs.Timeline.Release

/-!
# The labels of participants

A terminal that has been placed is taken for the rest of the allocation, so no terminal is placed
twice. Two participants from outside are called differently, since they stand at different places.
So the only way for two endpoints to be called the same is a terminal that bears the name which a
participant from outside gets.
-/

namespace Conference

variable {slot : Slot} {s t : Session} {id : ResourceId} {made : List (List Nat)}

/-! ## Terminals that are taken -/

namespace Session

/-- The whole resource is allocated for the slot. -/
def Holds (s : Session) (slot : Slot) (id : ResourceId) : Prop :=
  ∃ a ∈ s.ledger.applied, a.resource = id ∧ a.slot = slot ∧ a.usage = .exclusive

theorem Holds.of_ledger (h : s.Holds slot id) (ledger : t.ledger = s.ledger) : t.Holds slot id := by
  unfold Holds
  rw [ledger]
  exact h

/-- What is held stays so while more is built. -/
theorem Holds.builds (h : s.Holds slot id) (start : s.reservations.InProgress)
    (builds : s.Builds t made) :
    t.Holds slot id := by
  obtain ⟨new, added, grows⟩ := builds.grows start
  obtain ⟨a, applied, rest⟩ := h
  refine ⟨a, ?_, rest⟩
  rw [grows.ledger]
  exact List.mem_append_left _ applied

/-- A resource that is held is in use. -/
theorem Holds.used_pos (h : s.Holds slot id) {n : Nat} (found : s.used id slot .exclusive = .ok n) :
    0 < n := by
  obtain ⟨a, applied, rfl, rfl, exclusive⟩ := h
  unfold used Registry.used at found
  cases shown : s.registry.snapshot a.resource with
  | error fault =>
    rw [shown] at found
    cases found
  | ok snapshot =>
    rw [shown] at found
    cases found
    refine Nat.pos_of_ne_zero fun free => ?_
    rw [Timeline.peak_eq_zero_iff (Registry.units_pos_of_exclusive _ _ _)] at free
    -- the claim is part of the usage, and it meets its own slot
    have mem : (⟨a, a.slot⟩ : Timeline.Entry Allocation)
        ∈ (Registry.usageOf snapshot a.resource .exclusive s.ledger).entries := by
      refine List.mem_append_right _ (List.mem_map.2 ⟨a, ?_, rfl⟩)
      simp [Ledger.appliedOn, applied, exclusive, Usage.dimension]
    exact free _ mem (Slot.overlaps_of_covers a.slot.covers_start a.slot.covers_start)

end Session

/-- A terminal that is placed was free, and is taken then. -/
theorem Exclusive.endpointJob_holds (id : ResourceId) (label : String) (slot : Slot) (s : Session) :
    (endpointJob id label slot).run.Delivers s fun _ t => ¬ s.Holds slot id ∧ t.Holds slot id := by
  apply Job.run_delivers
  show (allocate id (some label) slot).Delivers (s.enter (.allocatingEndpoint label)) _
  unfold allocate
  apply Attempt.Ensures.modifyGet_bind
  have checked : ((s.enter (.allocatingEndpoint label)).checkResource id slot).2.ledger
      = s.ledger :=
    (Session.quiet_checkResource _ id slot).ledger
  split
  · exact Attempt.Delivers.refuse
  · split
    · exact Attempt.Delivers.refuse
    · apply Attempt.Ensures.ask_bind
      intro used found
      split
      · exact Attempt.Delivers.refuse
      · -- free before, and held by the claim of the new node
        rename_i free
        refine Attempt.Ensures.modifyGet
          ⟨fun held => free ((held.of_ledger checked).used_pos found), ?_⟩
        exact ⟨_, List.mem_append_right _ (List.mem_singleton_self _), rfl, rfl, rfl⟩

namespace Compartment

variable {g : Registry}

/-- The endpoint is called by a terminal that was free in one session and is taken in another. -/
def Endpoint.Takes (e : Endpoint) (slot : Slot) (s t : Session) : Prop :=
  ∃ id : ResourceId, e.label = id.text ∧ ¬ s.Holds slot id ∧ t.Holds slot id

theorem Endpoint.Takes.after {u : Session} {e : Endpoint} (h : e.Takes slot t u)
    (start : s.reservations.InProgress) (builds : s.Builds t made) : e.Takes slot s u := by
  obtain ⟨id, label, free, taken⟩ := h
  exact ⟨id, label, fun held => free (held.builds start builds), taken⟩

theorem Endpoint.Takes.builds {u : Session} {e : Endpoint} (h : e.Takes slot s t)
    (start : t.reservations.InProgress) (builds : t.Builds u made) : e.Takes slot s u := by
  obtain ⟨id, label, free, taken⟩ := h
  exact ⟨id, label, free, taken.builds start builds⟩

/-- By induction on the candidates: those that cannot be allocated take nothing. -/
theorem tryTerminals_takes (cs : List Candidate) :
    ∀ {s : Session}, s.Under g →
      (tryTerminals slot cs).Ensures s fun found t => ∀ e ∈ found, e.Takes slot s t := by
  induction cs with
  | nil => exact fun _ => Action.Ensures.pure fun _ never => nomatch never
  | cons c cs ih =>
    intro s h
    unfold tryTerminals
    have orderly := Exclusive.orderly_endpointJob c.resource c.resource.text slot
    have both :=
      (Job.run_ensures orderly s).and
        (Exclusive.endpointJob_holds c.resource c.resource.text slot s)
    refine Action.Ensures.bind (Action.Ensures.outcome both) ?_
    intro r t done
    cases r with
    | ok key =>
      apply Action.Ensures.get_bind
      apply Action.Ensures.pure
      rintro e ⟨⟩
      exact ⟨c.resource, rfl, done.2⟩
    | error failure =>
      -- a failed attempt leaves no claim, so free behind it is free before it
      exact (ih (h.builds done.1)).mono fun found u rest e mem =>
        (rest e mem).after h.progress done.1

theorem lookUp_takes (h : s.Under g) (technologies : TechnologySet) :
    (lookUp slot technologies).Delivers s fun e t => e.Takes slot s t := by
  unfold lookUp
  apply Attempt.Ensures.modify_bind
  have opened := s.quiet_openReport (.lookingUpEndpoint technologies)
  apply Attempt.Ensures.get_bind
  split
  · exact refuseLookup_delivers _
  · refine Attempt.Ensures.bind
      (Attempt.Ensures.lift (Survey.available_ensures slot .exclusive _ _)) ?_
    rintro cs t ⟨quiet, -⟩
    have same := opened.trans quiet
    refine Attempt.Ensures.bind (Attempt.Ensures.lift (tryTerminals_takes cs (h.of_quiet same))) ?_
    intro found u taken
    cases found with
    | some endpoint =>
      apply Attempt.Ensures.modify_bind
      apply Attempt.Ensures.pure
      -- the survey claims nothing
      obtain ⟨id, label, free, held⟩ := taken endpoint rfl
      exact ⟨id, label, fun before => free (before.of_ledger same.ledger), held⟩
    | none => exact refuseLookup_delivers _

/-- The participant is a terminal of the inventory. -/
def IsInternal : Participant → Prop
  | .existing _ | .lookup _ => True
  | .external _ _ => False

theorem place_takes (h : s.Under g) (index : Nat) (p : Participant) :
    (place slot index p).Delivers s fun e t => IsInternal p → e.Takes slot s t := by
  cases p with
  | existing id =>
    unfold place
    refine Attempt.Ensures.bind (Exclusive.endpointJob_holds id id.text slot s) ?_
    intro key t held
    apply Attempt.Ensures.get_bind
    exact Attempt.Ensures.pure fun _ => ⟨id, rfl, held⟩
  | lookup technologies => exact (lookUp_takes h technologies).mono fun _ _ taken _ => taken
  | external technologies count =>
    unfold place
    apply Attempt.Ensures.modifyGet_bind
    exact Attempt.Ensures.pure fun never => never.elim

/-- Of two participants at most one is a terminal, or they are called differently. -/
def CalledApart (a b : Participant × Endpoint) : Prop :=
  IsInternal a.1 → IsInternal b.1 → a.2.label ≠ b.2.label

/-- By induction on the participants: a terminal that has been placed is not free for any later
one. -/
theorem placeAll_calledApart (participants : List Participant) :
    ∀ (index : Nat) {s : Session}, s.Under g →
      (placeAll slot index participants).Delivers s fun es t =>
        List.Forall₂ (fun p e => IsInternal p → Endpoint.Takes e slot s t) participants es
          ∧ (participants.zip es).Pairwise CalledApart := by
  induction participants with
  | nil => exact fun _ _ _ => Attempt.Ensures.pure ⟨.nil, .nil⟩
  | cons p ps ih =>
    intro index s h
    unfold placeAll
    refine Attempt.Ensures.bind
      (Attempt.Delivers.and (place_ensures slot index p s) (place_takes h index p)) ?_
    rintro e t ⟨⟨_, builds⟩, first⟩
    have under := h.builds builds
    refine Attempt.Ensures.bind
      (Attempt.Delivers.and (placeAll_ensures ps (index + 1) t) (ih (index + 1) under)) ?_
    rintro es u ⟨⟨made, builds', -⟩, rest, apart⟩
    apply Attempt.Ensures.pure
    refine ⟨.cons (fun terminal => (first terminal).builds under.progress builds')
      (rest.imp fun _ _ later terminal => (later terminal).after h.progress builds), ?_⟩
    rw [List.zip_cons_cons, List.pairwise_cons]
    refine ⟨?_, apart⟩
    rintro ⟨q, f⟩ mem terminal terminal' same
    -- the first terminal is taken when the other one is placed, which was free then
    obtain ⟨id, label, -, held⟩ := first terminal
    obtain ⟨id', label', free, -⟩ := (List.forall₂_iff_zip.1 rest).2 mem terminal'
    obtain ⟨text⟩ := id
    obtain ⟨text'⟩ := id'
    obtain rfl : text = text' := label.symm.trans (same.trans label')
    exact free held

/-! ## Names -/

/-- A terminal is called as a participant from outside is by its place, and takes part as another
one. -/
def NameClash (g : Registry) (participants : List Participant) : Prop :=
  ∃ (index other : Nat) (technologies : TechnologySet) (count : Nat) (r : Resource),
    participants[index]? = some (.external technologies count)
      ∧ g.get? r.id = some r ∧ r.terminal?.isSome ∧ r.id.text = s!"external endpoint {index + 1}"
      ∧ (participants[other]? = some (.existing r.id)
        ∨ ∃ wanted, participants[other]? = some (.lookup wanted) ∧ r.supportsAny wanted)

theorem external_label_injective {m n : Nat}
    (same : s!"external endpoint {m + 1}" = s!"external endpoint {n + 1}") : m = n := by
  have numerals : (m + 1).repr = (n + 1).repr := by simpa using same
  have digits := String.ofList_injective numerals
  exact Nat.succ.inj (Numeral.digits_injective digits)

section Names

variable {f : ReservationForest} {participants : List Participant} {es : List Endpoint}

/-- An endpoint is called by its place, or else by the terminal that it is. -/
theorem Endpoint.StandsFor.called {e : Endpoint} {index : Nat} {p : Participant}
    (h : e.StandsFor g slot f index p) :
    (∃ technologies count, p = .external technologies count
      ∧ e.label = s!"external endpoint {index + 1}")
      ∨ IsInternal p ∧ ∃ r, g.get? r.id = some r ∧ r.terminal?.isSome ∧ r.id.text = e.label
        ∧ (p = .existing r.id ∨ ∃ wanted, p = .lookup wanted ∧ r.supportsAny wanted) := by
  cases p with
  | existing id =>
    obtain ⟨r, found, terminal, -⟩ := Endpoint.IsTerminal.registered h
    obtain rfl := Registry.id_of_get? found
    exact Or.inr ⟨trivial, r, found, terminal, (Endpoint.IsTerminal.label h).symm, Or.inl rfl⟩
  | lookup wanted =>
    obtain ⟨id, there, r', found', speaks⟩ := h
    -- the lookup has found some terminal, and the label is its id
    obtain ⟨r, found, terminal, -⟩ := there.registered
    rw [found, Option.some.injEq] at found'
    rw [← found'] at speaks
    obtain rfl := Registry.id_of_get? found
    exact Or.inr ⟨trivial, r, found, terminal, there.label.symm, Or.inr ⟨wanted, rfl, speaks⟩⟩
  | external technologies count => exact Or.inl ⟨technologies, count, rfl, h.1⟩

theorem exists_standsFor
    (stands : List.Forall₂ (fun p e => Endpoint.StandsFor e g slot f p.2 p.1)
      participants.zipIdx es)
    {index : Nat} {e : Endpoint} (there : es[index]? = some e) :
    ∃ p, participants[index]? = some p ∧ e.StandsFor g slot f index p := by
  obtain ⟨whole, each⟩ := List.forall₂_iff_get.1 stands
  obtain ⟨bound, rfl⟩ := List.getElem?_eq_some_iff.1 there
  rw [List.length_zipIdx] at whole
  have stand := each index (by rw [List.length_zipIdx, whole]; exact bound) bound
  simp only [List.get_eq_getElem, List.getElem_zipIdx, Nat.zero_add] at stand
  exact ⟨_, List.getElem?_eq_getElem (by rw [whole]; exact bound), stand⟩

/-- Two endpoints of one name are a participant from outside and a terminal. -/
theorem nameClash_of_not_nodup
    (stands : List.Forall₂ (fun p e => Endpoint.StandsFor e g slot f p.2 p.1)
      participants.zipIdx es)
    (apart : (participants.zip es).Pairwise CalledApart) (repeated : ¬ (es.map (·.label)).Nodup) :
    NameClash g participants := by
  rw [List.nodup_iff_getElem?_ne_getElem?] at repeated
  simp only [not_forall, not_not, List.length_map] at repeated
  obtain ⟨i, j, less, bound, same⟩ := repeated
  have first : es[i]? = some es[i] := List.getElem?_eq_getElem (Nat.lt_trans less bound)
  have second : es[j]? = some es[j] := List.getElem?_eq_getElem bound
  rw [List.getElem?_map, List.getElem?_map, first, second] at same
  have same : es[i].label = es[j].label := Option.some.inj same
  obtain ⟨p, hp, stand⟩ := exists_standsFor stands first
  obtain ⟨q, hq, stand'⟩ := exists_standsFor stands second
  rcases stand.called with ⟨technologies, count, rfl, label⟩ | ⟨internal, r, found,
    terminal, label, taken⟩
  · rcases stand'.called with ⟨_, _, rfl, label'⟩ | ⟨-, r, found, terminal, label', taken⟩
    · have one := external_label_injective (label.symm.trans (same.trans label'))
      omega
    · refine ⟨i, j, technologies, count, r, hp, found, terminal,
        label'.trans (same.symm.trans label), ?_⟩
      rcases taken with rfl | ⟨wanted, rfl, speaks⟩
      · exact Or.inl hq
      · exact Or.inr ⟨wanted, hq, speaks⟩
  · rcases stand'.called with ⟨technologies, count, rfl, label'⟩ | ⟨internal', -⟩
    · refine ⟨j, i, technologies, count, r, hq, found, terminal,
        label.trans (same.trans label'), ?_⟩
      rcases taken with rfl | ⟨wanted, rfl, speaks⟩
      · exact Or.inl hp
      · exact Or.inr ⟨wanted, hp, speaks⟩
    · -- no terminal is placed twice
      have zipped {k : Nat} {x : Participant} {e : Endpoint} (hx : participants[k]? = some x)
          (he : es[k]? = some e) : (participants.zip es)[k]? = some (x, e) :=
            List.getElem?_zip_eq_some.2 ⟨hx, he⟩
      obtain ⟨_, at_i⟩ := List.getElem?_eq_some_iff.1 (zipped hp first)
      obtain ⟨_, at_j⟩ := List.getElem?_eq_some_iff.1 (zipped hq second)
      have called := List.pairwise_iff_getElem.1 apart i j ‹_› ‹_› less
      rw [at_i, at_j] at called
      exact absurd same (called internal internal')

end Names

end Compartment

end Conference
