import Conference.Allocation.Room
import Conference.Proofs.Allocation.Alias

/-!
# Rooms are orderly

The aliases of a room are jobs of their own, and their trees become children of the node of the
room. When one of them fails, the room and the aliases before it are rolled back, so that the next
candidate starts from what there was.
-/

namespace Conference.RoomSpec

variable {spec : RoomSpec} {slot : Slot}

theorem addAliases_ensures {base : Session} {host : ResourceId} {room : Nat}
    (specs : List AliasSpec) :
    ∀ {s : Session} {ps : List Nat}, base.Builds s [room :: ps] →
      (addAliases slot host room specs).Ensures s (fun _ t => ∃ ps', base.Builds t [room :: ps'])
        fun _ t => base.Leaves t := by
  induction specs with
  | nil =>
    intro s ps builds
    exact Attempt.Ensures.pure ⟨ps, builds⟩
  | cons aliasSpec specs ih =>
    intro s ps builds
    have orderly := AliasSpec.orderly_job aliasSpec (some host) slot
    -- each alias is hung below the room, and the room goes with the aliases when one fails
    have first : ((aliasSpec.job (some host) slot).runUnder room).Ensures s
        (fun _ t => ∃ ps', base.Builds t [room :: ps']) fun _ t => base.Leaves t :=
      (Job.runUnder_ensures orderly builds).mono (fun _ _ h => h) fun _ _ h => h.leaves
    refine Attempt.Ensures.bind first ?_
    rintro key t ⟨ps', builds'⟩
    exact ih builds'

theorem admits_room {s : Session} {c : Candidate} {used : Nat}
    (maximum : ∃ r, s.resource? c.resource = some r
      ∧ c.maximum = (r.capacity? .roomLicenses).getD 0)
    (known : used = s.load c.resource slot .roomLicenses)
    (enough : ¬ c.maximum - used < spec.participants) :
    s.Admits c.resource slot (.roomLicenses spec.participants) where
  capacity := by
    obtain ⟨r, found, most⟩ := maximum
    refine ⟨r, found, ?_⟩
    show spec.participants = 0
      ∨ s.load c.resource slot .roomLicenses
        + spec.participants ≤ (r.capacity? .roomLicenses).getD 0
    rw [← most, ← known]
    -- an overbooked provider has nothing left, and then only an empty room fits
    omega
  free := fun _ h => nomatch h

theorem place_places {s : Session} {c : Candidate}
    (maximum : ∃ r, s.resource? c.resource = some r
      ∧ c.maximum = (r.capacity? .roomLicenses).getD 0) :
    (spec.place slot c).Ensures s s.Places := by
  unfold place
  apply Action.Ensures.modify_bind
  have opened := s.quiet_openReport (.allocatingResource c.resource)
  refine Action.Ensures.mono ?_ fun _ _ placed => Session.Places.after placed (.of_quiet opened)
  rw [← opened.resource?] at maximum
  -- from here on the session is the one that is rolled back to
  generalize s.openReport (.allocatingResource c.resource) = t at maximum
  apply Action.Ensures.ask_bind
  intro used known
  simp only
  split
  · apply Action.Ensures.modify_bind
    apply Action.Ensures.modify_bind
    apply Action.Ensures.pure
    exact .of_quiet ((t.quiet_addError _).trans (Session.quiet_closeError _))
  · rename_i enough
    apply Action.Ensures.get_bind
    apply Action.Ensures.modifyGet_bind
    have room := Session.Builds.create_of_quiet (.refl t)
      (.made slot (.room c.resource spec.participants spec.technologies))
      fun id' slot' usage claim current => by
        cases claim
        exact admits_room maximum (current.used_eq known) enough
    have aliases : (addAliases slot c.resource t.reservations.nextKey spec.aliases).Ensures _ _ _ :=
      addAliases_ensures spec.aliases room
    refine Action.Ensures.bind (Action.Ensures.outcome aliases) ?_
    intro r u done
    cases r with
    | error failure =>
      -- the aliases before the one that failed go together with the room
      obtain ⟨made, builds⟩ := done
      apply Action.Ensures.modify_bind
      apply Action.Ensures.modify_bind
      apply Action.Ensures.pure
      exact builds.undo.quiet (Session.quiet_closeError _)
    | ok _ =>
      obtain ⟨ps, builds⟩ := done
      apply Action.Ensures.modify_bind
      apply Action.Ensures.pure
      exact ⟨ps, builds.quiet u.quiet_closeReport⟩

theorem tryAll_places (cs : List Candidate) :
    ∀ s : Session, (∀ c ∈ cs, ∃ r, s.resource? c.resource = some r ∧
        c.maximum = (r.capacity? .roomLicenses).getD 0) →
      (spec.tryAll slot cs).Ensures s s.Places := by
  induction cs with
  | nil =>
    intro s _
    exact Action.Ensures.pure (.start s)
  | cons c cs ih =>
    intro s maxima
    unfold tryAll
    refine Action.Ensures.bind (place_places (maxima c List.mem_cons_self)) ?_
    intro r t placed
    cases r with
    | some key => exact Action.Ensures.pure placed
    | none =>
      have nothing : s.Builds t [] := placed
      -- what is in use is asked for anew; only the maximum is kept from the survey
      have others : (spec.tryAll slot cs).Ensures t t.Places := by
        refine ih t fun d hd => ?_
        rw [nothing.resource?]
        exact maxima d (List.mem_cons_of_mem _ hd)
      exact others.mono fun _ _ h => h.after nothing

theorem allocate_buildsTree (spec : RoomSpec) (slot : Slot) (s : Session) :
    (spec.allocate slot).BuildsTree s := by
  unfold allocate
  refine Attempt.Ensures.bind (Survey.eligible_ensures _ slot _ _ s) ?_
  intro ids t quiet
  refine Attempt.Ensures.bind
    (Attempt.Ensures.lift (Survey.candidates_ensures _ slot .roomLicenses ids t)) ?_
  rintro cs u ⟨surveyed, accurate⟩
  -- what the survey read of the resources holds in the session it has led to
  have tried : (spec.tryAll slot cs).Ensures u u.Places := by
    refine tryAll_places cs u fun c hc => ?_
    rw [surveyed.resource?]
    exact (accurate c hc).maximum
  refine Attempt.Ensures.bind (Attempt.Ensures.lift tried) ?_
  intro key v placed
  have whole := placed.after (.of_quiet (quiet.trans surveyed))
  cases key with
  | some key => exact Attempt.Ensures.pure whole
  | none =>
    apply Attempt.Ensures.refuse
    exact Session.Leaves.after (.of_quiet (v.quiet_fail _)) whole

theorem orderly_job (spec : RoomSpec) (slot : Slot) : (spec.job slot).Orderly :=
  fun s => spec.allocate_buildsTree slot s

end Conference.RoomSpec
