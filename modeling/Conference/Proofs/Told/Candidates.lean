import Conference.Proofs.Causes.Kinds
import Conference.Proofs.Granted.Nodes
import Conference.Proofs.Told.Kinds

/-!
# No candidate goes unmentioned

A search goes through all resources that come into question. One that drops out on the way, at the
survey or when it is tried, leaves an error about itself; what is reported stays, so at the end of a
search that has found nothing each of the resources is accounted for. An alias that cannot be had
for a room is an error below that of the room.
-/

namespace Conference

variable {slot : Slot} {s t : Session} {id : ResourceId}

/-- The report says that a search among resources that have what is asked for has come to
nothing. -/
def Report.EndsSearch : Report → Prop
  | noAvailableResource _ | valueInvalid .. => True
  | _ => False

namespace Session

/-- An error about a resource accounts for it. -/
theorem accounts_addError (sound : s.Scoped) {report : Report} (named : report.resource? = some id)
    (kind : report.failureKind?.isSome) : (s.addError report).reports.Accounts id :=
  .of_self (get?_addError sound report) rfl named kind

/-- A resource that is accounted for stays so. -/
theorem Tells.accounts (tells : s.Tells t) (accounts : s.reports.Accounts id) :
    t.reports.Accounts id :=
  accounts.of_extends tells.reports.extend

/-- Also when the open report is closed as an error. -/
theorem accounts_closeError (accounts : s.reports.Accounts id) : s.closeError.reports.Accounts id :=
  accounts.of_extends s.extends_closeError

/-- Leaving a failed task only marks reports. -/
theorem extends_leaveError (s : Session) : s.reports.Extends s.leaveError.reports :=
  List.foldlRecOn (motive := fun f => s.reports.Extends f)
    (s.openReports.take s.scope) ReportForest.markError (.refl s.reports) fun f before id _ =>
      before.trans (f.extends_markError id)

/-- A resource that fails its check is told what for. -/
theorem resource?_of_refused {reason : Report}
    (refused : (s.checkResource id slot).1 = .error reason) :
    reason.resource? = some id := by
  unfold checkResource at refused
  split at refused
  · cases refused
    rfl
  · split at refused
    · cases refused
      rfl
    · simp only at refused
      split at refused
      · cases refused
        rfl
      · cases refused

/-- A resource that does not pass the check is accounted for by the reason. -/
theorem accounts_refused (sound : s.Scoped) {reason : Report}
    (refused : (s.checkResource id slot).1 = .error reason) :
    ((s.checkResource id slot).2.addError reason).reports.Accounts id := by
  have checked := (s.tells_checkResource id slot).stays_scoped sound
  refine accounts_addError checked (resource?_of_refused refused) ?_
  rw [failureKind?_of_checkResource refused]
  rfl

/-- What fails within a scope about a resource accounts for it, if the scope ends as an error
then. -/
theorem accounts_of_told (sound : s.Scoped) {e : Failure} {title : Report} {p : Report → Prop}
    (told : e.Told (s.openReport title) t) (cites : e.Cites t p)
    (named : title.resource? = some id) :
    t.closeError.reports.Accounts id := by
  obtain ⟨inner, blamed⟩ := told
  obtain ⟨d, found, error⟩ := blamed.exists_error
  obtain ⟨d', there, kind, -⟩ := cites.exists_entry
  rw [found] at there
  obtain rfl := Option.some.inj there
  obtain ⟨d', found', same, -, marked⟩ := t.extends_closeError _ _ found
  refine ⟨s.reports.size, e.cause, blamed.above.of_extends t.extends_closeError,
    ⟨_, get?_closeError sound inner, rfl, named⟩, d', found', marked error, ?_⟩
  rw [same, kind]
  rfl

end Session

/-! ## Surveys -/

namespace Survey

variable {dimension : Dimension}

/-- Each resource of the list is a candidate, or it is accounted for. -/
def Covers (ids : List ResourceId) (cs : List Candidate) (t : Session) : Prop :=
  ∀ id ∈ ids, (∃ c ∈ cs, c.resource = id) ∨ t.reports.Accounts id

/-- What is covered stays covered. -/
theorem Covers.tells {ids : List ResourceId} {cs : List Candidate} (covers : Covers ids cs s)
    (tells : s.Tells t) :
    Covers ids cs t :=
  fun id mem => (covers id mem).imp_right fun accounts => tells.accounts accounts

/-- An examined resource becomes a candidate, or it is accounted for: by the check, by full
capacity, or by what its usage says. -/
theorem examine_covers (sound : s.Scoped) (id : ResourceId) :
    (examine slot dimension id).Ensures s fun found t => Covers [id] found.toList t := by
  have only {found : List Candidate} {t : Session} (h : (∃ c ∈ found, c.resource = id)
      ∨ t.reports.Accounts id) :
      Covers [id] found t := by
    intro other mem
    rw [List.mem_singleton.1 mem]
    exact h
  unfold examine
  apply Action.Ensures.modify_bind
  have opened := Session.scoped_openReport sound (.checkingResource id)
  apply Action.Ensures.modifyGet_bind
  split
  · rename_i reason refused
    apply Action.Ensures.modify_bind
    apply Action.Ensures.modify_bind
    apply Action.Ensures.pure
    exact only (Or.inr (Session.accounts_closeError (Session.accounts_refused opened refused)))
  · have checked := (Session.tells_checkResource _ id slot).stays_scoped opened
    apply Action.Ensures.ask_bind
    intro used _
    -- in use, or a candidate
    split
    · apply Action.Ensures.modify_bind
      apply Action.Ensures.modify_bind
      apply Action.Ensures.pure
      exact only (Or.inr (Session.accounts_closeError (Session.accounts_addError checked rfl rfl)))
    · apply Action.Ensures.get_bind
      apply Action.Ensures.ask_bind
      intro candidate made
      apply Action.Ensures.modify_bind
      apply Action.Ensures.modify_bind
      apply Action.Ensures.pure
      refine only (Or.inl ⟨candidate, List.mem_singleton_self _, ?_⟩)
      rw [Candidate.make_eq_ok made]

/-- By induction on the list: what accounts for a resource stays while the others are looked at. -/
theorem examineAll_covers (ids : List ResourceId) :
    ∀ {s : Session}, s.Scoped → (examineAll slot dimension ids).Ensures s fun cs t =>
      s.Tells t ∧ Covers ids cs t := by
  induction ids with
  | nil => exact fun _ => Action.Ensures.pure ⟨.refl _, fun _ never => nomatch never⟩
  | cons id ids ih =>
    intro s sound
    refine Action.Ensures.bind ((examine_tells id s sound).and (examine_covers sound id)) ?_
    rintro found t ⟨told, first⟩
    refine Action.Ensures.bind (ih (told.stays_scoped sound)) ?_
    rintro others u ⟨told', rest⟩
    refine Action.Ensures.pure ⟨told.trans told', fun other mem => ?_⟩
    -- either the first id is meant, whose report stays, or a later one
    rcases List.mem_cons.1 mem with rfl | later
    · refine (first.tells told' other (List.mem_singleton_self _)).imp_left ?_
      rintro ⟨c, hc, named⟩
      exact ⟨c, List.mem_append_left _ hc, named⟩
    · refine (rest other later).imp_left ?_
      rintro ⟨c, hc, named⟩
      exact ⟨c, List.mem_append_right _ hc, named⟩

/-- So is each of the resources examined. -/
theorem available_covers (sound : s.Scoped) (ids : List ResourceId) :
    (available slot dimension ids).Ensures s fun cs t => s.Tells t ∧ Covers ids cs t := by
  unfold available
  apply Action.Ensures.modify_bind
  refine Action.Ensures.bind (examineAll_covers ids (Session.scoped_openReport sound _)) ?_
  rintro cs t ⟨inner, covers⟩
  apply Action.Ensures.modify_bind
  exact Action.Ensures.pure ⟨inner.closeReport sound, covers⟩

/-- Ranking moves the candidates and drops none. -/
theorem candidates_covers (sound : s.Scoped) (given : Option ResourceId) (ids : List ResourceId) :
    (candidates given slot dimension ids).Ensures s fun cs t => s.Tells t ∧ Covers ids cs t := by
  unfold candidates
  refine Action.Ensures.bind (available_covers sound ids) ?_
  rintro cs t ⟨told, covers⟩
  split
  · -- a free search ranks what it has found
    unfold rank
    apply Action.Ensures.modify_bind
    have ranked := Session.tells_addReport (told.stays_scoped sound)
      (.sortingResources ((Candidate.rank cs).map (·.resource)))
    refine Action.Ensures.pure ⟨told.trans ranked, fun id mem => ?_⟩
    refine (covers.tells ranked id mem).imp_left ?_
    rintro ⟨c, hc, named⟩
    exact ⟨c, (Candidate.rank_perm cs).mem_iff.2 hc, named⟩
  · exact Action.Ensures.pure ⟨told, covers⟩

end Survey

/-! ## Searches -/

/-- If the attempt fails, it says that there was nothing to search among, or accounts for all that
it has searched. -/
def Attempt.Accounts {α : Type} (a : Attempt α) (s : Session) (ids : List ResourceId) : Prop :=
  a.Ensures s (fun _ _ => True) fun e t =>
    e.Cites t (fun report => ¬ report.EndsSearch) ∨ ∀ id ∈ ids, t.reports.Accounts id

/-- A search among all usable resources starts with all of them, or does not start. -/
theorem Attempt.Accounts.eligible_bind {usable : Resource → Bool} {capability : String}
    {search : List ResourceId → Attempt Nat}
    (searched : (search (s.registry.select usable)).Accounts s (s.registry.select usable)) :
    (Survey.eligible none slot usable capability >>= search).Accounts s
      (s.registry.select usable) := by
  have started : (Survey.eligible none slot usable capability).Ensures s
      (fun ids t => ids = s.registry.select usable ∧ t = s) fun e t =>
        e.Cites t (fun report => ¬ report.EndsSearch)
          ∨ ∀ id ∈ s.registry.select usable, t.reports.Accounts id := by
    unfold Survey.eligible
    apply Attempt.Ensures.get_bind
    split
    · -- no resource is usable, which ends the search before any is looked at
      exact Attempt.Ensures.refuse (Or.inl (.fail s rfl id))
    · exact Attempt.Ensures.pure ⟨rfl, rfl⟩
  refine Attempt.Ensures.bind started ?_
  rintro ids s ⟨rfl, rfl⟩
  exact searched

/-- The candidates that have been tried without success are accounted for. -/
def Exhausts (cs : List ResourceId) (found : Option Nat) (t : Session) : Prop :=
  found = none → ∀ id ∈ cs, t.reports.Accounts id

namespace Exhausts

variable {cs : List ResourceId} {found : Option Nat}

theorem nil (found : Option Nat) (t : Session) : Exhausts [] found t :=
  fun _ _ never => absurd never List.not_mem_nil

theorem of_some (cs : List ResourceId) (key : Nat) (t : Session) : Exhausts cs (some key) t :=
  fun never => absurd never (Option.some_ne_none key)

/-- What accounts for the first candidate stays while the others are tried. -/
theorem cons (first : s.reports.Accounts id) (tells : s.Tells t) (rest : Exhausts cs found t) :
    Exhausts (id :: cs) found t := by
  intro nothing other mem
  rcases List.mem_cons.1 mem with rfl | later
  · exact tells.accounts first
  · exact rest nothing other later

/-- A survey and then a search among its candidates leave no resource out. -/
theorem of_covers {ids : List ResourceId} {cs : List Candidate}
    (exhausts : Exhausts (cs.map (·.resource)) found t) (covers : Survey.Covers ids cs s)
    (tells : s.Tells t) : Exhausts ids found t := by
  intro nothing id mem
  rcases covers.tells tells id mem with ⟨c, hc, rfl⟩ | accounts
  · exact exhausts nothing _ (List.mem_map_of_mem hc)
  · exact accounts

/-- The reason that is given in the end comes after all that accounts for the resources. -/
theorem refuse (exhausts : Exhausts cs none s) (sound : s.Scoped) (report : Report) :
    (Attempt.refuse report : Attempt Nat).Accounts s cs :=
  Attempt.Ensures.refuse (Or.inr fun id mem => (Session.tells_addError sound report).accounts
    (exhausts rfl id mem))

end Exhausts

/-! ## Aliases -/

namespace AliasSpec

variable {spec : AliasSpec} {cs : List Candidate}

/-- A provider without a value to give is accounted for on each of the ways there. -/
theorem pickValue_accounts (sound : s.Scoped) (id : ResourceId) (provider : AliasProvider) :
    (spec.pickValue slot id provider).Ensures s fun found t => found = none →
      t.reports.Accounts id := by
  unfold pickValue
  apply Action.Ensures.ask_bind
  intro used _
  -- a value was asked for, or the first free one is picked: each way to find none adds an error
  split
  · split
    · apply Action.Ensures.modify_bind
      exact Action.Ensures.pure fun _ => Session.accounts_addError sound rfl rfl
    · split
      · apply Action.Ensures.modify_bind
        exact Action.Ensures.pure fun _ => Session.accounts_addError sound rfl rfl
      · exact Action.Ensures.pure fun never => absurd never (Option.some_ne_none _)
  · split
    · exact Action.Ensures.pure fun never => absurd never (Option.some_ne_none _)
    · apply Action.Ensures.modify_bind
      exact Action.Ensures.pure fun _ => Session.accounts_addError sound rfl rfl

/-- By induction on the candidates. All of them provide aliases, so none is skipped without a
word. -/
theorem tryAll_exhausts (cs : List Candidate) :
    ∀ {s : Session}, s.Scoped →
      (∀ c ∈ cs, ((s.resource? c.resource).bind (·.aliasProvider?)).isSome) →
      (spec.tryAll slot cs).Ensures s fun found t =>
        s.Tells t ∧ Exhausts (cs.map (·.resource)) found t := by
  induction cs with
  | nil => exact fun _ _ => Action.Ensures.pure ⟨.refl _, .nil _ _⟩
  | cons c cs ih =>
    intro s sound providers
    unfold tryAll
    apply Action.Ensures.get_bind
    split
    · -- every candidate is a provider
      rename_i missing
      have provides := providers c List.mem_cons_self
      rw [missing] at provides
      cases provides
    · rename_i provider _
      apply Action.Ensures.modify_bind
      have opened := Session.scoped_openReport sound (.allocatingValue c.resource)
      have tells : (spec.pickValue slot c.resource provider).Tells :=
        spec.pickValue_tells c.resource provider
      have picked := (tells _ opened).and (pickValue_accounts opened c.resource provider)
      refine Action.Ensures.bind (picked.and (pickValue_ensures spec slot c.resource provider _)) ?_
      rintro found t ⟨⟨inner, accounts⟩, quiet, -⟩
      split
      · apply Action.Ensures.modify_bind
        have told := inner.closeError sound
        have onward := told.stays_scoped sound
        -- the next candidates are providers still, as nothing was registered meanwhile
        have same (id : ResourceId) : t.closeError.resource? id = s.resource? id :=
          ((s.quiet_openReport _).trans (quiet.trans t.quiet_closeError)).resource? id
        have others : ∀ d ∈ cs, ((t.closeError.resource? d.resource).bind
            (·.aliasProvider?)).isSome := by
          intro d hd
          rw [same]
          exact providers d (List.mem_cons_of_mem _ hd)
        refine (ih onward others).mono ?_
        rintro found u ⟨told', rest⟩
        exact ⟨told.trans told', .cons (Session.accounts_closeError (accounts rfl)) told' rest⟩
      · rename_i value
        apply Action.Ensures.modify_bind
        have told := inner.closeReport sound
        have reserves : (spec.reserve slot c.resource provider value).Tells :=
          spec.reserve_tells _ _ _
        refine Action.Ensures.map ((reserves _ (told.stays_scoped sound)).mono fun _ _ made => ?_)
        exact ⟨told.trans made, .of_some _ _ _⟩

/-- The candidates are among the usable resources, so they provide aliases. -/
theorem allocate_accounts {g : Registry} (free : spec.resource = none) (target : Option ResourceId)
    (sound : s.Scoped) (under : s.Under g) :
    (spec.allocate target slot).Accounts s (s.registry.select (spec.isUsable target)) := by
  unfold allocate
  rw [free]
  apply Attempt.Accounts.eligible_bind
  refine Attempt.Ensures.bind (Attempt.Ensures.lift ((Survey.candidates_covers sound none _).and
    ((Survey.candidates_mem none _ s).and (Survey.candidates_ensures none slot .values _ s)))) ?_
  rintro cs t ⟨⟨told, covers⟩, among, quiet, -⟩
  have onward := told.stays_scoped sound
  -- only providers are usable, so every candidate is one
  have providers : ∀ c ∈ cs, ((t.resource? c.resource).bind (·.aliasProvider?)).isSome := by
    intro c hc
    obtain ⟨r, found, usable⟩ := under.mem_select (among c hc)
    rw [(under.of_quiet quiet).resource?, found]
    unfold isUsable at usable
    cases provider : r.aliasProvider? with
    | none =>
      rw [provider] at usable
      cases usable
    | some _ => rw [Option.bind_some, provider, Option.isSome_some]
  refine Attempt.Ensures.bind (Attempt.Ensures.lift (tryAll_exhausts cs onward providers)) ?_
  rintro found u ⟨told', exhausts⟩
  have all := exhausts.of_covers covers told'
  split
  · exact Attempt.Ensures.pure trivial
  · apply Attempt.Ensures.get_bind
    exact all.refuse (told'.stays_scoped onward) _

end AliasSpec

/-! ## Rooms -/

namespace RoomSpec

variable {spec : RoomSpec}

/-- Where an alias fails, its cause lies below the report of the room and is classified. -/
theorem place_accounts (sound : s.Scoped) (c : Candidate) :
    (spec.place slot c).Ensures s fun found t => found = none → t.reports.Accounts c.resource := by
  unfold place
  apply Action.Ensures.modify_bind
  have opened := Session.scoped_openReport sound (.allocatingResource c.resource)
  apply Action.Ensures.ask_bind
  intro used _
  simp only
  split
  · apply Action.Ensures.modify_bind
    apply Action.Ensures.modify_bind
    exact Action.Ensures.pure fun _ =>
      Session.accounts_closeError (Session.accounts_addError opened rfl rfl)
  · apply Action.Ensures.get_bind
    apply Action.Ensures.modifyGet_bind
    generalize room : s.openReport (.allocatingResource c.resource) = scope at opened
    have created :=
      scope.tells_create (.made slot (.room c.resource spec.participants spec.technologies))
    have aliases := (addAliases_tells slot c.resource scope.reservations.nextKey spec.aliases _
      (created.stays_scoped opened)).and
      (addAliases_explains slot c.resource scope.reservations.nextKey spec.aliases _)
    refine Action.Ensures.bind (Action.Ensures.outcome aliases) ?_
    intro r t done
    cases r with
    | ok _ =>
      apply Action.Ensures.modify_bind
      exact Action.Ensures.pure fun never => absurd never (Option.some_ne_none _)
    | error e =>
      obtain ⟨told, -, cites⟩ := done
      have told := told.after created
      rw [← room] at told
      apply Action.Ensures.modify_bind
      apply Action.Ensures.modify_bind
      apply Action.Ensures.pure
      -- the failure of an alias is what accounts for the room
      intro _
      have told := told.tells (t.tells_rollback scope.savepoint)
      exact Session.accounts_of_told sound told (cites.later (by simp)) rfl

/-- By induction on the candidates: the ones without enough licenses are accounted for. -/
theorem tryAll_exhausts (cs : List Candidate) :
    ∀ {s : Session}, s.Scoped →
      (spec.tryAll slot cs).Ensures s fun found t => s.Tells t
        ∧ Exhausts (cs.map (·.resource)) found t := by
  induction cs with
  | nil => exact fun _ => Action.Ensures.pure ⟨.refl _, .nil _ _⟩
  | cons c cs ih =>
    intro s sound
    unfold tryAll
    refine Action.Ensures.bind ((place_tells spec c s sound).and (place_accounts sound c)) ?_
    rintro placed t ⟨told, accounts⟩
    cases placed with
    | some key => exact Action.Ensures.pure ⟨told, .of_some _ _ _⟩
    | none =>
      refine (ih (told.stays_scoped sound)).mono ?_
      rintro found u ⟨told', rest⟩
      exact ⟨told.trans told', .cons (accounts rfl) told' rest⟩

/-- A resource that could have hosted the meeting is tried or accounted for. Outside the slot of the
meeting nothing is searched at all. -/
theorem allocate_accounts (free : spec.resource = none) (sound : s.Scoped) :
    (spec.allocate slot).Accounts s (s.registry.select spec.isUsable) := by
  unfold allocate
  rw [free]
  apply Attempt.Accounts.eligible_bind
  refine Attempt.Ensures.bind (Attempt.Ensures.lift (Survey.candidates_covers sound none _)) ?_
  rintro cs t ⟨told, covers⟩
  have onward := told.stays_scoped sound
  refine Attempt.Ensures.bind (Attempt.Ensures.lift (tryAll_exhausts cs onward)) ?_
  rintro found u ⟨told', exhausts⟩
  have all := exhausts.of_covers covers told'
  split
  · exact Attempt.Ensures.pure trivial
  · exact all.refuse (told'.stays_scoped onward) _

end RoomSpec

/-! ## Recordings -/

namespace RecordingSpec

variable {spec : RecordingSpec}

/-- By induction on the resources. -/
theorem tryUnlicensed_exhausts (ids : List ResourceId) :
    ∀ {s : Session}, s.Scoped → (spec.tryUnlicensed slot ids).Ensures s fun found t =>
      s.Tells t ∧ Exhausts ids found t := by
  induction ids with
  | nil => exact fun _ => Action.Ensures.pure ⟨.refl _, .nil _ _⟩
  | cons id ids ih =>
    intro s sound
    unfold tryUnlicensed
    apply Action.Ensures.modifyGet_bind
    have checked := s.tells_checkResource id slot
    have onward := checked.stays_scoped sound
    split
    · refine Action.Ensures.map ((spec.reserve_tells id _ onward).mono fun _ _ made => ?_)
      exact ⟨checked.trans made, .of_some _ _ _⟩
    · -- refused by the check, which is reported before the next one
      rename_i reason refused
      apply Action.Ensures.modify_bind
      have told := checked.trans (Session.tells_addError onward reason)
      refine (ih (told.stays_scoped sound)).mono ?_
      rintro found u ⟨told', rest⟩
      exact ⟨told.trans told', .cons (Session.accounts_refused sound refused) told' rest⟩

theorem tryAll_exhausts (cs : List Candidate) :
    ∀ {s : Session}, s.Scoped →
      (spec.tryAll slot cs).Ensures s fun found t => s.Tells t
        ∧ Exhausts (cs.map (·.resource)) found t := by
  induction cs with
  | nil => exact fun _ => Action.Ensures.pure ⟨.refl _, .nil _ _⟩
  | cons c cs ih =>
    intro s sound
    unfold tryAll
    split
    · apply Action.Ensures.modify_bind
      -- too few licenses are left, and the report of it accounts for the resource
      let reason := Report.resourceCapacityExceeded c.resource c.available spec.licenses
      have told := Session.tells_addError sound reason
      refine (ih (told.stays_scoped sound)).mono ?_
      rintro found u ⟨told', rest⟩
      exact ⟨told.trans told', .cons (Session.accounts_addError sound rfl rfl) told' rest⟩
    · refine Action.Ensures.map ((spec.reserve_tells _ s sound).mono fun _ _ made => ?_)
      exact ⟨made, .of_some _ _ _⟩

/-- A service without licenses goes through the resources themselves, any other one through the
candidates. -/
theorem place_exhausts (free : spec.resource = none) (sound : s.Scoped) (ids : List ResourceId) :
    (spec.place slot ids).Ensures s fun found t => s.Tells t ∧ Exhausts ids found t := by
  unfold place
  split
  · rw [free]
    refine Action.Ensures.bind (Survey.candidates_covers sound none ids) ?_
    rintro cs t ⟨told, covers⟩
    refine (tryAll_exhausts cs (told.stays_scoped sound)).mono ?_
    rintro found u ⟨told', exhausts⟩
    exact ⟨told.trans told', exhausts.of_covers covers told'⟩
  · exact tryUnlicensed_exhausts ids sound

theorem allocate_accounts (free : spec.resource = none) (sound : s.Scoped) :
    (spec.allocate slot).Accounts s (s.registry.select spec.isUsable) := by
  unfold allocate
  rw [free]
  split
  · apply Attempt.Accounts.eligible_bind
    refine Attempt.Ensures.bind (Attempt.Ensures.lift (place_exhausts free sound _)) ?_
    rintro found u ⟨told, exhausts⟩
    split
    · exact Attempt.Ensures.pure trivial
    · exact exhausts.refuse (told.stays_scoped sound) _
  · exact Attempt.Ensures.refuse (Or.inl (.fail s rfl id))

end RecordingSpec

end Conference
