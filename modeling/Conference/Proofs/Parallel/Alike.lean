import Conference.Proofs.Parallel.Ground
import Conference.Proofs.Reservation.Shift
import Conference.Proofs.Reservation.Truncation

/-!
# Sessions that allocate alike

Two sessions on the same ground, such that an allocation in a slot goes the same way in both. They
may hold different snapshots at the moment, as long as each resource shows the same in the end. How
else they may differ is up to a *likeness*: their ledgers may, in what does not matter for the slot,
the keys of their reservations by a shift, and all of their reports.
-/

namespace Conference

/-- A way in which two sessions may differ and yet allocate alike in a slot. -/
structure Likeness (slot : Slot) where
  Ledgers : Ledger → Ledger → Prop
  /-- How far the keys of the second session are ahead. -/
  ahead : Nat
  /-- Whether the reports are the same. -/
  Reports : Prop
  peak : ∀ {l m}, Ledgers l m → ∀ snapshot id dimension,
    (Registry.usageOf snapshot id dimension m).peak slot.start slot.stop (·.usage.units)
      = (Registry.usageOf snapshot id dimension l).peak slot.start slot.stop (·.usage.units)
  values : ∀ {l m}, Ledgers l m → ∀ snapshot id,
    ((Registry.usageOf snapshot id .values m).overlapping slot).filterMap (·.usage.value?)
      = ((Registry.usageOf snapshot id .values l).overlapping slot).filterMap (·.usage.value?)
  apply : ∀ {l m}, Ledgers l m → ∀ id usage, Ledgers (l.apply id slot usage) (m.apply id slot usage)
  rollback : ∀ {l m l' m'}, Ledgers l m → Ledgers l' m' →
    Ledgers (l'.rollback l.savepoint) (m'.rollback m.savepoint)

namespace Session

/-! ## Bookkeeping -/

/-- The reports with their scopes. -/
def account (s : Session) : ReportForest × List Nat × List Nat :=
  (s.reports, s.openReports, s.depths)

/-- A step that only writes reports, from what has been reported so far. -/
structure Reporting (f : Session → Session) : Prop where
  ledger : ∀ s, (f s).ledger = s.ledger
  registry : ∀ s, (f s).registry = s.registry
  inventory : ∀ s, (f s).inventory = s.inventory
  reservations : ∀ s, (f s).reservations = s.reservations
  account : ∀ {s t : Session}, t.account = s.account → (f t).account = (f s).account

/-- A step only reports if it commutes with replacing everything but the account. -/
theorem reporting_of_commutes {f : Session → Session}
    (commutes : ∀ s l g inv forest,
      f { s with ledger := l, registry := g, inventory := inv, reservations := forest }
        = { f s with ledger := l, registry := g, inventory := inv, reservations := forest }) :
    Reporting f := by
  -- replacing the parts of a session by themselves changes nothing
  have whole (s : Session) : f s = { f s with
      ledger := s.ledger, registry := s.registry, inventory := s.inventory,
      reservations := s.reservations } :=
    commutes s s.ledger s.registry s.inventory s.reservations
  refine ⟨fun s => ?_, fun s => ?_, fun s => ?_, fun s => ?_, ?_⟩
  · rw [whole s]
  · rw [whole s]
  · rw [whole s]
  · rw [whole s]
  · rintro s ⟨l, g, inv, reports, forest, opened, depths⟩ same
    cases same
    have replaced := congrArg account (commutes s l g inv forest)
    exact replaced

section Reports

variable (report : Report)

theorem reporting_addReport : Reporting (·.addReport report) :=
  reporting_of_commutes fun _ _ _ _ _ => rfl

theorem reporting_openReport : Reporting (·.openReport report) :=
  reporting_of_commutes fun _ _ _ _ _ => rfl

theorem reporting_closeReport : Reporting closeReport :=
  reporting_of_commutes fun _ _ _ _ _ => rfl

/-- Which report is closed with an error depends on the open ones only. -/
theorem reporting_closeError : Reporting closeError := by
  apply reporting_of_commutes
  rintro ⟨_, _, _, _, _, opened, _⟩ _ _ _ _
  cases opened <;> rfl

theorem reporting_addError : Reporting (·.addError report) :=
  reporting_of_commutes fun _ _ _ _ _ => rfl

theorem reporting_enter : Reporting (·.enter report) :=
  reporting_of_commutes fun _ _ _ _ _ => rfl

theorem reporting_leave : Reporting leave :=
  reporting_of_commutes fun _ _ _ _ _ => rfl

theorem reporting_leaveError : Reporting leaveError :=
  reporting_of_commutes fun _ _ _ _ _ => rfl

end Reports

/-! ## Alike sessions -/

section Alike

variable {slot : Slot}

/-- The sessions stand on the same ground and differ only as the likeness allows. All nodes made so
far are for the slot. -/
structure Alike (G : Ground) (k : Likeness slot) (read : List ResourceId)
    (s t : Session) : Prop where
  left : s.Stands G read
  right : t.Stands G read
  ledger : k.Ledgers s.ledger t.ledger
  reservations : t.reservations = s.reservations.shift k.ahead
  account : k.Reports → t.account = s.account
  progress : s.reservations.InProgress
  slots : ∀ e ∈ s.reservations.entries, e.node.slot = slot

namespace Alike

variable {G : Ground} {k : Likeness slot} {read : List ResourceId} {s t s' t' : Session}

/-- Fewer snapshots to agree on. -/
theorem of_subset {read' : List ResourceId} (h : s.Alike G k read t) (subset : read' ⊆ read) :
    s.Alike G k read' t :=
  { h with
    left := h.left.of_subset subset
    right := h.right.of_subset subset }

/-- Reports do not matter, and where they are the same they stay so. -/
theorem report {f : Session → Session} (reporting : Reporting f) (h : s.Alike G k read t) :
    (f s).Alike G k read (f t) where
  left := h.left.congr (reporting.registry s) (reporting.inventory s) (by rw [reporting.ledger])
  right := h.right.congr (reporting.registry t) (reporting.inventory t) (by rw [reporting.ledger])
  -- reports concern neither the ledger nor the forest
  ledger := by
    rw [reporting.ledger, reporting.ledger]
    exact h.ledger
  reservations := by
    rw [reporting.reservations, reporting.reservations]
    exact h.reservations
  account := fun same => reporting.account (h.account same)
  progress := by
    rw [reporting.reservations]
    exact h.progress
  slots := by
    rw [reporting.reservations]
    exact h.slots

/-- The same failure in both, when reports are kept alike. -/
theorem fail (h : s.Alike G k read t) (r : Report) :
    (k.Reports → (t.fail r).1 = (s.fail r).1) ∧ (s.fail r).2.Alike G k read (t.fail r).2 := by
  refine ⟨fun same => ?_, h.report (reporting_addError r)⟩
  have account := h.account same
  rw [Session.account, Session.account, Prod.mk.injEq] at account
  unfold Session.fail
  rw [account.1]

/-- Steps that only read snapshots may differ. -/
theorem of_registry {read' : List ResourceId} (h : s.Alike G k read t) {g g' : Registry}
    (left : { s with registry := g }.Stands G read')
    (right : { t with registry := g' }.Stands G read') :
    { s with registry := g }.Alike G k read' { t with registry := g' } :=
  ⟨left, right, h.ledger, h.reservations, h.account, h.progress, h.slots⟩

/-- Where one session passes a check, the other does too, and both have the snapshot read then. -/
theorem checkResource (h : s.Alike G k read t) {id : ResourceId} {r : Resource}
    (passed : (s.checkResource id slot).1 = .ok r) :
    (s.checkResource id slot).2.Alike G k (id :: read) (t.checkResource id slot).2 := by
  have passed' := (h.left.checkResource_eq h.right id slot).trans passed
  -- all that the check changes is the registry, which may come to hold another snapshot
  have only_registry (u : Session) :
      ∃ g, (u.checkResource id slot).2 = { u with registry := g } := by
    unfold Session.checkResource
    split
    · exact ⟨_, rfl⟩
    · split
      · exact ⟨_, rfl⟩
      · simp only
        split
        · exact ⟨_, rfl⟩
        · exact ⟨_, rfl⟩
  obtain ⟨g, left⟩ := only_registry s
  obtain ⟨g', right⟩ := only_registry t
  have first := h.left.checkResource passed
  have second := h.right.checkResource passed'
  rw [left] at first ⊢
  rw [right] at second ⊢
  exact h.of_registry first second

/-- The check of a resource refuses it in both sessions and leaves these alone, or it finds the same
resource and has its snapshot read. -/
theorem checkResource_cases (h : s.Alike G k read t) (id : ResourceId) :
    (∃ reason, s.checkResource id slot = (.error reason, s)
      ∧ t.checkResource id slot = (.error reason, t))
      ∨ ∃ r s' t', s.checkResource id slot = (.ok r, s') ∧ t.checkResource id slot = (.ok r, t')
        ∧ s'.Alike G k (id :: read) t' := by
  have same := h.left.checkResource_eq h.right id slot
  cases checked : (s.checkResource id slot).1 with
  | error reason =>
    rw [checked] at same
    exact Or.inl ⟨reason, Prod.ext checked (checkResource_of_error checked),
      Prod.ext same (checkResource_of_error same)⟩
  | ok r =>
    rw [checked] at same
    exact Or.inr ⟨r, _, _, Prod.ext checked rfl, Prod.ext same rfl, h.checkResource checked⟩

/-- Both read the same usage. -/
theorem used (h : s.Alike G k read t) {id : ResourceId} (mem : id ∈ read) (dimension : Dimension) :
    ∃ n, s.used id slot dimension = .ok n ∧ t.used id slot dimension = .ok n := by
  refine ⟨_, h.left.used mem slot dimension, ?_⟩
  rw [h.right.used mem, k.peak h.ledger]

/-- Both read the same values in use. -/
theorem allocatedValues (h : s.Alike G k read t) {id : ResourceId} (mem : id ∈ read) :
    ∃ values, s.allocatedValues id slot = .ok values ∧ t.allocatedValues id slot = .ok values := by
  refine ⟨_, h.left.allocatedValues mem slot, ?_⟩
  rw [h.right.allocatedValues mem, k.values h.ledger]

/-- A node for the slot is made in both sessions, under keys that differ by the shift. -/
theorem create (h : s.Alike G k read t) (node : Reservation) (for_slot : node.slot = slot) :
    (t.create node).1 = (s.create node).1 + k.ahead
      ∧ (s.create node).2.Alike G k read (t.create node).2 := by
  refine ⟨?_, ?_⟩
  · show t.reservations.nextKey = s.reservations.nextKey + k.ahead
    rw [h.reservations]
    rfl
  · refine ⟨?_, ?_, ?_, ?_, h.account, ?_, ?_⟩
    · refine h.left.congr rfl rfl ?_
      unfold Session.create
      split <;> rfl
    · refine h.right.congr rfl rfl ?_
      unfold Session.create
      split <;> rfl
    · -- a claim is added to both ledgers
      unfold Session.create
      split
      · rw [for_slot]
        exact k.apply h.ledger _ _
      · exact h.ledger
    · show t.reservations.insert node = (s.reservations.insert node).shift k.ahead
      rw [h.reservations, ReservationForest.insert_shift]
    · exact h.progress.of_grows ((ReservationForest.Grows.refl _).insert node)
    · intro e he
      rcases List.mem_append.1 he with old | this
      · exact h.slots e old
      · rw [List.mem_singleton.1 this]
        exact for_slot

/-- What succeeds in the first session does so in the second one, under the keys there. -/
theorem attach (h : s.Alike G k read t) {parent child : Nat}
    (linked : s.attach parent child = .ok s') :
    ∃ t', t.attach (parent + k.ahead) (child + k.ahead) = .ok t' ∧ s'.Alike G k read t' := by
  unfold Session.attach at linked
  cases attached : s.reservations.attach parent child with
  | error fault =>
    rw [attached] at linked
    cases linked
  | ok f =>
    rw [attached] at linked
    cases linked
    obtain ⟨-, -, rfl⟩ := ReservationForest.attach_eq_ok attached
    -- the link between the shifted keys is the shifted link
    let grown : ReservationForest :=
      { s.reservations with links := s.reservations.links ++ [(parent, child)] }
    refine ⟨{ t with reservations := grown.shift k.ahead }, ?_, ?_⟩
    · unfold Session.attach
      rw [h.reservations, ReservationForest.attach_shift, attached]
      rfl
    · exact ⟨h.left.congr rfl rfl rfl, h.right.congr rfl rfl rfl, h.ledger, rfl, h.account,
        h.progress.attach attached, h.slots⟩

/-- Rolled back to savepoints where they were alike, the sessions are alike again. -/
theorem rollback (start : s.Alike G k read t) {read' : List ResourceId}
    (h : s'.Alike G k read' t') :
    (s'.rollback s.savepoint).Alike G k read' (t'.rollback t.savepoint) where
  left := h.left.congr rfl rfl rfl
  right := h.right.congr rfl rfl rfl
  ledger := k.rollback start.ledger h.ledger
  reservations := by
    show (t'.reservations.truncate t.reservations.mark).2
      = (s'.reservations.truncate s.reservations.mark).2.shift k.ahead
    rw [h.reservations, start.reservations, ReservationForest.mark_shift,
      ReservationForest.truncate_shift]
  account := h.account
  progress := h.progress.truncate _
  slots := by
    intro e he
    -- a rollback only takes nodes away
    have shrinks :=
      ReservationForest.shrinks_removeAllYoung
        (s'.reservations.journal.drop (s'.reservations.journal.length - s.reservations.mark))
        (s'.reservations.journal.take (s'.reservations.journal.length - s.reservations.mark))
        s'.reservations
    exact h.slots e (shrinks.entries e he)

end Alike

end Alike

end Session

end Conference
