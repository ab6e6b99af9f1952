import Conference.Ledger
import Mathlib.Data.List.Induction
import Mathlib.Data.List.Sublists

/-!
# Ledgers replayed

A ledger can be kept as books: for each resource that has records an account of them, and a journal
that tells of each record only whose it is. To roll back, one entry of the journal after the other
is taken off and with it the last record of that account, whatever it is; an account that has run
empty is closed. That this undoes the right records rests on the journal: restricted to one resource
it is as long as the account of that resource.

Which applications survive a run can be said without any ledger. An application takes the next place
in the journal and keeps it, and a later rollback drops it just if it goes back to that place or
further. The books hold the survivors, each resource its own ones, in the order in which they were
applied.
-/

namespace Conference

instance {kind : EntityKind} : Hashable (Id kind) := ⟨fun id => hash id.text⟩

namespace Ledger

/-- What may be done to a ledger. A savepoint is the number of records that were in force when it
was taken; at another time that number may be larger than the number of records or stand for other
ones. -/
inductive Operation where
  | apply (resource : ResourceId) (slot : Slot) (usage : Usage)
  | rollback (savepoint : Nat)

/-- The ledger after an operation. -/
def change (l : Ledger) : Operation → Ledger
  | .apply resource slot usage => l.apply resource slot usage
  | .rollback savepoint => l.rollback savepoint

/-- The ledger of a pass after some operations. -/
def after (pass : String) (interval : Slot) (ops : List Operation) : Ledger :=
  ops.foldl change (empty pass interval)

/-! ## Books -/

/-- A ledger with an account of each resource. -/
structure Books where
  pass : String
  workingInterval : Slot
  /-- The records of each resource that has any, in the order in which they were applied. -/
  accounts : Std.HashMap ResourceId (List Allocation)
  /-- The resources of the records in force, that of the youngest record first. -/
  journal : List ResourceId
  /-- The number of identifiers given out. -/
  issued : Nat

namespace Books

def empty (pass : String) (interval : Slot) : Books := ⟨pass, interval, ∅, [], 0⟩

/-- The identifier that is given out next. -/
def nextId (b : Books) : AllocationId := ⟨b.pass ++ "/" ++ toString (b.issued + 1)⟩

def appliedOn (b : Books) (resource : ResourceId) : List Allocation := b.accounts[resource]?.getD []

def size (b : Books) : Nat := b.journal.length

/-- Puts a record into the account of its resource, which is opened if need be. -/
def apply (b : Books) (resource : ResourceId) (slot : Slot) (usage : Usage) : Books :=
  { b with
    accounts :=
      b.accounts.insert resource (b.appliedOn resource ++ [⟨b.nextId, resource, slot, usage⟩])
    journal := resource :: b.journal
    issued := b.issued + 1 }

/-- Takes the last record out of an account, and closes the account if it is empty then. -/
def withdraw (accounts : Std.HashMap ResourceId (List Allocation)) (resource : ResourceId) :
    Std.HashMap ResourceId (List Allocation) :=
  match accounts[resource]? with
  | none => accounts
  | some records =>
    if records.dropLast.isEmpty then
      accounts.erase resource else accounts.insert resource records.dropLast

/-- Takes entries off the journal until it is no longer than a savepoint says. The number of entries
comes first. -/
def unwind (savepoint : Nat) (accounts : Std.HashMap ResourceId (List Allocation)) :
    List ResourceId → Nat × Std.HashMap ResourceId (List Allocation) × List ResourceId
  | [] => (0, accounts, [])
  | resource :: journal =>
    if savepoint < journal.length + 1 then
      let rest := unwind savepoint (withdraw accounts resource) journal
      (rest.1 + 1, rest.2)
    else (0, accounts, resource :: journal)

/-- Undoes what was applied after a savepoint. The number of undone applications comes first. -/
def rollback (b : Books) (savepoint : Nat) : Nat × Books :=
  let rest := unwind savepoint b.accounts b.journal
  (rest.1, { b with accounts := rest.2.1, journal := rest.2.2 })

def change (b : Books) : Operation → Books
  | .apply resource slot usage => b.apply resource slot usage
  | .rollback savepoint => (b.rollback savepoint).2

/-- The books of a pass after some operations. -/
def after (pass : String) (interval : Slot) (ops : List Operation) : Books :=
  ops.foldl change (empty pass interval)

/-! ## Books of a ledger -/

/-- An account holds the records of its resource among some records, and is closed if there are
none. -/
def AccountsFor (accounts : Std.HashMap ResourceId (List Allocation))
    (records : List Allocation) : Prop :=
  ∀ resource, accounts[resource]? = if records.filter (·.resource == resource)
    = [] then none else some (records.filter (·.resource == resource))

/-- The books are those of the ledger. -/
structure Shows (b : Books) (l : Ledger) : Prop where
  accounts : AccountsFor b.accounts l.applied
  journal : b.journal = (l.applied.map (·.resource)).reverse
  issued : b.issued = l.issued
  pass : b.pass = l.pass
  workingInterval : b.workingInterval = l.workingInterval

variable {b : Books} {l : Ledger}

/-- The account of a resource has its records, in their order. -/
theorem AccountsFor.getD {accounts : Std.HashMap ResourceId (List Allocation)}
    {records : List Allocation} (h : AccountsFor accounts records) (resource : ResourceId) :
    accounts[resource]?.getD [] = records.filter (·.resource == resource) := by
  rw [h resource]
  split
  · rename_i none
    rw [none, Option.getD_none]
  · rw [Option.getD_some]

/-- The records of a resource are the same in both. -/
theorem Shows.appliedOn (h : b.Shows l) (resource : ResourceId) :
    b.appliedOn resource = l.appliedOn resource :=
  h.accounts.getD resource

/-- The journal is as long as there are records in force. -/
theorem Shows.size (h : b.Shows l) : b.size = l.size := by
  rw [Books.size, h.journal, List.length_reverse, List.length_map, Ledger.size]

/-- Both would give out the same identifier next. -/
theorem Shows.nextId (h : b.Shows l) : b.nextId = l.nextId := by
  rw [Books.nextId, h.pass, h.issued, Ledger.nextId]

theorem shows_empty (pass : String) (interval : Slot) :
    (empty pass interval).Shows (.empty pass interval) where
  accounts := fun _ => Std.HashMap.getElem?_empty
  journal := rfl
  issued := rfl
  pass := rfl
  workingInterval := rfl

/-- An application adds the same record to both. -/
theorem Shows.apply (h : b.Shows l) (resource : ResourceId) (slot : Slot) (usage : Usage) :
    (b.apply resource slot usage).Shows (l.apply resource slot usage) where
  accounts := by
    intro other
    show (b.accounts.insert resource _)[other]? = _
    rw [Std.HashMap.getElem?_insert, h.appliedOn, h.nextId, applied_apply, List.filter_append]
    -- only the account of the resource has grown
    by_cases same : resource = other
    · subst same
      simp [Ledger.appliedOn]
    · rw [if_neg (by simpa using same), h.accounts other]
      simp [same]
  journal := by
    show resource :: b.journal = _
    rw [h.journal, applied_apply, List.map_append, List.reverse_append]
    rfl
  issued := congrArg (· + 1) h.issued
  pass := h.pass
  workingInterval := h.workingInterval

/-- The record that is taken out is the youngest one, since its account holds it behind the
others. -/
theorem AccountsFor.withdraw {accounts : Std.HashMap ResourceId (List Allocation)}
    {records : List Allocation} {last : Allocation} (h : AccountsFor accounts (records ++ [last])) :
    AccountsFor (withdraw accounts last.resource) records := by
  have own : accounts[last.resource]?
      = some (records.filter (·.resource == last.resource) ++ [last]) := by
    rw [h last.resource, List.filter_append]
    simp
  intro resource
  simp only [Books.withdraw, own, List.dropLast_concat, List.isEmpty_iff]
  by_cases same : last.resource = resource
  · subst same
    split <;> simp [*]
  · -- the accounts of the other resources are as they were without the last record
    have others : (records ++ [last]).filter (·.resource == resource)
        = records.filter (·.resource == resource) := by
      rw [List.filter_append]
      simp [same]
    have kept := h resource
    rw [others] at kept
    split
    · rw [Std.HashMap.getElem?_erase, if_neg (by simpa using same), kept]
    · rw [Std.HashMap.getElem?_insert, if_neg (by simpa using same), kept]

/-- By induction on the records, the youngest one first: each turn of the loop drops the record of
its entry. -/
theorem unwind_eq (savepoint : Nat) (records : List Allocation) :
    ∀ {accounts : Std.HashMap ResourceId (List Allocation)}, AccountsFor accounts records →
      ∃ left, unwind savepoint accounts (records.map (·.resource)).reverse
          = (records.length - savepoint, left, ((records.take savepoint).map (·.resource)).reverse)
        ∧ AccountsFor left (records.take savepoint) := by
  induction records using List.reverseRecOn with
  | nil =>
    intro accounts h
    exact ⟨accounts, by simp [unwind], by rwa [List.take_nil]⟩
  | append_singleton records last ih =>
    intro accounts h
    -- the journal names the youngest record first, so the records are taken from the end
    have entries : ((records ++ [last]).map (·.resource)).reverse
        = last.resource :: (records.map (·.resource)).reverse := by
      rw [List.map_append, List.reverse_append]
      rfl
    rw [entries, unwind, List.length_reverse, List.length_map, List.length_append,
      List.length_singleton]
    split
    · rename_i beyond
      obtain ⟨left, rest, accountsLeft⟩ := ih h.withdraw
      rw [rest, List.take_append_of_le_length (by omega)]
      exact ⟨left, by rw [Nat.succ_sub (by omega)], accountsLeft⟩
    · rename_i within
      rw [List.take_of_length_le (by rw [List.length_append, List.length_singleton]; omega)]
      exact ⟨accounts, by rw [Nat.sub_eq_zero_of_le (by omega), entries], h⟩

/-- Going back takes the same records off both, and counts them. -/
theorem Shows.rollback (h : b.Shows l) (savepoint : Nat) :
    (b.rollback savepoint).2.Shows (l.rollback savepoint)
      ∧ (b.rollback savepoint).1 = l.size - savepoint := by
  obtain ⟨left, rest, accounts⟩ := unwind_eq savepoint l.applied h.accounts
  rw [← h.journal] at rest
  refine ⟨⟨?_, ?_, h.issued, h.pass, h.workingInterval⟩, ?_⟩
  · show AccountsFor (unwind savepoint b.accounts b.journal).2.1 _
    rw [rest]
    exact accounts
  · show (unwind savepoint b.accounts b.journal).2.2 = _
    rw [rest]
    rfl
  · show (unwind savepoint b.accounts b.journal).1 = _
    rw [rest]
    rfl

/-- The books stay those of the ledger, whatever is done to both. -/
theorem shows_after (pass : String) (interval : Slot) (ops : List Operation) :
    (after pass interval ops).Shows (Ledger.after pass interval ops) := by
  have run (ops : List Operation) : ∀ {b : Books} {l : Ledger}, b.Shows l →
      (ops.foldl change b).Shows (ops.foldl Ledger.change l) := by
    induction ops with
    | nil => exact id
    | cons op ops ih =>
      intro b l h
      cases op with
      | apply resource slot usage => exact ih (h.apply resource slot usage)
      | rollback savepoint => exact ih (h.rollback savepoint).1
  exact run ops (shows_empty pass interval)

end Books

/-! ## Survivors -/

/-- An application, with its number among all applications of a run. -/
structure Application where
  number : Nat
  resource : ResourceId
  slot : Slot
  usage : Usage

/-- What a ledger records of an application. -/
def Application.record (pass : String) (a : Application) : Allocation :=
  ⟨⟨pass ++ "/" ++ toString a.number⟩, a.resource, a.slot, a.usage⟩

/-- The applications of a run, numbered on from those before it. -/
def applications (before : Nat) : List Operation → List Application
  | [] => []
  | .apply resource slot usage :: ops =>
    ⟨before + 1, resource, slot, usage⟩ :: applications (before + 1) ops
  | .rollback _ :: ops => applications before ops

/-- One of the operations drops the record at a place of the journal. -/
def dropped (place : Nat) : List Operation → Bool
  | [] => false
  | .apply .. :: ops => dropped place ops
  | .rollback savepoint :: ops => decide (savepoint ≤ place) || dropped place ops

/-- The applications of a run that no later operation drops. The first one takes the given place in
the journal. -/
def survivors (place before : Nat) : List Operation → List Application
  | [] => []
  | .apply resource slot usage :: ops =>
    if dropped place ops then survivors (place + 1) (before + 1) ops
    else ⟨before + 1, resource, slot, usage⟩ :: survivors (place + 1) (before + 1) ops
  | .rollback savepoint :: ops => survivors (min savepoint place) before ops

/-- The number of records that stay of some records when a run is over. -/
def staying (place : Nat) : List Operation → Nat
  | [] => place
  | .apply .. :: ops => staying place ops
  | .rollback savepoint :: ops => staying (min savepoint place) ops

/-- Survivors are applications, in the order of these. -/
theorem survivors_sublist (ops : List Operation) :
    ∀ place before, (survivors place before ops).Sublist (applications before ops) := by
  induction ops with
  | nil => exact fun _ _ => .slnil
  | cons op ops ih =>
    intro place before
    cases op with
    | apply resource slot usage =>
      rw [survivors, applications]
      split
      · exact (ih _ _).cons _
      · exact (ih _ _).cons_cons _
    | rollback savepoint => exact ih _ _

/-- An application is dropped by the first or by the second part of what follows. -/
theorem dropped_append (place : Nat) (ops ops' : List Operation) :
    dropped place (ops ++ ops') = (dropped place ops || dropped place ops') := by
  induction ops with
  | nil => rfl
  | cons op ops ih =>
    cases op with
    | apply resource slot usage => exact ih
    | rollback savepoint =>
      rw [List.cons_append, dropped, dropped, ih, Bool.or_assoc]

/-- The record at the next place goes, and then it makes no difference, or it stays with all before
it. -/
theorem staying_succ (ops : List Operation) :
    ∀ place, if dropped place ops then staying (place + 1) ops = staying place ops
      else staying (place + 1) ops = place + 1 ∧ staying place ops = place := by
  induction ops with
  | nil => exact fun _ => ⟨rfl, rfl⟩
  | cons op ops ih =>
    intro place
    cases op with
    | apply resource slot usage => exact ih place
    | rollback savepoint =>
      rw [dropped, staying, staying]
      -- the savepoint cuts both places off, or leaves the lower one to what follows
      by_cases low : savepoint ≤ place
      · rw [decide_eq_true low, Bool.true_or, if_pos rfl]
        rw [Nat.min_eq_left low, Nat.min_eq_left (Nat.le_succ_of_le low)]
      · rw [decide_eq_false low, Bool.false_or]
        rw [Nat.min_eq_right (by omega), Nat.min_eq_right (by omega)]
        exact ih place

/-- An application at the end survives, and changes nothing for the ones before. -/
theorem survivors_concat_apply (resource : ResourceId) (slot : Slot) (usage : Usage)
    (ops : List Operation) :
    ∀ place before, survivors place before (ops ++ [.apply resource slot usage])
      = survivors place before ops
        ++ [⟨before + (applications before ops).length + 1, resource, slot, usage⟩] := by
  induction ops with
  | nil => exact fun _ _ => rfl
  | cons op ops ih =>
    intro place before
    cases op with
    | apply resource' slot' usage' =>
      have number : before + 1 + (applications (before + 1) ops).length
          = before + (applications before (.apply resource' slot' usage' :: ops)).length := by
        rw [applications, List.length_cons]
        omega
      -- nothing is dropped by an application
      have same : dropped place (ops ++ [.apply resource slot usage]) = dropped place ops := by
        rw [dropped_append]
        exact Bool.or_false _
      rw [List.cons_append, survivors, survivors, same, ih, number]
      split <;> rfl
    | rollback savepoint => exact ih _ _

/-- A rollback at the end leaves a first part of the survivors, which those that stay from before
fill up. -/
theorem survivors_concat_rollback (savepoint : Nat) (ops : List Operation) :
    ∀ place before, survivors place before (ops ++ [.rollback savepoint])
      = (survivors place before ops).take (savepoint - staying place ops) := by
  induction ops with
  | nil => exact fun _ _ => List.take_nil.symm
  | cons op ops ih =>
    intro place before
    cases op with
    | apply resource slot usage =>
      have stay := staying_succ ops place
      have drops : dropped place (ops ++ [.rollback savepoint])
          = (dropped place ops || decide (savepoint ≤ place)) := by
        rw [dropped_append, dropped, dropped, Bool.or_false]
      rw [List.cons_append, survivors, survivors, drops, ih, staying]
      split at stay
      · rename_i gone
        rw [gone, Bool.true_or, if_pos rfl, if_pos rfl, stay]
      · rename_i kept
        rw [Bool.not_eq_true] at kept
        rw [kept, Bool.false_or, stay.1, stay.2]
        -- the application at this place is the first of those that survived so far
        by_cases low : savepoint ≤ place
        · rw [decide_eq_true low, if_pos rfl, Nat.sub_eq_zero_of_le low,
            Nat.sub_eq_zero_of_le (Nat.le_succ_of_le low)]
          rfl
        · have more : savepoint - place = savepoint - (place + 1) + 1 := by omega
          rw [decide_eq_false low, more]
          rfl
    | rollback savepoint' => exact ih _ _

/-- Where there is nothing, nothing stays. -/
theorem staying_zero (ops : List Operation) : staying 0 ops = 0 := by
  induction ops with
  | nil => rfl
  | cons op ops ih =>
    cases op with
    | apply resource slot usage => exact ih
    | rollback savepoint => rw [staying, Nat.min_zero, ih]

/-- Applications are numbered on across the parts. -/
theorem applications_append (ops ops' : List Operation) : ∀ before,
    applications before (ops ++ ops')
      = applications before ops
        ++ applications (before + (applications before ops).length) ops' := by
  induction ops with
  | nil => exact fun _ => rfl
  | cons op ops ih =>
    intro before
    cases op with
    | apply resource slot usage =>
      rw [List.cons_append, applications, applications, ih, List.length_cons,
        Nat.add_assoc, Nat.add_comm 1]
      rfl
    | rollback savepoint => exact ih before

/-! ## What a ledger holds -/

/-- One more operation is performed on what the others have led to. -/
theorem after_concat (pass : String) (interval : Slot) (ops : List Operation) (op : Operation) :
    after pass interval (ops ++ [op]) = (after pass interval ops).change op := by
  rw [after, List.foldl_append]
  rfl

/-- By induction on the operations, the last one first. -/
theorem applied_after (pass : String) (interval : Slot) (ops : List Operation) :
    (after pass interval ops).applied = (survivors 0 0 ops).map (·.record pass)
      ∧ (after pass interval ops).issued = (applications 0 ops).length
      ∧ (after pass interval ops).pass = pass := by
  induction ops using List.reverseRecOn with
  | nil => exact ⟨rfl, rfl, rfl⟩
  | append_singleton ops op ih =>
    obtain ⟨applied, issued, named⟩ := ih
    rw [after_concat, applications_append]
    cases op with
    | apply resource slot usage =>
      refine ⟨?_, ?_, named⟩
      · show (after pass interval ops).applied ++ [_] = _
        rw [survivors_concat_apply, List.map_append, applied, nextId, named, issued, Nat.zero_add]
        rfl
      · show (after pass interval ops).issued + 1 = _
        rw [issued, List.length_append]
        rfl
    | rollback savepoint =>
      refine ⟨?_, ?_, named⟩
      · -- going back keeps the first survivors
        show (after pass interval ops).applied.take savepoint = _
        rw [survivors_concat_rollback, staying_zero, Nat.sub_zero, List.map_take, applied]
      · rw [List.length_append]
        exact issued

/-- Applications are numbered from the beginning without a gap. -/
theorem numbers_applications (ops : List Operation) : ∀ before,
    (applications before ops).map (·.number)
      = List.range' (before + 1) (applications before ops).length := by
  induction ops with
  | nil => exact fun _ => rfl
  | cons op ops ih =>
    intro before
    cases op with
    | apply resource slot usage =>
      rw [applications, List.map_cons, List.length_cons, List.range'_succ, ih]
    | rollback savepoint => exact ih before

/-- Records with the same identifier are records of the same application. -/
theorem number_eq_of_id {pass : String} {a b : Application}
    (same : (a.record pass).id = (b.record pass).id) :
    a.number = b.number := by
  have texts : pass ++ "/" ++ a.number.repr = pass ++ "/" ++ b.number.repr := congrArg Id.text same
  exact Numeral.digits_injective (String.ofList_injective ((String.append_right_inj _).1 texts))

/-- No identifier is given out twice over the whole run, also not after going back. -/
theorem ids_nodup (pass : String) (ops : List Operation) :
    ((applications 0 ops).map fun a => (a.record pass).id).Nodup := by
  have numbers : ((applications 0 ops).map (·.number)).Nodup := by
    rw [numbers_applications]
    exact List.nodup_range'
  rw [List.Nodup, List.pairwise_map] at numbers ⊢
  exact numbers.imp fun different same => different (number_eq_of_id same)

/-- After any applications and rollbacks, to whatever savepoints, the books hold in the account of
each resource the records of the surviving applications to it, in their order, and count all
survivors. A further rollback keeps those up to its savepoint and tells how many it drops. Each
application has been given the identifier that was the next one, and no two of the run have the
same, dropped ones included. The ledger says the same as the books. -/
theorem books_hold_survivors (pass : String) (interval : Slot) (ops : List Operation) :
    let b := Books.after pass interval ops
    let kept := survivors 0 0 ops
    (∀ resource, b.appliedOn resource = (kept.filter (·.resource == resource)).map (·.record pass))
    ∧ b.size = kept.length
    ∧ (∀ savepoint, (b.rollback savepoint).2 = Books.after pass interval
      (ops ++ [.rollback savepoint])
      ∧ survivors 0 0 (ops ++ [.rollback savepoint]) = kept.take (min b.size savepoint)
      ∧ (b.rollback savepoint).1 = kept.length - min b.size savepoint)
    ∧ kept.Sublist (applications 0 ops)
    ∧ (∀ resource slot usage, ∃ a, applications 0 (ops ++ [.apply resource slot usage])
      = applications 0 ops ++ [a]
      ∧ (a.record pass).id = b.nextId)
    ∧ ((applications 0 ops).map fun a => (a.record pass).id).Nodup
    ∧ b.Shows (after pass interval ops) := by
  intro b kept
  -- the books show the ledger, where the records in force are known
  have same : b.Shows (after pass interval ops) := Books.shows_after pass interval ops
  obtain ⟨applied, issued, named⟩ := applied_after pass interval ops
  have size : b.size = kept.length := by
    rw [same.size, Ledger.size, applied, List.length_map]
  refine ⟨fun resource => ?_, size, fun savepoint => ⟨?_, ?_, ?_⟩, survivors_sublist ops 0 0,
    fun resource slot usage => ⟨_, applications_append ops [.apply resource slot usage] 0, ?_⟩,
    ids_nodup pass ops, same⟩
  · rw [same.appliedOn, appliedOn, applied, List.filter_map]
    rfl
  · show _ = (ops ++ [Operation.rollback savepoint]).foldl Books.change _
    rw [List.foldl_append]
    rfl
  · rw [survivors_concat_rollback, staying_zero, Nat.sub_zero, size,
      List.take_eq_take_min, Nat.min_comm]
  · rw [(same.rollback savepoint).2, ← same.size, size]
    omega
  · rw [same.nextId, nextId, named, issued, Nat.zero_add]
    rfl

/-- The second savepoint is stale: what it counted on has been dropped, and another application is
in its place. -/
example (r s : ResourceId) (slot : Slot) :
    (survivors 0 0 [.apply r slot .exclusive, .apply s slot .exclusive, .rollback 1,
      .apply r slot (.roomLicenses 2),
      .apply s slot (.roomLicenses 3), .rollback 2]).map (·.number) = [1, 3] := rfl

end Ledger

end Conference
