import Conference.Proofs.Reservation.Traversal
import Mathlib.Data.List.Induction

/-!
# Runs of operations on a forest

A forest starts empty and is changed by one operation after the other. An attachment is refused if a
node were to become its own child, but not if it were to become the child of a node further down. So
the states of a run have no cycle just as long as no attachment does that, and it is only on cycles
that listing or describing a subtree does not come to an end.
-/

namespace Conference.ReservationForest

/-- What may be done to a forest. -/
inductive Operation where
  | insert (node : Reservation)
  | attach (parent child : Nat)
  | setRoot (key : Nat)
  | remove (key : Nat)
  | truncate (mark : Nat)

namespace Operation

/-- The forest after an operation, unless that is a fault. -/
def apply (f : ReservationForest) : Operation → Except Fault ReservationForest
  | insert node => .ok (f.insert node)
  | attach parent child => f.attach parent child
  | setRoot key => .ok (f.setRoot key)
  | remove key => .ok (f.remove key).2
  | truncate mark => .ok (f.truncate mark).2

/-- The forest after some operations, none of which is a fault. -/
def run (f : ReservationForest) : List Operation → Except Fault ReservationForest
  | [] => .ok f
  | op :: ops => (apply f op).bind fun g => run g ops

/-- The operation makes a node the child of one of its descendants. -/
def ClosesCycle (f : ReservationForest) : Operation → Prop
  | attach parent child => f.Above child parent
  | insert _ | setRoot _ | remove _ | truncate _ => False

variable {f g : ReservationForest} {op : Operation}

theorem run_append (before after : List Operation) :
    ∀ f : ReservationForest, run f (before ++ after) = (run f before).bind fun g =>
      run g after := by
  induction before with
  | nil => exact fun _ => rfl
  | cons op before ih =>
    intro f
    show (apply f op).bind _ = ((apply f op).bind _).bind _
    cases apply f op with
    | error fault => rfl
    | ok g => exact ih g

theorem run_concat (before : List Operation) (op : Operation) (f : ReservationForest) :
    run f (before ++ [op]) = (run f before).bind fun g => apply g op := by
  rw [run_append]
  congr 1
  funext g
  show (apply g op).bind _ = _
  cases apply g op <;> rfl

/-- What a run has come to before its last operations. -/
theorem exists_run_of_append {before after : List Operation}
    (ran : run f (before ++ after) = .ok g) :
    ∃ h, run f before = .ok h ∧ run h after = .ok g := by
  rw [run_append] at ran
  cases first : run f before with
  | error fault =>
    rw [first] at ran
    cases ran
  | ok h =>
    rw [first] at ran
    exact ⟨h, rfl, ran⟩

/-! ## One operation -/

theorem wellLinked_apply (h : f.WellLinked) (done : op.apply f = .ok g) : g.WellLinked := by
  cases op with
  | attach parent child => exact h.attach done
  | insert node =>
    cases done
    exact h.insert node
  | setRoot key =>
    cases done
    exact ⟨h.live, h.single⟩
  | remove key =>
    cases done
    exact h.remove key
  | truncate mark =>
    cases done
    exact h.truncate mark

/-- An operation leaves a forest without cycles unless it closes one. -/
theorem acyclic_apply_iff (h : f.WellLinked) (acyclic : f.Acyclic) (done : op.apply f = .ok g) :
    g.Acyclic ↔ ¬ op.ClosesCycle f := by
  cases op with
  | attach parent child => exact acyclic_attach_iff h acyclic done
  -- the other operations add no link, so they neither close a cycle nor break the condition
  | insert node =>
    cases done
    exact iff_of_true (h.acyclic_of_links (fun _ => id) acyclic) id
  | setRoot key =>
    cases done
    exact iff_of_true (h.acyclic_of_links (fun _ => id) acyclic) id
  | remove key =>
    cases done
    exact iff_of_true (h.acyclic_of_links (f.shrinks_remove key).links acyclic) id
  | truncate mark =>
    cases done
    exact iff_of_true (h.acyclic_of_links (f.links_truncate mark) acyclic) id

/-! ## Whole runs -/

theorem wellLinked_run (ops : List Operation) :
    ∀ {f : ReservationForest}, f.WellLinked → run f ops = .ok g → g.WellLinked := by
  induction ops with
  | nil =>
    rintro f h ⟨⟩
    exact h
  | cons op ops ih =>
    intro f h ran
    rw [← List.singleton_append] at ran
    obtain ⟨first, done, rest⟩ := exists_run_of_append ran
    rw [← List.nil_append [op], run_concat] at done
    exact ih (wellLinked_apply h done) rest

/-- All states that the operations lead through from the empty forest have the property. -/
def AllStates (ops : List Operation) (p : ReservationForest → Prop) : Prop :=
  ∀ before after g, ops = before ++ after → run .empty before = .ok g → p g

/-- An operation that closes a cycle is performed. -/
def ClosesCycleIn (ops : List Operation) : Prop :=
  ∃ before op after g, ops = before ++ op :: after ∧ run .empty before = .ok g ∧ op.ClosesCycle g

/-- By induction on the operations, the last one first. -/
theorem acyclic_of_not_closesCycleIn (before : List Operation) :
    ∀ {g : ReservationForest}, run .empty before = .ok g → ¬ ClosesCycleIn before → g.Acyclic := by
  induction before using List.reverseRecOn with
  | nil =>
    rintro g ⟨⟩ -
    exact acyclic_empty
  | append_singleton before op ih =>
    intro g ran never
    obtain ⟨h, first, -⟩ := exists_run_of_append ran
    -- what happens before the last operation happens in the whole run
    have earlier : ¬ ClosesCycleIn before := by
      rintro ⟨before', op', after', h', rfl, ran', closes⟩
      exact never ⟨before', op', after' ++ [op], h', by simp, ran', closes⟩
    have done : op.apply h = .ok g := by
      rw [run_concat, first] at ran
      exact ran
    refine (acyclic_apply_iff (wellLinked_run before .empty first) (ih first earlier) done).2
      fun closes => ?_
    exact never ⟨before, op, [], h, rfl, first, closes⟩

theorem allStates_acyclic_iff {ops : List Operation} (ran : run .empty ops = .ok f) :
    AllStates ops Acyclic ↔ ¬ ClosesCycleIn ops := by
  constructor
  · rintro acyclic ⟨before, op, after, g, rfl, first, closes⟩
    rw [List.append_cons] at ran acyclic
    obtain ⟨h, next, -⟩ := exists_run_of_append ran
    have done : op.apply g = .ok h := by
      rw [run_concat, first] at next
      exact next
    have start := acyclic before ([op] ++ after) g (by simp) first
    -- the operation that closes the cycle ends in a state that has it
    have still := acyclic (before ++ [op]) after h rfl next
    exact (acyclic_apply_iff (wellLinked_run before .empty first) start done).1 still closes
  · rintro never before after g rfl first
    -- a prefix of the run closes none either
    refine acyclic_of_not_closesCycleIn before first ?_
    rintro ⟨before', op, after', h, rfl, ran', closes⟩
    exact never ⟨before', op, after' ++ after, h, by simp, ran', closes⟩

end Operation

/-- The states of a run have no cycle just if no attachment makes a node the child of one of its
descendants. On a forest without cycles, and on no other, listing the subtree of a node and
describing it come to an end for each key. -/
theorem acyclic_unless_attached_below {ops : List Operation} {f : ReservationForest}
    (ran : Operation.run .empty ops = .ok f) :
    (Operation.AllStates ops Acyclic ↔ ¬ Operation.ClosesCycleIn ops)
    ∧ (f.Acyclic ↔ ∀ key, f.Walk f.keyOf [(0, key)] (f.subtree key))
    ∧ (f.Acyclic ↔ ∀ key, f.Walk f.lineOf [(0, key)] (f.linesWithin f.size 0 key)) := by
  have linked := Operation.wellLinked_run ops .empty ran
  refine ⟨Operation.allStates_acyclic_iff ran, ?_, ?_⟩
  · refine ⟨fun acyclic key => ?_, fun walks => ?_⟩
    · rw [subtree, subtreeWithin_eq_gatherWithin f f.size 0]
      exact walk_of_acyclic linked acyclic (fun _ _ => keyOf_eq_none) 0 key
    · exact acyclic_of_walks linked (fun _ _ => keyOf_eq_none) fun key => ⟨_, _, walks key⟩
  · refine ⟨fun acyclic key => ?_, fun walks => ?_⟩
    · rw [linesWithin_eq_gatherWithin]
      exact walk_of_acyclic linked acyclic (fun _ _ => lineOf_eq_none) 0 key
    · exact acyclic_of_walks linked (fun _ _ => lineOf_eq_none) fun key => ⟨_, _, walks key⟩

/-! ## Two runs -/

/-- A reservation of a whole resource for some time. -/
def booking (name : String) : Reservation := .made ⟨0, 24, by decide⟩ (.resource ⟨name⟩)

/-- Each of two nodes is made the child of the other. -/
def crossed : List Operation :=
  [.insert (booking "a"), .insert (booking "b"), .attach 0 1, .attach 1 0]

/-- Neither attachment is refused. Both nodes are their own ancestors then, and neither listing nor
describing what is below the first comes to an end. -/
theorem crossed_closes_cycle : ∃ f, Operation.run .empty crossed = .ok f ∧ f.Above 0 0
    ∧ (∀ found, ¬ f.Walk f.keyOf [(0, 0)] found) ∧ ∀ found, ¬ f.Walk f.lineOf [(0, 0)] found := by
  obtain ⟨f, ran, down, up⟩ : ∃ f, Operation.run .empty crossed = .ok f ∧ f.parent? 1 = some 0
    ∧ f.parent? 0 = some 1 :=
    ⟨_, rfl, rfl, rfl⟩
  have linked := Operation.wellLinked_run crossed .empty ran
  have cycle : f.Above 0 0 := .tail (.single down) up
  refine ⟨f, ran, cycle, fun found walk => ?_, fun found walk => ?_⟩
  · exact walk.acyclic_below linked (fun _ _ => keyOf_eq_none) _ List.mem_cons_self 0 .refl cycle
  · exact walk.acyclic_below linked (fun _ _ => lineOf_eq_none) _ List.mem_cons_self 0 .refl cycle

/-- Three nodes in a row, the last of which is taken back. -/
def row : List Operation :=
  [.insert (booking "a"), .insert (booking "b"), .insert (booking "c"), .attach 1 2, .attach 0 1,
    .setRoot 0, .truncate 2]

theorem row_comes_to_an_end : ∃ f, Operation.run .empty row = .ok f ∧ f.Acyclic
    ∧ f.Walk f.keyOf [(0, 0)] [0, 1] ∧ f.Walk f.lineOf [(0, 0)] (f.linesWithin f.size 0 0) := by
  obtain ⟨f, ran, links, subtree⟩ : ∃ f, Operation.run .empty row = .ok f ∧ f.links = [(0, 1)]
    ∧ f.subtree 0 = [0, 1] := ⟨_, rfl, rfl, rfl⟩
  have acyclic : f.Acyclic := by
    -- the only link leads to the younger node
    have younger {upper lower : Nat} (above : f.Above upper lower) : upper = 0 ∧ lower = 1 := by
      have link {parent child : Nat} (found : f.parent? child = some parent) : parent = 0
          ∧ child = 1 := by
        have mem := mem_links_of_parent? found
        rw [links, List.mem_singleton] at mem
        exact Prod.mk.inj mem
      induction above with
      | single found => exact link found
      | tail _ found ih => exact absurd (ih.2.symm.trans (link found).1) (by decide)
    intro key cycle
    exact absurd ((younger cycle).1.symm.trans (younger cycle).2) (by decide)
  obtain ⟨-, listed, described⟩ := acyclic_unless_attached_below ran
  exact ⟨f, ran, acyclic, subtree ▸ listed.1 acyclic 0, described.1 acyclic 0⟩

end Conference.ReservationForest
