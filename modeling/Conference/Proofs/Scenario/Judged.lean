import Conference.Scenario
import Mathlib.Data.List.Forall2

/-!
# Checks that judge

A check passes a part of a scenario file and turns it into what it stands for, or it refuses it. It
*judges* a condition if it passes just where the condition holds. There is one rule for each way to
put checks together, so that what a check judges can be read off from the checks that it is made of.
-/

namespace Conference.Scenario

variable {α β : Type}

/-- The check passes just if `valid` holds, and then gives a value as `post` says. -/
def Checked.Judges (c : Checked α) (valid : Prop) (post : α → Prop) : Prop :=
  match c with
  | .ok x => valid ∧ post x
  | .error _ => ¬ valid

namespace Checked.Judges

variable {c : Checked α} {valid : Prop} {post : α → Prop}

theorem exists_ok_iff (h : c.Judges valid post) : (∃ x, c = .ok x) ↔ valid := by
  cases c with
  | ok x => exact iff_of_true ⟨x, rfl⟩ h.1
  | error fault => exact iff_of_false nofun h

theorem post_of_ok (h : c.Judges valid post) {x : α} (passed : c = .ok x) : post x := by
  subst passed
  exact h.2

theorem ok {x : α} (holds : valid) (hx : post x) : Checked.Judges (.ok x) valid post := ⟨holds, hx⟩

theorem error {fault : ScenarioFault} (fails : ¬ valid) :
    Checked.Judges (.error fault : Checked α) valid post :=
  fails

theorem congr (h : c.Judges valid post) {valid' : Prop} (same : valid' ↔ valid) :
    c.Judges valid' post := by
  rw [same]
  exact h

/-- One check after another judges both conditions. -/
theorem bind {k : α → Checked β} {next : Prop} {post' : β → Prop} (first : c.Judges valid post)
    (rest : ∀ x, valid → post x → (k x).Judges next post') :
    Checked.Judges (c >>= k) (valid ∧ next) post' := by
  cases c with
  | error fault => exact fun both => first both.1
  | ok x =>
    obtain ⟨holds, hx⟩ := first
    have judged := rest x holds hx
    show (k x).Judges (valid ∧ next) post'
    exact judged.congr (and_iff_right holds)

theorem map {f : α → β} {post' : β → Prop} (first : c.Judges valid post)
    (imp : ∀ x, post x → post' (f x)) :
    Checked.Judges (c.map f) valid post' := by
  cases c with
  | error fault => exact first
  | ok x => exact ⟨first.1, imp x first.2⟩

/-- The last step of a check only puts its result together. -/
theorem last {x : α} (hx : post x) : Checked.Judges (pure x) True post := ⟨trivial, hx⟩

end Checked.Judges

/-- To check all elements is to judge all of them, and gives their values in order. -/
theorem checkAll_judges {check : α → Checked β} {valid : α → Prop} {post : α → β → Prop}
    (each : ∀ a, (check a).Judges (valid a) (post a)) (as : List α) :
    (checkAll check as).Judges (∀ a ∈ as, valid a) (List.Forall₂ post as) := by
  induction as with
  | nil => exact .ok nofun .nil
  | cons a as ih =>
    refine ((each a).bind fun b _ hb => ih.bind fun bs _ hbs => .last (.cons hb hbs)).congr ?_
    rw [List.forall_mem_cons, and_true]

end Conference.Scenario
