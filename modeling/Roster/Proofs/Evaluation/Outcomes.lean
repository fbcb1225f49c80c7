/-
**How an evaluation comes out.**

A budget says how many lists may be read within one another, and to run out of it says nothing about
the expression: a larger budget might do.  What has not run out of its budget, however, is the same
within every larger one.  So there are three ways for an evaluation to come out, of which only the
first two are ever seen from outside: it ends well, it fails, or it never ends, since no budget is
enough.

An evaluation that never ends reads lists within lists for ever.  The plainest case is a circle of
names, each of which is bound to the read of the next one; a part of an expression that comes to
such a circle keeps the whole from ending.

Main definitions:

* `Expr.EndsWell`, `Expr.Fails`, `Expr.NeverEnds`: the ways for an evaluation to come out.

Main results:

* `Expr.outcome_cases`: **every evaluation comes out in one of these ways**;
* `Expr.Fails.not_endsWell`, `Expr.NeverEnds.not_endsWell`, `Expr.NeverEnds.not_fails`: and in one
  of them only;
* `neverEnds_read`: **a circle of reads never ends**;
* `Expr.NeverEnds.combine_left`, `Expr.NeverEnds.combine_right`, `Expr.NeverEnds.leftSide`: a part
  that never ends.
-/

import Mathlib.Data.Set.Defs
import Roster.Proofs.Evaluation.Equations

set_option relaxedAutoImplicit false
set_option autoImplicit false

namespace Roster

open View

variable {e left right : Expr} {view after middle : View} {budget budget' : ℕ}

/-! ### Budgets that are used up -/

/-- What runs out of a budget runs out of every smaller one. -/
theorem exhausted_of_le (hle : budget ≤ budget')
    (h : (evaluate budget' e view).1 = .error .exhausted) :
    (evaluate budget e view).1 = .error .exhausted := by
  refine Classical.byContradiction fun hends => hends ?_
  rwa [evaluate_of_le hle hends] at h

/-- Two budgets that are both enough make no difference. -/
theorem evaluate_eq_of_ends (h : (evaluate budget e view).1 ≠ .error .exhausted)
    (h' : (evaluate budget' e view).1 ≠ .error .exhausted) :
    evaluate budget e view = evaluate budget' e view := by
  rcases Nat.le_total budget budget' with hle | hle
  · exact (evaluate_of_le hle h).symm
  · exact evaluate_of_le hle h'

namespace Expr

/-! ### Outcomes -/

/-- Within some budget the evaluation ends well, and it leaves a view. -/
def EndsWell (e : Expr) (view after : View) : Prop :=
  ∃ budget addresses, evaluate budget e view = (.ok addresses, after)

/-- Within some budget the evaluation fails with an error. -/
def Fails (e : Expr) (view : View) : Prop :=
  ∃ budget error, (evaluate budget e view).1 = .error (.failed error)

/-- No budget is enough for the evaluation. -/
def NeverEnds (e : Expr) (view : View) : Prop :=
  ∀ budget, (evaluate budget e view).1 = .error .exhausted

/-- **Every evaluation comes out in one of three ways.** -/
theorem outcome_cases (e : Expr) (view : View) :
    (∃ after, e.EndsWell view after) ∨ e.Fails view ∨ e.NeverEnds view := by
  by_cases h : e.NeverEnds view
  · exact Or.inr (Or.inr h)
  · obtain ⟨budget, hends⟩ := Classical.not_forall.1 h
    cases hrun : evaluate budget e view with
    | mk result after =>
        rw [hrun] at hends
        rcases result with (error | _) | addresses
        · exact Or.inr (Or.inl ⟨budget, error, congrArg Prod.fst hrun⟩)
        · exact absurd rfl hends
        · exact Or.inl ⟨after, budget, addresses, hrun⟩

theorem NeverEnds.not_endsWell (h : e.NeverEnds view) : ¬ e.EndsWell view after := by
  rintro ⟨budget, addresses, hrun⟩
  have hexhausted := h budget
  rw [hrun] at hexhausted
  cases hexhausted

theorem NeverEnds.not_fails (h : e.NeverEnds view) : ¬ e.Fails view := by
  rintro ⟨budget, error, hrun⟩
  rw [h budget] at hrun
  cases hrun

theorem Fails.not_endsWell (h : e.Fails view) : ¬ e.EndsWell view after := by
  rintro ⟨enough, addresses, hok⟩
  obtain ⟨budget, error, hrun⟩ := h
  have hsame := @evaluate_eq_of_ends e view budget enough (by simp [hrun]) (by simp [hok])
  rw [hsame, hok] at hrun
  cases hrun

/-! ### Parts that never end -/

theorem NeverEnds.combine_left {op : Operator} (hop : op ≠ .parallel) (h : left.NeverEnds view) :
    (combine op left right).NeverEnds view := by
  intro budget
  have hleft : evaluate budget left view = (.error .exhausted, (evaluate budget left view).2) :=
    Prod.ext (h budget) rfl
  rw [evaluate_combine_of_error hop hleft]

/-- If the left operand ends, the right one begins where it ends. -/
theorem NeverEnds.combine_right {op : Operator} (hop : op ≠ .parallel)
    (hleft : left.EndsWell view middle) (h : right.NeverEnds middle) :
    (combine op left right).NeverEnds view := by
  intro budget
  obtain ⟨enough, first, hrun⟩ := hleft
  -- the left operand ends within the larger one of two budgets, and the right one does not
  refine exhausted_of_le (Nat.le_max_left budget enough) ?_
  have hfirst : evaluate (max budget enough) left view = (.ok first, middle) := by
    rw [evaluate_of_le (Nat.le_max_right budget enough) (by simp [hrun]), hrun]
  rw [evaluate_combine_of_ok hop hfirst, h]
  rfl

/-- Both sides of a composition are evaluated to their ends. -/
theorem NeverEnds.leftSide (hallow : view.allowParallel left right = .ok ())
    (h : left.NeverEnds (overlay ∅ view)) : (combine .parallel left right).NeverEnds view := by
  intro budget
  have hleft : sideWrites budget left view = .error .exhausted :=
    sideWrites_eq_error_iff.2 (h budget)
  rw [evaluate_parallel_of_error hallow (EvalM.join_eq_exhausted_iff.2 (Or.inl hleft))]

end Expr

/-! ### Circles -/

/-- **A circle of reads never ends**: each of the names is bound to the read of one of them. -/
theorem neverEnds_read {names : Set Name}
    (h : ∀ name ∈ names, ∃ via ∈ names, view.lookup name = some (.read via)) :
    ∀ name ∈ names, (Expr.read name).NeverEnds view := by
  intro name hname budget
  induction budget generalizing name with
  | zero => rw [evaluate_read_zero]
  | succ budget ih =>
      obtain ⟨via, hvia, hlookup⟩ := h name hname
      rw [evaluate_read_of_some hlookup]
      exact ih via hvia

end Roster
