/-
**The commits of a run.**

A composition commits the writes of its two sides.  What a side writes may come as a surprise to
the check before it: the check knows the definitions in the text of the side, but not those that
stand in the bindings of the lists that the side reads.  A commit is *clean* if there is no such
surprise, apart from names that were unbound and are bound to the empty list.

Main definitions:

* `Commit`, `Commit.Clean`: a commit, and what it means for it to be clean;
* `Commits`: the commits made in the course of an evaluation, those inside the sides of a
  composition included, also when the evaluation fails later on;
* `CleanRun`: an evaluation all of whose commits are clean.

Main results:

* `CleanRun.of_read`, `CleanRun.of_left`, `CleanRun.of_right`, `CleanRun.of_leftSide`,
  `CleanRun.of_rightSide`, `CleanRun.of_body`: the parts of a clean run are clean.
-/

import Roster.Proofs.Evaluation.Equations

set_option relaxedAutoImplicit false
set_option autoImplicit false

namespace Roster

/-- The commit of a composition: the view in which the composition is evaluated, its two sides, and
what they have written. -/
structure Commit where
  view : View
  left : Expr
  right : Expr
  leftWrites : Environment
  rightWrites : Environment

/-- Each name that is written is defined in the text of the side, or it was unbound and is bound to
the empty list. -/
def CleanWrites (view : View) (side : Expr) (writes : Environment) : Prop :=
  ∀ name e, writes[name]? = some e →
    name ∈ side.definedNames ∅ ∨ (view.lookup name = none ∧ e = .empty)

/-- The writes of both sides are clean. -/
structure Commit.Clean (commit : Commit) : Prop where
  left : CleanWrites commit.view commit.left commit.leftWrites
  right : CleanWrites commit.view commit.right commit.rightWrites

/-- The commits that the evaluation of an expression in a view makes within a budget. -/
inductive Commits : ℕ → Expr → View → Commit → Prop
  | read {budget : ℕ} {name : Name} {e : Expr} {view : View} {commit : Commit} :
      view.lookup name = some e → Commits budget e view commit →
        Commits (budget + 1) (.read name) view commit
  | left {budget : ℕ} {op : Operator} {left right : Expr} {view : View} {commit : Commit} :
      op ≠ .parallel → Commits budget left view commit →
        Commits budget (.combine op left right) view commit
  | right {budget : ℕ} {op : Operator} {left right : Expr} {view middle : View}
      {first : AddressSet} {commit : Commit} :
      op ≠ .parallel → evaluate budget left view = (.ok first, middle) →
        Commits budget right middle commit →
          Commits budget (.combine op left right) view commit
  | leftSide {budget : ℕ} {left right : Expr} {view : View} {commit : Commit} :
      view.allowParallel left right = .ok () → Commits budget left (.overlay ∅ view) commit →
        Commits budget (.combine .parallel left right) view commit
  | rightSide {budget : ℕ} {left right : Expr} {view : View} {commit : Commit} :
      view.allowParallel left right = .ok () → Commits budget right (.overlay ∅ view) commit →
        Commits budget (.combine .parallel left right) view commit
  | join {budget : ℕ} {left right : Expr} {view : View} {leftWrites rightWrites : Environment} :
      view.allowParallel left right = .ok () → sideWrites budget left view = .ok leftWrites →
        sideWrites budget right view = .ok rightWrites →
          Commits budget (.combine .parallel left right) view
            ⟨view, left, right, leftWrites, rightWrites⟩
  | body {budget : ℕ} {name : Name} {body snapshot : Expr} {view : View} {commit : Commit} :
      view.snapshot name body = .ok snapshot → Commits budget body view commit →
        Commits budget (.define name body) view commit

/-- An evaluation all of whose commits are clean. -/
def CleanRun (budget : ℕ) (e : Expr) (view : View) : Prop :=
  ∀ commit, Commits budget e view commit → commit.Clean

section

variable {budget : ℕ} {name : Name} {e left right body snapshot : Expr} {op : Operator}
  {view middle : View} {first : AddressSet}

theorem CleanRun.of_read (h : CleanRun (budget + 1) (.read name) view)
    (he : view.lookup name = some e) : CleanRun budget e view :=
  fun commit hcommit => h commit (.read he hcommit)

theorem CleanRun.of_left (h : CleanRun budget (.combine op left right) view)
    (hop : op ≠ .parallel) : CleanRun budget left view :=
  fun commit hcommit => h commit (.left hop hcommit)

theorem CleanRun.of_right (h : CleanRun budget (.combine op left right) view) (hop : op ≠ .parallel)
    (hleft : evaluate budget left view = (.ok first, middle)) : CleanRun budget right middle :=
  fun commit hcommit => h commit (.right hop hleft hcommit)

theorem CleanRun.of_leftSide (h : CleanRun budget (.combine .parallel left right) view)
    (hallow : view.allowParallel left right = .ok ()) : CleanRun budget left (.overlay ∅ view) :=
  fun commit hcommit => h commit (.leftSide hallow hcommit)

theorem CleanRun.of_rightSide (h : CleanRun budget (.combine .parallel left right) view)
    (hallow : view.allowParallel left right = .ok ()) : CleanRun budget right (.overlay ∅ view) :=
  fun commit hcommit => h commit (.rightSide hallow hcommit)

theorem CleanRun.of_body (h : CleanRun budget (.define name body) view)
    (hsnapshot : view.snapshot name body = .ok snapshot) : CleanRun budget body view :=
  fun commit hcommit => h commit (.body hsnapshot hcommit)

/-- A first read of an unbound name commits nothing. -/
theorem not_commits_read_of_none (h : view.lookup name = none) (commit : Commit) :
    ¬ Commits budget (.read name) view commit := by
  intro hcommit
  cases hcommit with
  | read he _ =>
      rw [h] at he
      cases he

/-! ### Writes that are clean -/

variable {writes : Environment}

theorem CleanWrites.none : CleanWrites view e ∅ := by
  intro target body h
  simp at h

/-- A definition that stands in the text of the side. -/
theorem CleanWrites.define (h : CleanWrites view e writes) (hname : name ∈ e.definedNames ∅) :
    CleanWrites view e (writes.insert name body) := by
  intro target b hb
  simp only [Std.ExtTreeMap.getElem?_insert, Std.compare_eq_iff_eq] at hb
  split at hb
  · rename_i heq
    exact Or.inl (heq ▸ hname)
  · exact h target b hb

/-- The first read of an unbound name. -/
theorem CleanWrites.first_read (h : CleanWrites view e writes) (hname : view.lookup name = .none) :
    CleanWrites view e (writes.insert name .empty) := by
  intro target b hb
  simp only [Std.ExtTreeMap.getElem?_insert, Std.compare_eq_iff_eq] at hb
  split at hb
  · rename_i heq
    cases hb
    exact Or.inr ⟨heq ▸ hname, rfl⟩
  · exact h target b hb

end

/-! ### Evaluations in a row -/

/-- The view that evaluations in a row leave, each within a budget of its own.  An evaluation that
fails leaves what it has bound, and the next one begins there. -/
def viewAfter : List (ℕ × Expr) → View → View
  | [], view => view
  | (budget, e) :: rest, view => viewAfter rest (evaluate budget e view).2

/-- Each of several evaluations in a row is a clean run. -/
def CleanRuns : List (ℕ × Expr) → View → Prop
  | [], _ => True
  | (budget, e) :: rest, view =>
    CleanRun budget e view ∧ CleanRuns rest (evaluate budget e view).2

end Roster
