/-
**The equations of evaluation, and larger budgets.**

An evaluation is a computation on a view.  Here it is taken apart once and for all: for each kind
of expression there is an equation for every way in which its evaluation may go on, and nothing
after this module unfolds the evaluator.  The induction principle `evaluation_induction` goes with
the equations: on the budget, and within a budget on the expression.

Main definitions:

* `Operator.onSets`: the addresses of a combination, given those of its operands;
* `sideWrites`: what a side of a parallel composition writes.

Main results:

* `evaluate_combine_of_ok`, `evaluate_parallel_of_ok`, `evaluate_define_of_ok` and the equations
  beside them: how an evaluation goes on;
* `evaluate_combine_cases`, `evaluate_parallel_cases`, `evaluate_define_cases`: all that can happen
  in the evaluation of an expression with parts;
* `evaluation_induction`: the induction that follows an evaluation;
* `evaluate_of_le`: **an evaluation that has not run out of its budget is the same within every
  larger one**.
-/

import Mathlib.Data.Nat.Notation
import Roster.Evaluation.Basic

set_option relaxedAutoImplicit false
set_option autoImplicit false

namespace Roster

/-- The addresses of a combination, given those of its operands.  A parallel composition has
none. -/
def Operator.onSets : Operator → AddressSet → AddressSet → AddressSet
  | .union, first, second => first ∪ second
  | .difference, first, second => first \ second
  | .intersection, first, second => first ∩ second
  | .sequence, _, second => second
  | .parallel, _, _ => ∅

/-! ### Computations -/

namespace EvalM

/-- A computation that stops also stops what was to follow it. -/
theorem run_bind_of_error {α β : Type} {first : EvalM α} {next : α → EvalM β} {view after : View}
    {stop : Stop} (h : first.run.run view = (.error stop, after)) :
    (first >>= next).run.run view = (.error stop, after) := by
  rw [ExceptT.run_bind, StateT.run_bind, h]
  rfl

theorem run_bind_of_ok {α β : Type} {first : EvalM α} {next : α → EvalM β} {view after : View}
    {a : α} (h : first.run.run view = (.ok a, after)) :
    (first >>= next).run.run view = (next a).run.run after := by
  rw [ExceptT.run_bind, StateT.run_bind, h]
  rfl

theorem run_inspect_of_ok {α : Type} {test : View → Except EvalError α} {view : View} {a : α}
    (h : test view = .ok a) : (inspect test).run.run view = (.ok a, view) := by
  refine (run_bind_of_ok (a := view) rfl).trans ?_
  simp only [h]
  rfl

theorem run_inspect_of_error {α : Type} {test : View → Except EvalError α} {view : View}
    {error : EvalError} (h : test view = .error error) :
    (inspect test).run.run view = (.error (.failed error), view) := by
  refine (run_bind_of_ok (a := view) rfl).trans ?_
  simp only [h]
  rfl

theorem run_parallel {α : Type} (left right : EvalM α) (view : View) :
    (parallel left right).run.run view =
      (match join (writesOver view left) (writesOver view right) with
        | .ok (leftWrites, rightWrites) => set ((view.bindAll leftWrites).bindAll rightWrites)
        | .error stop => throw stop : EvalM Unit).run.run view := rfl

/-! ### The outcomes of two sides -/

theorem join_eq_ok_iff {first second : Except Stop Environment}
    {writes : Environment × Environment} :
    join first second = .ok writes ↔ first = .ok writes.1 ∧ second = .ok writes.2 := by
  obtain ⟨firstWrites, secondWrites⟩ := writes
  rcases first with (_ | _) | _ <;> rcases second with (_ | _) | _ <;> simp [join]

theorem join_eq_exhausted_iff {first second : Except Stop Environment} :
    join first second = .error .exhausted ↔
      first = .error .exhausted ∨ second = .error .exhausted := by
  rcases first with (_ | _) | _ <;> rcases second with (_ | _) | _ <;> simp [join]

theorem of_join_eq_error {first second : Except Stop Environment} {stop : Stop}
    (h : join first second = .error stop) : first = .error stop ∨ second = .error stop := by
  rcases first with (_ | _) | _ <;> rcases second with (_ | _) | _ <;> simp_all [join]

/-- Which error two sides have depends on their errors only. -/
theorem join_eq_error_congr {first second first' second' : Except Stop Environment}
    (hfirst : ∀ stop, first = .error stop ↔ first' = .error stop)
    (hsecond : ∀ stop, second = .error stop ↔ second' = .error stop) {stop : Stop}
    (h : join first second = .error stop) : join first' second' = .error stop := by
  have hshape : ∀ {one other : Except Stop Environment},
      (∀ stop, one = .error stop ↔ other = .error stop) →
        (∃ stop, one = .error stop ∧ other = .error stop) ∨
          ∃ a b, one = .ok a ∧ other = .ok b := by
    intro one other hsame
    rcases one with stop | a
    · exact Or.inl ⟨stop, rfl, (hsame stop).1 rfl⟩
    · rcases other with stop | b
      · cases (hsame stop).2 rfl
      · exact Or.inr ⟨a, b, rfl, rfl⟩
  rcases hshape hfirst with ⟨_ | _, rfl, rfl⟩ | ⟨a, b, rfl, rfl⟩ <;>
    rcases hshape hsecond with ⟨_ | _, rfl, rfl⟩ | ⟨c, d, rfl, rfl⟩ <;>
    first | exact h | cases h

end EvalM

/-! ### Equations -/

section

variable {budget : ℕ} {view : View}

@[simp] theorem evaluate_address (budget : ℕ) (text : String) (view : View) :
    evaluate budget (.address text) view = (.ok {text}, view) := rfl

@[simp] theorem evaluate_empty (budget : ℕ) (view : View) :
    evaluate budget .empty view = (.ok ∅, view) := rfl

@[simp] theorem evaluate_read_zero (name : Name) (view : View) :
    evaluate 0 (.read name) view = (.error .exhausted, view) := rfl

theorem evaluate_read_of_some {name : Name} {e : Expr} (h : view.lookup name = some e) :
    evaluate (budget + 1) (.read name) view = evaluate budget e view := by
  refine (EvalM.run_bind_of_ok (a := view) rfl).trans ?_
  simp only [h]
  rfl

/-- The first read of an unbound name binds it. -/
theorem evaluate_read_of_none {name : Name} (h : view.lookup name = none) :
    evaluate (budget + 1) (.read name) view = (.ok ∅, view.bind name .empty) := by
  refine (EvalM.run_bind_of_ok (a := view) rfl).trans ?_
  simp only [h]
  rfl

section Combine

variable {op : Operator} {left right : Expr}

theorem evaluate_combine_of_error (hop : op ≠ .parallel) {stop : Stop} {after : View}
    (h : evaluate budget left view = (.error stop, after)) :
    evaluate budget (.combine op left right) view = (.error stop, after) := by
  cases op with
  | parallel => exact absurd rfl hop
  | union => exact EvalM.run_bind_of_error h
  | difference => exact EvalM.run_bind_of_error h
  | intersection => exact EvalM.run_bind_of_error h
  | sequence => exact EvalM.run_bind_of_error h

/-- The right operand sees what the left one has bound. -/
theorem evaluate_combine_of_ok (hop : op ≠ .parallel) {first : AddressSet} {middle : View}
    (h : evaluate budget left view = (.ok first, middle)) :
    evaluate budget (.combine op left right) view =
      ((evaluate budget right middle).1.map (op.onSets first),
        (evaluate budget right middle).2) := by
  cases hright : evaluate budget right middle with
  | mk result after =>
      cases op with
      | parallel => exact absurd rfl hop
      | union =>
          refine (EvalM.run_bind_of_ok h).trans ?_
          cases result with
          | error stop => exact EvalM.run_bind_of_error hright
          | ok second => exact EvalM.run_bind_of_ok hright
      | difference =>
          refine (EvalM.run_bind_of_ok h).trans ?_
          cases result with
          | error stop => exact EvalM.run_bind_of_error hright
          | ok second => exact EvalM.run_bind_of_ok hright
      | intersection =>
          refine (EvalM.run_bind_of_ok h).trans ?_
          cases result with
          | error stop => exact EvalM.run_bind_of_error hright
          | ok second => exact EvalM.run_bind_of_ok hright
      | sequence =>
          refine (EvalM.run_bind_of_ok h).trans (hright.trans ?_)
          cases result <;> rfl

/-- What a side of a parallel composition writes, in an overlay of its own. -/
def sideWrites (budget : ℕ) (side : Expr) (view : View) : Except Stop Environment :=
  EvalM.writesOver view (evalWith (evalRead budget) side)

theorem sideWrites_of_ok {side : Expr} {addresses : AddressSet} {after : View}
    (h : evaluate budget side (.overlay ∅ view) = (.ok addresses, after)) :
    sideWrites budget side view = .ok after.top := by
  rw [evaluate] at h
  rw [sideWrites, EvalM.writesOver, h]

theorem sideWrites_of_error {side : Expr} {stop : Stop} {after : View}
    (h : evaluate budget side (.overlay ∅ view) = (.error stop, after)) :
    sideWrites budget side view = .error stop := by
  rw [evaluate] at h
  rw [sideWrites, EvalM.writesOver, h]

theorem sideWrites_eq_ok_iff {side : Expr} {writes : Environment} :
    sideWrites budget side view = .ok writes ↔
      ∃ addresses after, evaluate budget side (.overlay ∅ view) = (.ok addresses, after) ∧
        after.top = writes := by
  cases h : evaluate budget side (.overlay ∅ view) with
  | mk result after =>
      cases result with
      | error stop => simp [sideWrites_of_error h]
      | ok addresses =>
          rw [sideWrites_of_ok h, Except.ok.injEq]
          constructor
          · intro htop
            exact ⟨addresses, after, rfl, htop⟩
          · rintro ⟨addresses', after', hafter, htop⟩
            cases hafter
            exact htop

theorem sideWrites_eq_error_iff {side : Expr} {stop : Stop} :
    sideWrites budget side view = .error stop ↔
      (evaluate budget side (.overlay ∅ view)).1 = .error stop := by
  cases h : evaluate budget side (.overlay ∅ view) with
  | mk result after =>
      cases result with
      | error stop => simp [sideWrites_of_error h]
      | ok addresses => simp [sideWrites_of_ok h]

theorem evaluate_parallel_of_refused {error : EvalError}
    (h : view.allowParallel left right = .error error) :
    evaluate budget (.combine .parallel left right) view = (.error (.failed error), view) :=
  EvalM.run_bind_of_error (EvalM.run_inspect_of_error h)

theorem evaluate_parallel_of_error (hallow : view.allowParallel left right = .ok ()) {stop : Stop}
    (h : EvalM.join (sideWrites budget left view) (sideWrites budget right view) = .error stop) :
    evaluate budget (.combine .parallel left right) view = (.error stop, view) := by
  refine (EvalM.run_bind_of_ok (EvalM.run_inspect_of_ok hallow)).trans ?_
  refine EvalM.run_bind_of_error ?_
  rw [EvalM.run_parallel, ← sideWrites, ← sideWrites, h]
  rfl

/-- The writes of the left side are committed first. -/
theorem evaluate_parallel_of_ok (hallow : view.allowParallel left right = .ok ())
    {leftWrites rightWrites : Environment} (hleft : sideWrites budget left view = .ok leftWrites)
    (hright : sideWrites budget right view = .ok rightWrites) :
    evaluate budget (.combine .parallel left right) view =
      (.ok ∅, (view.bindAll leftWrites).bindAll rightWrites) := by
  refine (EvalM.run_bind_of_ok (EvalM.run_inspect_of_ok hallow)).trans ?_
  refine EvalM.run_bind_of_ok (a := ()) ?_
  rw [EvalM.run_parallel, ← sideWrites, ← sideWrites, hleft, hright]
  rfl

end Combine

section Define

variable {name : Name} {body : Expr}

theorem evaluate_define_of_refused {error : EvalError}
    (h : view.snapshot name body = .error error) :
    evaluate budget (.define name body) view = (.error (.failed error), view) :=
  EvalM.run_bind_of_error (EvalM.run_inspect_of_error h)

theorem evaluate_define_of_error {snapshot : Expr}
    (hsnapshot : view.snapshot name body = .ok snapshot) {stop : Stop} {after : View}
    (h : evaluate budget body view = (.error stop, after)) :
    evaluate budget (.define name body) view = (.error stop, after) := by
  refine (EvalM.run_bind_of_ok (EvalM.run_inspect_of_ok hsnapshot)).trans ?_
  exact EvalM.run_bind_of_error h

/-- A snapshot that may no longer be bound leaves the effects of the body. -/
theorem evaluate_define_of_recheck {snapshot : Expr}
    (hsnapshot : view.snapshot name body = .ok snapshot) {addresses : AddressSet} {after : View}
    (h : evaluate budget body view = (.ok addresses, after)) {error : EvalError}
    (hallow : after.allowBinding name snapshot = .error error) :
    evaluate budget (.define name body) view = (.error (.failed error), after) := by
  refine (EvalM.run_bind_of_ok (EvalM.run_inspect_of_ok hsnapshot)).trans ?_
  refine (EvalM.run_bind_of_ok h).trans ?_
  exact EvalM.run_bind_of_error (EvalM.run_inspect_of_error hallow)

theorem evaluate_define_of_ok {snapshot : Expr}
    (hsnapshot : view.snapshot name body = .ok snapshot) {addresses : AddressSet} {after : View}
    (h : evaluate budget body view = (.ok addresses, after))
    (hallow : after.allowBinding name snapshot = .ok ()) :
    evaluate budget (.define name body) view = (.ok addresses, after.bind name snapshot) := by
  refine (EvalM.run_bind_of_ok (EvalM.run_inspect_of_ok hsnapshot)).trans ?_
  refine (EvalM.run_bind_of_ok h).trans ?_
  refine (EvalM.run_bind_of_ok (EvalM.run_inspect_of_ok hallow)).trans ?_
  rfl

end Define

/-! ### All that can happen -/

/-- The left operand of a combination stops it, or the right one is evaluated. -/
theorem evaluate_combine_cases {op : Operator} (hop : op ≠ .parallel) (budget : ℕ)
    (left right : Expr) (view : View) :
    (∃ stop after, evaluate budget left view = (.error stop, after) ∧
        evaluate budget (.combine op left right) view = (.error stop, after)) ∨
      ∃ first middle, evaluate budget left view = (.ok first, middle) ∧
        evaluate budget (.combine op left right) view =
          ((evaluate budget right middle).1.map (op.onSets first),
            (evaluate budget right middle).2) := by
  cases hrun : evaluate budget left view with
  | mk result middle =>
      cases result with
      | error stop => exact Or.inl ⟨stop, middle, rfl, evaluate_combine_of_error hop hrun⟩
      | ok first => exact Or.inr ⟨first, middle, rfl, evaluate_combine_of_ok hop hrun⟩

/-- A composition is refused, or stopped by a side, or it commits the writes of both sides. -/
theorem evaluate_parallel_cases (budget : ℕ) (left right : Expr) (view : View) :
    (∃ error, view.allowParallel left right = .error error ∧
        evaluate budget (.combine .parallel left right) view = (.error (.failed error), view)) ∨
      view.allowParallel left right = .ok () ∧
        ((∃ stop, EvalM.join (sideWrites budget left view) (sideWrites budget right view) =
              .error stop ∧
            evaluate budget (.combine .parallel left right) view = (.error stop, view)) ∨
          ∃ leftWrites rightWrites, sideWrites budget left view = .ok leftWrites ∧
            sideWrites budget right view = .ok rightWrites ∧
            evaluate budget (.combine .parallel left right) view =
              (.ok ∅, (view.bindAll leftWrites).bindAll rightWrites)) := by
  cases hallow : view.allowParallel left right with
  | error error => exact Or.inl ⟨error, rfl, evaluate_parallel_of_refused hallow⟩
  | ok _ =>
      refine Or.inr ⟨rfl, ?_⟩
      cases hjoin : EvalM.join (sideWrites budget left view) (sideWrites budget right view) with
      | error stop => exact Or.inl ⟨stop, rfl, evaluate_parallel_of_error hallow hjoin⟩
      | ok writes =>
          obtain ⟨hl, hr⟩ := EvalM.join_eq_ok_iff.1 hjoin
          exact Or.inr ⟨writes.1, writes.2, hl, hr, evaluate_parallel_of_ok hallow hl hr⟩

/-- A definition is refused before its body is evaluated, stopped by it, or refused after it, or it
binds its snapshot. -/
theorem evaluate_define_cases (budget : ℕ) (name : Name) (body : Expr) (view : View) :
    (∃ error, view.snapshot name body = .error error ∧
        evaluate budget (.define name body) view = (.error (.failed error), view)) ∨
      ∃ snapshot, view.snapshot name body = .ok snapshot ∧
        ((∃ stop after, evaluate budget body view = (.error stop, after) ∧
            evaluate budget (.define name body) view = (.error stop, after)) ∨
          ∃ addresses after, evaluate budget body view = (.ok addresses, after) ∧
            ((∃ error, after.allowBinding name snapshot = .error error ∧
                evaluate budget (.define name body) view = (.error (.failed error), after)) ∨
              after.allowBinding name snapshot = .ok () ∧
                evaluate budget (.define name body) view =
                  (.ok addresses, after.bind name snapshot))) := by
  cases hsnapshot : view.snapshot name body with
  | error error => exact Or.inl ⟨error, rfl, evaluate_define_of_refused hsnapshot⟩
  | ok snapshot =>
      refine Or.inr ⟨snapshot, rfl, ?_⟩
      cases hrun : evaluate budget body view with
      | mk result after =>
          cases result with
          | error stop => exact Or.inl ⟨stop, after, rfl, evaluate_define_of_error hsnapshot hrun⟩
          | ok addresses =>
              refine Or.inr ⟨addresses, after, rfl, ?_⟩
              cases hallow : after.allowBinding name snapshot with
              | error error =>
                  exact Or.inl ⟨error, rfl, evaluate_define_of_recheck hsnapshot hrun hallow⟩
              | ok _ => exact Or.inr ⟨rfl, evaluate_define_of_ok hsnapshot hrun hallow⟩

/-- What a definition that ends well has been through. -/
theorem of_evaluate_define_eq_ok {name : Name} {body : Expr} {addresses : AddressSet} {after : View}
    (h : evaluate budget (.define name body) view = (.ok addresses, after)) :
    ∃ snapshot middle, view.snapshot name body = .ok snapshot ∧
      evaluate budget body view = (.ok addresses, middle) ∧
      middle.allowBinding name snapshot = .ok () ∧ after = middle.bind name snapshot := by
  obtain ⟨_, -, hall⟩ | ⟨snapshot, hsnapshot, ⟨_, _, -, hall⟩ |
      ⟨_, middle, hrun, ⟨_, -, hall⟩ | ⟨hallow, hall⟩⟩⟩ :=
    evaluate_define_cases budget name body view
  · rw [hall] at h
    cases h
  · rw [hall] at h
    cases h
  · rw [hall] at h
    cases h
  · rw [hall] at h
    cases h
    exact ⟨snapshot, middle, hsnapshot, hrun, hallow, rfl⟩

end

/-! ### Induction along an evaluation -/

/-- **The induction that follows an evaluation**: a read within a budget evaluates any expression
within the next smaller one; all else goes on with the parts of the expression within the same
budget. -/
theorem evaluation_induction {motive : ℕ → Expr → Prop}
    (address : ∀ budget text, motive budget (.address text))
    (empty : ∀ budget, motive budget .empty)
    (exhausted : ∀ name, motive 0 (.read name))
    (read : ∀ budget name, (∀ e, motive budget e) → motive (budget + 1) (.read name))
    (combine : ∀ budget op left right, op ≠ .parallel → motive budget left →
      motive budget right → motive budget (.combine op left right))
    (parallel : ∀ budget left right, motive budget left → motive budget right →
      motive budget (.combine .parallel left right))
    (define : ∀ budget name body, motive budget body → motive budget (.define name body)) :
    ∀ budget e, motive budget e := by
  intro budget
  induction budget with
  | zero =>
      intro e
      induction e with
      | address text => exact address 0 text
      | empty => exact empty 0
      | read name => exact exhausted name
      | combine op left right ihl ihr =>
          by_cases hop : op = .parallel
          · subst hop
            exact parallel 0 left right ihl ihr
          · exact combine 0 op left right hop ihl ihr
      | define name body ih => exact define 0 name body ih
  | succ budget ihb =>
      intro e
      induction e with
      | address text => exact address (budget + 1) text
      | empty => exact empty (budget + 1)
      | read name => exact read budget name ihb
      | combine op left right ihl ihr =>
          by_cases hop : op = .parallel
          · subst hop
            exact parallel (budget + 1) left right ihl ihr
          · exact combine (budget + 1) op left right hop ihl ihr
      | define name body ih => exact define (budget + 1) name body ih

/-! ### Larger budgets -/

/-- What a side writes within a budget that it has not used up, it also writes within the next
larger one. -/
theorem sideWrites_succ {budget : ℕ} {side : Expr} {view : View}
    (h : sideWrites budget side view ≠ .error .exhausted)
    (ih : (evaluate budget side (.overlay ∅ view)).1 ≠ .error .exhausted →
      evaluate (budget + 1) side (.overlay ∅ view) = evaluate budget side (.overlay ∅ view)) :
    sideWrites (budget + 1) side view = sideWrites budget side view := by
  have hrun := ih fun hex => h (sideWrites_eq_error_iff.2 hex)
  rw [evaluate, evaluate] at hrun
  rw [sideWrites, sideWrites, EvalM.writesOver, EvalM.writesOver, hrun]

/-- An evaluation that has not run out of its budget is the same within the next larger one. -/
theorem evaluate_succ : ∀ (budget : ℕ) (e : Expr) (view : View),
    (evaluate budget e view).1 ≠ .error .exhausted →
      evaluate (budget + 1) e view = evaluate budget e view := by
  refine evaluation_induction ?_ ?_ ?_ ?_ ?_ ?_ ?_
  · intro budget text view _
    rfl
  · intro budget view _
    rfl
  · intro name view h
    exact absurd rfl h
  · intro budget name ih view h
    cases hlookup : view.lookup name with
    | none => rw [evaluate_read_of_none hlookup, evaluate_read_of_none hlookup]
    | some e =>
        rw [evaluate_read_of_some hlookup] at h ⊢
        rw [evaluate_read_of_some hlookup]
        exact ih e view h
  · intro budget op left right hop ihl ihr view h
    -- the whole has not run out, so the left operand has not, and if it ends well nor has the right
    cases hleft : evaluate budget left view with
    | mk result middle =>
        cases result with
        | error stop =>
            have hfirst : evaluate (budget + 1) left view = (.error stop, middle) := by
              rw [← hleft]
              refine ihl view fun hex => h ?_
              rw [evaluate_combine_of_error hop hleft]
              rwa [hleft] at hex
            rw [evaluate_combine_of_error hop hleft, evaluate_combine_of_error hop hfirst]
        | ok first =>
            have hfirst : evaluate (budget + 1) left view = (.ok first, middle) := by
              rw [← hleft]
              exact ihl view (by simp [hleft])
            have hsecond : evaluate (budget + 1) right middle = evaluate budget right middle := by
              refine ihr middle fun hex => h ?_
              rw [evaluate_combine_of_ok hop hleft, hex]
              rfl
            rw [evaluate_combine_of_ok hop hleft, evaluate_combine_of_ok hop hfirst, hsecond]
  · intro budget left right ihl ihr view h
    cases hallow : view.allowParallel left right with
    | error error =>
        rw [evaluate_parallel_of_refused hallow, evaluate_parallel_of_refused hallow]
    | ok _ =>
        have hjoin : EvalM.join (sideWrites budget left view) (sideWrites budget right view) ≠
            .error .exhausted := by
          intro hex
          rw [evaluate_parallel_of_error hallow hex] at h
          exact h rfl
        rw [Ne, EvalM.join_eq_exhausted_iff, not_or] at hjoin
        have hleft := sideWrites_succ hjoin.1 (ihl _)
        have hright := sideWrites_succ hjoin.2 (ihr _)
        cases hwrites : EvalM.join (sideWrites budget left view) (sideWrites budget right view) with
        | error stop =>
            rw [evaluate_parallel_of_error hallow hwrites]
            exact evaluate_parallel_of_error hallow (by rw [hleft, hright, hwrites])
        | ok writes =>
            obtain ⟨hl, hr⟩ := EvalM.join_eq_ok_iff.1 hwrites
            rw [evaluate_parallel_of_ok hallow hl hr,
              evaluate_parallel_of_ok hallow (hleft.trans hl) (hright.trans hr)]
  · intro budget name body ih view h
    cases hsnapshot : view.snapshot name body with
    | error error =>
        rw [evaluate_define_of_refused hsnapshot, evaluate_define_of_refused hsnapshot]
    | ok snapshot =>
        have hbody : evaluate (budget + 1) body view = evaluate budget body view := by
          refine ih view fun hex => h ?_
          cases hrun : evaluate budget body view with
          | mk result after =>
              rw [hrun] at hex
              rw [evaluate_define_of_error hsnapshot (hrun.trans (congrArg (·, after) hex))]
        cases hrun : evaluate budget body view with
        | mk result after =>
            cases result with
            | error stop =>
                rw [evaluate_define_of_error hsnapshot hrun,
                  evaluate_define_of_error hsnapshot (hbody.trans hrun)]
            | ok addresses =>
                cases hallow : after.allowBinding name snapshot with
                | error error =>
                    rw [evaluate_define_of_recheck hsnapshot hrun hallow,
                      evaluate_define_of_recheck hsnapshot (hbody.trans hrun) hallow]
                | ok _ =>
                    rw [evaluate_define_of_ok hsnapshot hrun hallow,
                      evaluate_define_of_ok hsnapshot (hbody.trans hrun) hallow]

/-- **An evaluation that has not run out of its budget is the same within every larger one.** -/
theorem evaluate_of_le {budget larger : ℕ} (hle : budget ≤ larger) {e : Expr} {view : View}
    (h : (evaluate budget e view).1 ≠ .error .exhausted) :
    evaluate larger e view = evaluate budget e view := by
  induction hle with
  | refl => rfl
  | step _ ih => rw [evaluate_succ _ e view (by rwa [ih]), ih]

end Roster
