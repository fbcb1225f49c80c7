/-
**What holds of the text of an expression holds of all that it binds.**

Nothing is ever bound but the empty list and snapshots, and a snapshot is put together from the body
of a definition and from what was bound to the name before.  So a property of expressions that
passes to their parts, and from a definition and a former binding to the snapshot, spreads from what
is evaluated and what is bound to all that will be bound.  Whether names and addresses are well
spelled is such a property, and so is the absence of compositions.

It also spreads to the places where an evaluation fails.  Without compositions these are the checks
of definitions, so that the question whether an evaluation can fail becomes one about a single
check.

Main definitions:

* `Hereditary`: the properties that spread in this way, one for the expressions that are evaluated
  and one for those that are bound to a name;
* `View.All`: all bindings of a view have a property;
* `FailedCheckIn`, `FailedCheck`: the check of a definition has failed, in a given view or in some
  view;
* `Expr.ParallelFree`: an expression without compositions.

Main results:

* `Hereditary.all_evaluate`: **an evaluation keeps a hereditary property**;
* `Hereditary.evaluable_of_mem`: **each address of an answer** is an expression that has it;
* `Hereditary.of_failed`: **where an evaluation without compositions fails**: at a check in the view
  that it leaves;
* `FailedCheck.eq_cycle`, `Hereditary.cleanRun`: without compositions cycles are the only errors,
  and every run is clean.
-/

import Roster.Proofs.Evaluation.Commits
import Roster.Proofs.Evaluation.Simulation

set_option relaxedAutoImplicit false
set_option autoImplicit false

namespace Roster

open View

/-- A property of the expressions that are evaluated, and a property of those that are bound to a
name, such that the evaluation of the former only binds the latter. -/
structure Hereditary (evaluable : Expr → Prop) (bindable : Name → Expr → Prop) : Prop where
  read {name : Name} : evaluable (.read name) → bindable name .empty
  bound {name : Name} {e : Expr} : evaluable (.read name) → bindable name e → evaluable e
  operands {op : Operator} {left right : Expr} :
    evaluable (.combine op left right) → evaluable left ∧ evaluable right
  body {name : Name} {body : Expr} : evaluable (.define name body) → evaluable body
  define {name : Name} {body : Expr} : evaluable (.define name body) → bindable name .empty
  snapshot {name : Name} {body former : Expr} : evaluable (.define name body) →
    bindable name former → bindable name (body.substitute name former)

/-- What is bound has a property that may depend on the name. -/
def View.All (bindable : Name → Expr → Prop) (view : View) : Prop :=
  ∀ name e, view.lookup name = some e → bindable name e

section

variable {evaluable : Expr → Prop} {bindable : Name → Expr → Prop} {view : View}

theorem View.All.empty : (View.base ∅).All bindable := by
  intro name e he
  simp at he

theorem View.All.bind (h : view.All bindable) {name : Name} {e : Expr} (he : bindable name e) :
    (view.bind name e).All bindable := by
  intro other b hb
  rw [lookup_bind] at hb
  split at hb
  · rename_i heq
    cases hb
    exact heq ▸ he
  · exact h other b hb

/-- The commit of two sides each of which has kept the property. -/
theorem View.All.commit {left right : Environment} (hleft : (view.bindAll left).All bindable)
    (hright : (view.bindAll right).All bindable) :
    ((view.bindAll left).bindAll right).All bindable := by
  intro name e he
  rw [lookup_bindAll, Option.or_eq_some_iff] at he
  rcases he with he | ⟨-, he⟩
  · exact hright name e (by rw [lookup_bindAll, he, Option.some_or])
  · exact hleft name e he

/-- The snapshot of a definition may be bound. -/
theorem Hereditary.bindable_snapshot (h : Hereditary evaluable bindable)
    (hview : view.All bindable) {name : Name} {body snapshot : Expr}
    (hdefine : evaluable (.define name body)) (hsnapshot : view.snapshot name body = .ok snapshot) :
    bindable name snapshot := by
  rw [← (snapshot_eq_ok_iff.1 hsnapshot).2]
  refine h.snapshot hdefine ?_
  cases he : view.lookup name with
  | none =>
      rw [meaning_of_unbound he]
      exact h.define hdefine
  | some e =>
      rw [meaning_of_lookup he]
      exact hview name e he

/-- **An evaluation keeps a hereditary property.** -/
theorem Hereditary.all_evaluate (h : Hereditary evaluable bindable) :
    ∀ (budget : ℕ) (e : Expr) (view : View), view.All bindable → evaluable e →
      (evaluate budget e view).2.All bindable := by
  refine evaluation_induction ?_ ?_ ?_ ?_ ?_ ?_ ?_
  · intro budget text view hview _
    exact hview
  · intro budget view hview _
    exact hview
  · intro name view hview _
    exact hview
  · intro budget name ih view hview hname
    cases he : view.lookup name with
    | none =>
        rw [evaluate_read_of_none he]
        exact hview.bind (h.read hname)
    | some e =>
        rw [evaluate_read_of_some he]
        exact ih e view hview (h.bound hname (hview name e he))
  · intro budget op left right hop ihl ihr view hview he
    have hleft := ihl view hview (h.operands he).1
    obtain ⟨stop, after, hrun, hall⟩ | ⟨first, middle, hrun, hall⟩ :=
      evaluate_combine_cases hop budget left right view
    · rw [hrun] at hleft
      rw [hall]
      exact hleft
    · rw [hrun] at hleft
      rw [hall]
      exact ihr middle hleft (h.operands he).2
  · intro budget left right ihl ihr view hview he
    obtain ⟨error, -, hall⟩ | ⟨-, ⟨stop, -, hall⟩ | ⟨leftWrites, rightWrites, hl, hr, hall⟩⟩ :=
      evaluate_parallel_cases budget left right view
    · rw [hall]
      exact hview
    · rw [hall]
      exact hview
    · -- each side would have written the same in the view itself
      obtain ⟨first, hleft, -⟩ := evaluate_of_sideWrites hl
      obtain ⟨second, hright, -⟩ := evaluate_of_sideWrites hr
      have hkeptLeft := ihl view hview (h.operands he).1
      have hkeptRight := ihr view hview (h.operands he).2
      rw [hleft] at hkeptLeft
      rw [hright] at hkeptRight
      rw [hall]
      exact hkeptLeft.commit hkeptRight
  · intro budget name body ih view hview he
    have hkept := ih view hview (h.body he)
    obtain ⟨error, -, hall⟩ | ⟨snapshot, hsnapshot, hcases⟩ :=
      evaluate_define_cases budget name body view
    · rw [hall]
      exact hview
    · obtain ⟨stop, after, hrun, hall⟩ | ⟨_, after, hrun, ⟨error, -, hall⟩ | ⟨-, hall⟩⟩ := hcases
      · rw [hrun] at hkept
        rw [hall]
        exact hkept
      · rw [hrun] at hkept
        rw [hall]
        exact hkept
      · rw [hrun] at hkept
        rw [hall]
        exact hkept.bind (h.bindable_snapshot hview he hsnapshot)

/-- **Where no composition can be evaluated, every run is clean**, as nothing is committed. -/
theorem Hereditary.cleanRun (h : Hereditary evaluable bindable)
    (hfree : ∀ left right, ¬ evaluable (.combine .parallel left right)) {budget : ℕ} {e : Expr}
    (hview : view.All bindable) (he : evaluable e) : CleanRun budget e view := by
  intro commit hcommit
  induction hcommit with
  | read hlookup _ ih => exact ih hview (h.bound he (hview _ _ hlookup))
  | left _ _ ih => exact ih hview (h.operands he).1
  | @right budget op left right view middle first commit _ hleft _ ih =>
      have hmiddle := h.all_evaluate budget left view hview (h.operands he).1
      rw [hleft] at hmiddle
      exact ih hmiddle (h.operands he).2
  | leftSide _ _ _ => exact absurd he (hfree _ _)
  | rightSide _ _ _ => exact absurd he (hfree _ _)
  | join _ _ _ => exact absurd he (hfree _ _)
  | body _ _ ih => exact ih hview (h.body he)

/-! ### The addresses of an answer -/

theorem AddressSet.mem_singleton {text other : String} :
    other ∈ ({text} : AddressSet) ↔ other = text := by
  have hinsert := Std.ExtTreeSet.mem_insert (t := (∅ : AddressSet)) (k := text) (a := other)
  rw [Std.compare_eq_iff_eq, eq_comm] at hinsert
  exact hinsert.trans (or_iff_left Std.ExtTreeSet.not_mem_empty)

theorem Operator.mem_of_mem_onSets {op : Operator} {first second : AddressSet} {text : String}
    (h : text ∈ op.onSets first second) : text ∈ first ∨ text ∈ second := by
  cases op with
  | union => exact Std.ExtTreeSet.mem_union_iff.1 h
  | difference => exact Or.inl (Std.ExtTreeSet.mem_diff_iff.1 h).1
  | intersection => exact Or.inl (Std.ExtTreeSet.mem_inter_iff.1 h).1
  | sequence => exact Or.inr h
  | parallel => exact absurd h Std.ExtTreeSet.not_mem_empty

/-- **Each address of an answer** has been evaluated, and so has the property as an expression. -/
theorem Hereditary.evaluable_of_mem (h : Hereditary evaluable bindable) :
    ∀ (budget : ℕ) (e : Expr) (view : View), view.All bindable → evaluable e →
      ∀ addresses, (evaluate budget e view).1 = .ok addresses →
        ∀ text ∈ addresses, evaluable (.address text) := by
  refine evaluation_induction ?_ ?_ ?_ ?_ ?_ ?_ ?_
  · intro budget text view _ he addresses hrun other hother
    obtain rfl : {text} = addresses := Except.ok.inj hrun
    rwa [AddressSet.mem_singleton.1 hother]
  · intro budget view _ _ addresses hrun other hother
    obtain rfl : ∅ = addresses := Except.ok.inj hrun
    exact absurd hother Std.ExtTreeSet.not_mem_empty
  · intro name view _ _ addresses hrun
    cases hrun
  · intro budget name ih view hview hname addresses hrun other hother
    cases he : view.lookup name with
    | none =>
        rw [evaluate_read_of_none he] at hrun
        obtain rfl : ∅ = addresses := Except.ok.inj hrun
        exact absurd hother Std.ExtTreeSet.not_mem_empty
    | some e =>
        rw [evaluate_read_of_some he] at hrun
        exact ih e view hview (h.bound hname (hview name e he)) addresses hrun other hother
  · intro budget op left right hop ihl ihr view hview he addresses hrun text htext
    have hmiddle := h.all_evaluate budget left view hview (h.operands he).1
    obtain ⟨stop, after, -, hall⟩ | ⟨first, middle, hleft, hall⟩ :=
      evaluate_combine_cases hop budget left right view
    · rw [hall] at hrun
      cases hrun
    · rw [hleft] at hmiddle
      rw [hall] at hrun
      cases hright : (evaluate budget right middle).1 with
      | error stop =>
          rw [hright] at hrun
          cases hrun
      | ok second =>
          rw [hright] at hrun
          obtain rfl : op.onSets first second = addresses := Except.ok.inj hrun
          rcases Operator.mem_of_mem_onSets htext with hfirst | hsecond
          · exact ihl view hview (h.operands he).1 first (by rw [hleft]) text hfirst
          · exact ihr middle hmiddle (h.operands he).2 second hright text hsecond
  · intro budget left right _ _ view _ _ addresses hrun text htext
    obtain ⟨_, -, hall⟩ | ⟨-, ⟨_, -, hall⟩ | ⟨_, _, -, -, hall⟩⟩ :=
      evaluate_parallel_cases budget left right view
    · rw [hall] at hrun
      cases hrun
    · rw [hall] at hrun
      cases hrun
    · rw [hall] at hrun
      obtain rfl : ∅ = addresses := Except.ok.inj hrun
      exact absurd htext Std.ExtTreeSet.not_mem_empty
  · intro budget name body ih view hview he addresses hrun
    obtain ⟨_, _, -, hbody, -, -⟩ := of_evaluate_define_eq_ok (Prod.ext hrun rfl)
    exact ih view hview (h.body he) addresses (by rw [hbody])

/-! ### Checks that fail -/

/-- The checks of the definition of a name that report an error in a view: the first one, of the
body, or the second one, of a snapshot that may be bound. -/
inductive FailedCheckIn (evaluable : Expr → Prop) (bindable : Name → Expr → Prop)
    (error : EvalError) (view : View) : Prop
  | first {name : Name} {body : Expr} : view.All bindable → evaluable (.define name body) →
      view.snapshot name body = .error error → FailedCheckIn evaluable bindable error view
  | second {name : Name} {snapshot : Expr} : view.All bindable → bindable name snapshot →
      view.allowBinding name snapshot = .error error → FailedCheckIn evaluable bindable error view

/-- A check reports an error in some view. -/
def FailedCheck (evaluable : Expr → Prop) (bindable : Name → Expr → Prop) (error : EvalError) :
    Prop :=
  ∃ view, FailedCheckIn evaluable bindable error view

/-- The checks of definitions report cycles only. -/
theorem FailedCheck.eq_cycle {error : EvalError} (h : FailedCheck evaluable bindable error) :
    ∃ target via, error = .cycle target via := by
  obtain ⟨view, @⟨name, _, -, -, hsnapshot⟩ | @⟨name, _, -, -, hallow⟩⟩ := h
  · obtain ⟨_, via, _, -, -, -, -, rfl⟩ := snapshot_eq_error_iff.1 hsnapshot
    exact ⟨name, via, rfl⟩
  · obtain ⟨via, -, -, rfl⟩ := exists_of_allowBinding_eq_error hallow
    exact ⟨name, via, rfl⟩

/-- **Where an evaluation without compositions fails**: one of the checks of a definition reports
the error, in the view that the evaluation leaves. -/
theorem Hereditary.of_failed (h : Hereditary evaluable bindable)
    (hfree : ∀ left right, ¬ evaluable (.combine .parallel left right)) {error : EvalError} :
    ∀ (budget : ℕ) (e : Expr) (view : View), view.All bindable → evaluable e →
      (evaluate budget e view).1 = .error (.failed error) →
        FailedCheckIn evaluable bindable error (evaluate budget e view).2 := by
  refine evaluation_induction ?_ ?_ ?_ ?_ ?_ ?_ ?_
  · intro budget text view _ _ herror
    cases herror
  · intro budget view _ _ herror
    cases herror
  · intro name view _ _ herror
    cases herror
  · intro budget name ih view hview hname herror
    cases hlookup : view.lookup name with
    | none =>
        rw [evaluate_read_of_none hlookup] at herror
        cases herror
    | some e =>
        rw [evaluate_read_of_some hlookup] at herror ⊢
        exact ih e view hview (h.bound hname (hview name e hlookup)) herror
  · intro budget op left right hop ihl ihr view hview he herror
    have hmiddle := h.all_evaluate budget left view hview (h.operands he).1
    obtain ⟨stop, after, hrun, hall⟩ | ⟨first, middle, hrun, hall⟩ :=
      evaluate_combine_cases hop budget left right view
    · rw [hall] at herror ⊢
      have hfailed := ihl view hview (h.operands he).1 (by rw [hrun]; exact herror)
      rwa [hrun] at hfailed
    · rw [hrun] at hmiddle
      rw [hall] at herror ⊢
      refine ihr middle hmiddle (h.operands he).2 ?_
      cases hright : (evaluate budget right middle).1 with
      | ok second =>
          rw [hright] at herror
          cases herror
      | error stop =>
          rw [hright] at herror
          exact herror
  · intro budget left right _ _ view _ he _
    exact absurd he (hfree left right)
  · intro budget name body ih view hview he herror
    have hkept := h.all_evaluate budget body view hview (h.body he)
    obtain ⟨_, hsnapshot, hall⟩ | ⟨snapshot, hsnapshot, hcases⟩ :=
      evaluate_define_cases budget name body view
    · rw [hall] at herror ⊢
      cases herror
      exact FailedCheckIn.first hview he hsnapshot
    · obtain ⟨stop, after, hrun, hall⟩ | ⟨_, after, hrun, ⟨_, hallow, hall⟩ | ⟨-, hall⟩⟩ := hcases
      · rw [hall] at herror ⊢
        have hfailed := ih view hview (h.body he) (by rw [hrun]; exact herror)
        rwa [hrun] at hfailed
      · rw [hrun] at hkept
        rw [hall] at herror ⊢
        cases herror
        exact FailedCheckIn.second hkept (h.bindable_snapshot hview he hsnapshot) hallow
      · rw [hall] at herror
        cases herror

end

/-! ### Expressions without compositions -/

/-- An expression without compositions. -/
def Expr.ParallelFree : Expr → Prop
  | .address _ => True
  | .empty => True
  | .read _ => True
  | .combine op left right => op ≠ .parallel ∧ left.ParallelFree ∧ right.ParallelFree
  | .define _ body => body.ParallelFree

theorem Expr.ParallelFree.substitute {target : Name} {e replacement : Expr} (he : e.ParallelFree)
    (hreplacement : replacement.ParallelFree) : (e.substitute target replacement).ParallelFree := by
  induction e with
  | address text => trivial
  | empty => trivial
  | read name =>
      rw [Expr.substitute]
      split
      · exact hreplacement
      · trivial
  | combine op left right ihl ihr => exact ⟨he.1, ihl he.2.1, ihr he.2.2⟩
  | define name body ih => exact ih he

/-- A view without compositions. -/
abbrev View.ParallelFree (view : View) : Prop := view.All fun _ e => e.ParallelFree

/-- The absence of compositions is hereditary. -/
theorem hereditary_parallelFree : Hereditary Expr.ParallelFree fun _ e => e.ParallelFree where
  read _ := trivial
  bound _ h := h
  operands h := h.2
  body h := h
  define _ := trivial
  snapshot h := Expr.ParallelFree.substitute h

section

variable {budget : ℕ} {e : Expr} {view : View}

/-- Where there are no compositions, every run is clean. -/
theorem CleanRun.of_parallelFree (hview : view.ParallelFree) (he : e.ParallelFree) :
    CleanRun budget e view :=
  hereditary_parallelFree.cleanRun (fun _ _ h => h.1 rfl) hview he

end

end Roster
