/-
**Evaluation.**

An evaluation turns an expression into a set of addresses and changes the bindings of a view on the
way.  Operands are evaluated from left to right, and what the left one binds is seen by the right
one.  An evaluation that fails keeps what it has bound so far.

* A list is read by evaluating the expression bound to its name.  The first read of an unbound name
  binds it to the empty list.
* A definition has the addresses of its body, which is evaluated as it is written; the name is
  bound to the snapshot of the body.
* The sides of a parallel composition are evaluated apart, each in an overlay of its own over the
  same view.  If both end well, the writes of the left side and then those of the right side are
  committed.  The composition has no addresses.

Lists that read lists may nest without end, so an evaluation has a budget: the number of lists that
may be read within one another.

Main definitions:

* `EvalM`: computations on a view;
* `evalWith`: evaluation, given what to do at the read of a list;
* `evalRead`: the read of a list within a budget;
* `evaluate`: the outcome of an evaluation within a budget, and the view that it leaves.
-/

import Roster.Evaluation.Independence
import Roster.Evaluation.Snapshot

set_option relaxedAutoImplicit false
set_option autoImplicit false

namespace Roster

/-! ### Computations on a view -/

/-- Computations that read and change a view, and may stop early.  What they have changed stays
changed when they stop. -/
abbrev EvalM := ExceptT Stop (StateM View)

namespace EvalM

/-- Looks at the current view, which may refuse. -/
def inspect {α : Type} (test : View → Except EvalError α) : EvalM α := do
  match test (← get) with
  | .ok a => return a
  | .error error => throw (.failed error)

/-- Binds a name in the current view. -/
def bindName (name : Name) (e : Expr) : EvalM Unit :=
  modify (View.bind name e)

/-- What a computation writes in a new overlay over `view`. -/
def writesOver {α : Type} (view : View) (side : EvalM α) : Except Stop Environment :=
  match side.run.run (.overlay ∅ view) with
  | (.ok _, after) => .ok after.top
  | (.error stop, _) => .error stop

/-- The writes of both sides.  Both sides come to their end before either outcome is looked at;
then the left one counts first. -/
def join : Except Stop Environment → Except Stop Environment →
    Except Stop (Environment × Environment)
  | .error .exhausted, _ => .error .exhausted
  | _, .error .exhausted => .error .exhausted
  | .error (.failed error), _ => .error (.failed error)
  | .ok _, .error (.failed error) => .error (.failed error)
  | .ok left, .ok right => .ok (left, right)

/-- Runs two computations apart and commits what they have written, left then right. -/
def parallel {α : Type} (left right : EvalM α) : EvalM Unit := do
  let view ← get
  match join (writesOver view left) (writesOver view right) with
  | .ok (leftWrites, rightWrites) =>
    set ((view.bindAll leftWrites).bindAll rightWrites)
  | .error stop => throw stop

end EvalM

/-! ### Evaluation -/

/-- Evaluates an expression; `onRead` says what happens at the read of a list. -/
def evalWith (onRead : Name → EvalM AddressSet) : Expr → EvalM AddressSet
  | .address text => return {text}
  | .empty => return ∅
  | .read name => onRead name
  | .combine .union left right => do
    let first ← evalWith onRead left
    let second ← evalWith onRead right
    return first ∪ second
  | .combine .difference left right => do
    let first ← evalWith onRead left
    let second ← evalWith onRead right
    return first \ second
  | .combine .intersection left right => do
    let first ← evalWith onRead left
    let second ← evalWith onRead right
    return first ∩ second
  | .combine .sequence left right => do
    let _ ← evalWith onRead left
    evalWith onRead right
  | .combine .parallel left right => do
    EvalM.inspect fun view => view.allowParallel left right
    EvalM.parallel (evalWith onRead left) (evalWith onRead right)
    return ∅
  | .define name body => do
    let snapshot ← EvalM.inspect fun view => view.snapshot name body
    let addresses ← evalWith onRead body
    EvalM.inspect fun view => view.allowBinding name snapshot
    EvalM.bindName name snapshot
    return addresses

/-- Reads a list; at most `budget` lists are read within one another. -/
def evalRead : Nat → Name → EvalM AddressSet
  | 0, _ => throw .exhausted
  | budget + 1, name => do
    match (← get).lookup name with
    | some e => evalWith (evalRead budget) e
    | none =>
      EvalM.bindName name .empty
      return ∅

/-- The outcome of an evaluation in which at most `budget` lists are read within one another, and
the view that it leaves. -/
def evaluate (budget : Nat) (e : Expr) (view : View) : Except Stop AddressSet × View :=
  (evalWith (evalRead budget) e).run.run view

end Roster
