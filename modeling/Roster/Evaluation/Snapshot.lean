/-
**Snapshots: the expression that a definition binds.**

A definition of a name may read that name, and then means the expression bound to it so far.  What
is bound is therefore the body with every read of the name replaced by that expression, its
snapshot.  A read of another list whose binding reaches the name would make the name depend on
itself; such a definition is refused.

The snapshot is taken before the body is evaluated.  Definitions inside the body may change what
the reads of the snapshot reach, so it is looked at again before it is bound.

Main definitions:

* `View.allowRead`: whether a list may be read by a definition of `target`;
* `View.snapshot`: the snapshot of a body;
* `View.allowBinding`: whether a snapshot may still be bound.
-/

import Roster.Binding.Dependencies
import Roster.Evaluation.Error

set_option relaxedAutoImplicit false
set_option autoImplicit false

namespace Roster.View

/-- Refuses the read of a list whose binding reaches `target`. -/
def allowRead (view : View) (target via : Name) : Except EvalError Unit :=
  match view.lookup via with
  | none => .ok ()
  | some e =>
    if target ∈ view.reached e then
      .error (.cycle target via)
    else
      .ok ()

/-- The body of a definition of `target` with every read of `target` replaced by the expression
bound to it, which is the empty list if there is none. -/
def snapshot (view : View) (target : Name) : Expr → Except EvalError Expr
  | .address text => .ok (.address text)
  | .empty => .ok .empty
  | .read name =>
    if name = target then
      .ok ((view.lookup name).getD .empty)
    else do
      view.allowRead target name
      return .read name
  | .combine op left right => do
    let left ← view.snapshot target left
    let right ← view.snapshot target right
    return .combine op left right
  | .define name body => do
    let body ← view.snapshot target body
    return .define name body

/-- Refuses a snapshot that reads `target` or a list whose binding reaches `target`. -/
def allowBinding (view : View) (target : Name) : Expr → Except EvalError Unit
  | .address _ => .ok ()
  | .empty => .ok ()
  | .read name =>
    if name = target then
      .error (.cycle target name)
    else
      view.allowRead target name
  | .combine _ left right => do
    view.allowBinding target left
    view.allowBinding target right
  | .define _ body => view.allowBinding target body

end Roster.View
