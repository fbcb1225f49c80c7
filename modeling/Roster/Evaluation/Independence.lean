/-
**Independence of the two sides of a parallel composition.**

Neither side may define a name that the other side defines or reaches.  Only the definitions
written in a side itself count as such; a definition that is met through the read of a list does
not.

Main definitions:

* `View.interference`: the names that speak against a composition;
* `View.allowParallel`: whether two sides may be composed.
-/

import Roster.Binding.Dependencies
import Roster.Evaluation.Error

set_option relaxedAutoImplicit false
set_option autoImplicit false

namespace Roster.View

/-- The names that one side defines and the other side defines or reaches. -/
def interference (view : View) (left right : Expr) : NameSet :=
  (view.reached left ∩ right.definedNames ∅) ∪ (view.reached right ∩ left.definedNames ∅)

/-- Refuses a composition of sides that depend on each other. -/
def allowParallel (view : View) (left right : Expr) : Except EvalError Unit :=
  match (view.interference left right).toList with
  | [] => .ok ()
  | name :: names => .error (.interference (name :: names))

end Roster.View
