/-
**The canonical text of an expression.**

Every operator and every definition is written in parentheses of its own, so that a rendering does
not depend on how tightly operators hold their operands.  The empty list is written as nothing.

Main definition:

* `Expr.render`.
-/

import Roster.Expr.Basic

set_option relaxedAutoImplicit false
set_option autoImplicit false

namespace Roster

/-- The canonical text of an expression. -/
def Expr.render : Expr → String
  | .address text => text
  | .empty => ""
  | .read name => name.text
  | .combine op left right => "(" ++ left.render ++ op.spelling ++ right.render ++ ")"
  | .define name body => "(" ++ name.text ++ " = " ++ body.render ++ ")"

end Roster
