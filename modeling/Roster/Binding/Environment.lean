/-
**Environments.**

An environment binds names to expressions.  A binding holds the definition of a list and not its
addresses: reading the list evaluates the definition again.  Environments are equal as soon as they
bind the same names to the same expressions.

Main definitions:

* `Environment`;
* `Environment.rendered`: the bindings in ascending order of their names, each with its text.
-/

import Roster.Expr.Render
import Std.Data.ExtTreeMap

set_option relaxedAutoImplicit false
set_option autoImplicit false

namespace Roster

/-- A finite map from names to expressions. -/
abbrev Environment := Std.ExtTreeMap Name Expr

/-- The bindings in ascending order of their names, each with the text of its expression. -/
def Environment.rendered (env : Environment) : List (Name × String) :=
  env.toList.map fun entry => (entry.1, entry.2.render)

end Roster
