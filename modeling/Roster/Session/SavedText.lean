/-
**Environments as texts.**

An environment is saved as one line for each binding, in ascending order of the names, and each
line is the definition that brings the binding back.

Main definitions:

* `Environment.savedText`: the text of an environment;
* `programLines`: the lines of a text that hold more than white space, with their numbers.
-/

import Roster.Binding.Environment
import Roster.Text.Split

set_option relaxedAutoImplicit false
set_option autoImplicit false

namespace Roster

/-- The line that a binding is saved as. -/
def savedLine (name : Name) (e : Expr) : String :=
  name.text ++ " = " ++ e.render ++ "\n"

/-- The text that an environment is saved as. -/
def Environment.savedText (env : Environment) : String :=
  String.join (env.toList.map fun entry => savedLine entry.1 entry.2)

/-- The lines of a text that hold more than white space, each with its number; lines count from
one. -/
def programLines (text : String) : List (Nat × String) :=
  ((textLines text.toList).zipIdx 1).filterMap fun (line, number) =>
    if (trim line).isEmpty then none else some (number, String.ofList line)

end Roster
