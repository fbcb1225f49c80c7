/-
**Evaluations that fail.**

Main definitions:

* `EvalError`, with its message;
* `Stop`: why an evaluation gives no addresses, which is an error or a budget that has run out.
-/

import Roster.Name

set_option relaxedAutoImplicit false
set_option autoImplicit false

namespace Roster

/-- Why an expression cannot be evaluated. -/
inductive EvalError where
  /-- A definition of `target` reads `via`, from which `target` is reached again. -/
  | cycle (target via : Name)
  /-- Each of these names is defined by one side of a parallel composition and used by the
  other. -/
  | interference (names : List Name)
deriving DecidableEq

/-- A name between backquotes. -/
def Name.backquoted (name : Name) : String :=
  "`" ++ name.text ++ "`"

/-- The message of an error. -/
def EvalError.message : EvalError → String
  | cycle target via =>
    "cycle detected: " ++ via.backquoted ++ " depends on " ++ target.backquoted ++ ", so " ++
      target.backquoted ++ " cannot be defined in terms of it"
  | interference names =>
    "invalid parallel composition: " ++
      String.intercalate ", " (names.map Name.backquoted) ++
      " written by one branch and used by the other"

/-- Why an evaluation gives no addresses. -/
inductive Stop where
  | failed (error : EvalError)
  /-- Lists were read within one another more deeply than the budget allows. -/
  | exhausted
deriving DecidableEq

end Roster
