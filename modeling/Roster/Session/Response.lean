/-
**What comes out of a line of a session.**

Main definitions:

* `Failure`, with its message;
* `Response`, with the text that is printed for it;
* `AddressSet.listed`: a set of addresses as it is printed.
-/

import Roster.Evaluation.Error
import Roster.Files.Fault
import Roster.Parse.Error

set_option relaxedAutoImplicit false
set_option autoImplicit false

namespace Roster

/-- Why a line fails. -/
inductive Failure where
  /-- The line is no program. -/
  | parsing (error : ParseError)
  /-- The program cannot be evaluated. -/
  | evaluation (error : EvalError)
  /-- Lists were read within one another more deeply than the settings allow. -/
  | exhausted
  /-- A file cannot be used. -/
  | file (path : String) (fault : FileFault)
  /-- There is no such command; it is given with its slash. -/
  | unknownCommand (command : String)
  /-- A command lacks the name of a file. -/
  | missingFile (command : String)
  /-- A line of a file fails; lines count from one. -/
  | inFile (path : String) (line : Nat) (failure : Failure)
deriving DecidableEq

namespace Failure

/-- The failure of a line whose evaluation stops. -/
def ofStop : Stop → Failure
  | .failed error => evaluation error
  | .exhausted => exhausted

/-- The message of a failure. -/
def message : Failure → String
  | parsing error => "parse error: " ++ error.message
  | evaluation error => error.message
  | exhausted => "lists are nested too deeply"
  | file path fault => path ++ ": " ++ fault.message
  | unknownCommand command =>
    "unknown command `" ++ command ++ "` (expected /save, /load or /list)"
  | missingFile command => "`" ++ command ++ "` needs a file name"
  | inFile path line failure => path ++ ":" ++ toString line ++ ": " ++ failure.message

end Failure

/-- What a line that does not fail results in. -/
inductive Response where
  /-- An expression was evaluated. -/
  | addresses (addresses : AddressSet)
  /-- So many bindings were written to a file. -/
  | saved (path : String) (bindings : Nat)
  /-- So many lines of a file were evaluated. -/
  | loaded (path : String) (lines : Nat)
  /-- The names that are bound, in ascending order. -/
  | names (names : List Name)

/-- Texts in a row, separated by commas. -/
def commaSeparated (texts : List String) : String :=
  String.intercalate ", " texts

/-- The addresses of a set in ascending order, separated by commas. -/
def AddressSet.listed (addresses : AddressSet) : String :=
  commaSeparated addresses.toList

/-- The text that is printed for a response.  An evaluation prints its addresses even if there are
none; saving and loading print nothing. -/
def Response.printed? : Response → Option String
  | .addresses set => some (AddressSet.listed set)
  | .saved _ _ => none
  | .loaded _ _ => none
  | .names bound => some (commaSeparated (bound.map Name.text))

end Roster
