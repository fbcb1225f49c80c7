/-
**Sessions.**

A session keeps one environment for as long as it lasts and runs lines against it.  A line that
begins with a slash is a command; any other line is an expression.  A line that fails leaves what
it has bound so far.

Loading a file evaluates its lines as expressions, one after the other, and stops at the first one
that fails.

Main definitions:

* `Session`, `Session.evalSource`: a session, and the evaluation of a source in it;
* `Session.evalLines`, `Session.loadText`: the evaluation of numbered lines and of a text;
* `Session.save`, `Session.load`: saving to a file and loading from one;
* `Command`, `Command.ofLine`: what a line asks for;
* `Session.runLine`: running a line.
-/

import Roster.Evaluation.Basic
import Roster.Files.Path
import Roster.Files.Store
import Roster.Parse.Program
import Roster.Session.Response
import Roster.Session.SavedText
import Roster.Session.Settings

set_option relaxedAutoImplicit false
set_option autoImplicit false

namespace Roster

/-- A session: its settings and its environment. -/
structure Session where
  settings : Settings := {}
  environment : Environment := ∅

namespace Session

/-! ### Evaluating sources -/

/-- Evaluates an expression. -/
def evalExpr (session : Session) (e : Expr) : Except Failure AddressSet × Session :=
  match evaluate session.settings.readBudget e (.base session.environment) with
  | (.ok addresses, view) => (.ok addresses, { session with environment := view.flatten })
  | (.error stop, view) => (.error (.ofStop stop), { session with environment := view.flatten })

/-- Parses and evaluates a source. -/
def evalSource (session : Session) (source : String) : Except Failure AddressSet × Session :=
  match parse source with
  | .ok e => session.evalExpr e
  | .error error => (.error (.parsing error), session)

/-- Evaluates numbered lines one after the other up to the first that fails; a failure comes with
the number of its line. -/
def evalLines : Session → List (Nat × String) → Except (Nat × Failure) Unit × Session
  | session, [] => (.ok (), session)
  | session, (number, line) :: rest =>
    match session.evalSource line with
    | (.ok _, after) => after.evalLines rest
    | (.error failure, after) => (.error (number, failure), after)

/-- Evaluates the lines of a text and counts them. -/
def loadText (session : Session) (text : String) : Except (Nat × Failure) Nat × Session :=
  match session.evalLines (programLines text) with
  | (.ok (), after) => (.ok (programLines text).length, after)
  | (.error failure, after) => (.error failure, after)

/-! ### Files -/

/-- The path of a file of the session. -/
def path (session : Session) (file : String) : String :=
  joinPath session.settings.directory file

/-- Evaluates contents that were read from the file at `path`. -/
def loadContents (session : Session) (path : String) (contents : ByteArray) :
    Except Failure Response × Session :=
  match String.fromUTF8? contents with
  | none => (.error (.file path .notUtf8), session)
  | some text =>
    match session.loadText text with
    | (.ok lines, after) => (.ok (.loaded path lines), after)
    | (.error (line, failure), after) => (.error (.inFile path line failure), after)

section

variable {m : Type → Type} [Monad m] [FileStore m]

/-- Saves the environment to a file.  The directory of the session is made if it does not
exist. -/
def save (session : Session) (file : String) : m (Except Failure Response) := do
  match ← FileStore.makeDirectories session.settings.directory with
  | .error fault => return .error (.file session.settings.directory fault)
  | .ok () =>
    match ← FileStore.writeFile (session.path file) session.environment.savedText with
    | .error fault => return .error (.file (session.path file) fault)
    | .ok () => return .ok (.saved (session.path file) session.environment.size)

/-- Loads a file. -/
def load (session : Session) (file : String) : m (Except Failure Response × Session) := do
  match ← FileStore.readFile (session.path file) with
  | .error fault => return (.error (.file (session.path file) fault), session)
  | .ok contents => return session.loadContents (session.path file) contents

end

end Session

/-! ### Lines -/

/-- What a line asks for. -/
inductive Command where
  | evaluate (source : String)
  | save (file : String)
  | load (file : String)
  /-- The names that are bound. -/
  | list
  /-- A command that lacks the name of a file. -/
  | incomplete (command : String)
  | unknown (command : String)
deriving DecidableEq

namespace Command

/-- The command that consists of the words after the slash. -/
def ofWords : List (List Char) → Command
  | [] => unknown "/"
  | word :: arguments =>
    let command := String.ofList word
    match command, arguments with
    | "save", file :: _ => save (String.ofList file)
    | "save", [] => incomplete "/save"
    | "load", file :: _ => load (String.ofList file)
    | "load", [] => incomplete "/load"
    | "list", _ => list
    | _, _ => unknown ("/" ++ command)

/-- What a line asks for; white space around it does not count. -/
def ofLine (line : String) : Command :=
  match trim line.toList with
  | '/' :: text => ofWords (words text)
  | source => evaluate (String.ofList source)

end Command

namespace Session

/-- The names that are bound, in ascending order. -/
def boundNames (session : Session) : List Name :=
  session.environment.keys

section

variable {m : Type → Type} [Monad m] [FileStore m]

/-- Does what a line asks for. -/
def perform (session : Session) : Command → m (Except Failure Response × Session)
  | .evaluate source =>
    let (result, after) := session.evalSource source
    return (result.map .addresses, after)
  | .save file => return (← session.save file, session)
  | .load file => session.load file
  | .list => return (.ok (.names session.boundNames), session)
  | .incomplete command => return (.error (.missingFile command), session)
  | .unknown command => return (.error (.unknownCommand command), session)

/-- Runs a line. -/
def runLine (session : Session) (line : String) : m (Except Failure Response × Session) :=
  session.perform (.ofLine line)

end

end Session

end Roster
