/-
**The command line.**

Main definitions:

* `Request`, `Request.ofArguments`: what the arguments ask for;
* `Report`: what a run of the program leaves behind;
* `Request.report`: the run of a request that does not need the console;
* `runProgram`: a whole run on an input that is known.
-/

import Roster.Session.Console

set_option relaxedAutoImplicit false
set_option autoImplicit false

namespace Roster

/-- What the arguments of the program ask for. -/
inductive Request where
  | console
  /-- One expression, after loading a file if one is given. -/
  | evaluate (source : String) (file : Option String)
  /-- An evaluation without an expression. -/
  | missingExpression
  | help
  | version
  | unknown (command : String)
deriving DecidableEq

namespace Request

/-- What the arguments after `eval` ask for: the last file that is to be loaded counts, and the
first argument that is no file is the expression. -/
def ofEvalArguments : List String → Option String → Option String → Request
  | [], some source, file => evaluate source file
  | [], none, _ => missingExpression
  | argument :: rest, source, file =>
    match after? "--load=" argument with
    | some loaded => ofEvalArguments rest source (some loaded)
    | none => ofEvalArguments rest (source.or (some argument)) file

/-- What the arguments of the program ask for, flags left aside. -/
def ofArguments : List String → Request
  | [] => console
  | command :: rest =>
    match command with
    | "repl" => console
    | "eval" => ofEvalArguments rest none none
    | "help" | "--help" | "-h" => help
    | "version" | "--version" | "-V" => version
    | _ => unknown command

end Request

/-- What a run of the program leaves behind. -/
structure Report where
  status : Nat
  printed : Printed

namespace Report

/-- A run without fault. -/
def success (printed : Printed) : Report := ⟨0, printed⟩

/-- A run that ends in a fault. -/
def failure (printed : Printed) : Report := ⟨1, printed⟩

end Report

/-- How the program is used. -/
def usage : String :=
  String.join ([
    "Norn mailing-list console",
    "",
    "Usage: norn [command] [options]",
    "",
    "Commands:",
    "  repl                 Start the console (default)",
    "  eval <expression>    Evaluate one expression and print the addresses",
    "  help                 Show this help message",
    "  version              Show version information",
    "",
    "Options:",
    "  --files-dir=<path>   Directory for /save and /load (default: ./files,",
    "                       or $NORN_FILES_DIR)",
    "  --load=<file>        (eval) Load a saved file before evaluating",
    "",
    "Console commands:",
    "  /save <file>         Write every list definition to <file>",
    "  /load <file>         Evaluate each line of <file>",
    "  /list                Show the defined list names",
    "  (empty line)         Quit",
    "",
    "Examples:",
    "  norn eval 'a@mit.edu, b@mit.edu * b@mit.edu'",
    "  norn eval 'staff ! eve@mit.edu' --load=lists",
    "  RUST_LOG=norn_eval=debug norn"].map (· ++ "\n"))

/-- The line that shows the version. -/
def versionLine : String := "Norn 0.1.0"

/-- What is left to do for a request: the console, or the report of a run that needs no input. -/
inductive Work where
  | console (session : Session)
  | report (report : Report)

namespace Session

variable {m : Type → Type} [Monad m] [FileStore m]

/-- Evaluates one source and prints its addresses. -/
def evalReport (session : Session) (source : String) : Report :=
  match (session.evalSource source).1 with
  | .ok addresses => .success (.line (AddressSet.listed addresses))
  | .error failure => .failure (.failure failure.message)

/-- Evaluates one source after loading a file, if one is given. -/
def evaluateOnce (session : Session) (source : String) : Option String → m Report
  | none => return session.evalReport source
  | some file => do
    match ← session.load file with
    | (.ok _, after) => return after.evalReport source
    | (.error failure, _) => return .failure (.failure failure.message)

end Session

variable {m : Type → Type} [Monad m] [FileStore m]

/-- Does what a request asks for, up to the console. -/
def Request.work (settings : Settings) : Request → m Work
  | .console => return .console { settings }
  | .evaluate source file =>
    return .report (← Session.evaluateOnce { settings } source file)
  | .missingExpression =>
    return .report (.failure {
      errors := "error: missing expression\n" ++
        "Usage: norn eval <expression> [--load=<file>]\n" })
  | .help => return .report (.success { output := usage })
  | .version => return .report (.success (.line versionLine))
  | .unknown command =>
    return .report (.failure
      { output := usage, errors := "Unknown command: " ++ command ++ "\n\n" })

/-- What the arguments of the program ask for, up to the console; `value` is that of
`Settings.directoryVariable`. -/
def startProgram (value : Option String) (arguments : List String) : m Work :=
  let (settings, others) := (Settings.withVariable {} value).withArguments arguments
  (Request.ofArguments others).work settings

/-- The report of a console that has come to its end. -/
def Transcript.report (transcript : Transcript) : Report :=
  match transcript.fault with
  | none => .success transcript.printed
  | some fault => .failure (transcript.printed.append (.failure fault.message))

/-- A whole run of the program on an input that is known. -/
def runProgram (value : Option String) (arguments : List String) (input : List UInt8) :
    m Report := do
  match ← startProgram value arguments with
  | .report report => return report
  | .console session =>
    let (transcript, _) ← session.converse (inputLines input)
    return transcript.report

end Roster
