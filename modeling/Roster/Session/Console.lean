/-
**The console.**

The console writes a prompt, reads a line, runs it and prints what comes out, until a line is empty
or the input ends.  A line that fails is reported and does not end the console; a line that is no
text does.

Main definitions:

* `Printed`: what is printed, on the output and on the error output;
* `Reading.ofBytes`: what a line of input asks of the console;
* `Session.reply`: what is printed for the result of a line;
* `Session.converse`: the console on lines that are all known.
-/

import Roster.Session.Basic

set_option relaxedAutoImplicit false
set_option autoImplicit false

namespace Roster

/-- What is printed on the output and on the error output. -/
structure Printed where
  output : String := ""
  errors : String := ""
deriving DecidableEq, Inhabited

namespace Printed

/-- What is printed first and what is printed then. -/
def append (first second : Printed) : Printed :=
  ⟨first.output ++ second.output, first.errors ++ second.errors⟩

/-- The line that reports an error. -/
def failure (message : String) : Printed where
  errors := "error: " ++ message ++ "\n"

/-- A line on the output. -/
def line (text : String) : Printed where
  output := text ++ "\n"

end Printed

/-- What a line of input asks of the console. -/
inductive Reading where
  /-- An empty line ends the console. -/
  | quit
  /-- The bytes are no text. -/
  | malformed
  | run (line : String)
deriving DecidableEq

/-- What the bytes of a line ask of the console.  Line feeds and carriage returns at its end do not
count. -/
def Reading.ofBytes (bytes : List UInt8) : Reading :=
  match String.fromUTF8? ⟨bytes.toArray⟩ with
  | none => malformed
  | some text =>
    let line := (text.toList.reverse.dropWhile fun c => c == '\n' || c == '\r').reverse
    if line.isEmpty then quit else run (String.ofList line)

/-- The lines of an input, without the line feeds that end them. -/
def inputLines (input : List UInt8) : List (List UInt8) :=
  let parts := terminated (· == 10) input
  parts.1 ++ if parts.2.isEmpty then [] else [parts.2]

/-- What the console has printed, and the fault that has ended it, if it was a fault. -/
structure Transcript where
  printed : Printed
  fault : Option FileFault

namespace Session

/-- What is printed for the result of a line. -/
def reply : Except Failure Response → Printed
  | .error failure => .failure failure.message
  | .ok response =>
    match response.printed? with
    | some text => .line text
    | none => {}

variable {m : Type → Type} [Monad m] [FileStore m]

/-- Runs the console on lines of input. -/
def converse : Session → List (List UInt8) → m (Transcript × Session)
  | session, [] => return (⟨{ output := session.settings.prompt }, none⟩, session)
  | session, line :: rest => do
    let prompt : Printed := { output := session.settings.prompt }
    match Reading.ofBytes line with
    | .quit => return (⟨prompt, none⟩, session)
    | .malformed => return (⟨prompt, some .notUtf8⟩, session)
    | .run text =>
      let (result, after) ← session.runLine text
      let (transcript, final) ← after.converse rest
      return (⟨(prompt.append (reply result)).append transcript.printed, transcript.fault⟩, final)

end Session

end Roster
