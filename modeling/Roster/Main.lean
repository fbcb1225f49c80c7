/-
**The program.**

The outer layer: the files of the operating system as a `FileStore`, the console on the standard
input, and the arguments of the process.

Main definitions:

* `interact`: the console on an input that arrives line by line;
* `main`.
-/

import Roster.CommandLine

set_option relaxedAutoImplicit false
set_option autoImplicit false

namespace Roster

/-- The fault for an error number of the operating system. -/
def FileFault.ofNumber (number : UInt32) (details : String) : FileFault :=
  match number.toNat with
  | 2 => .notFound
  | 17 => .alreadyExists
  | 20 => .notDirectory
  | 21 => .isDirectory
  | 36 => .nameTooLong
  | code => .other details code

/-- The fault for an error of the operating system. -/
def FileFault.ofError : IO.Error → FileFault
  | .noFileOrDirectory _ number details => ofNumber number details
  | .alreadyExists _ number details => ofNumber number details
  | .inappropriateType _ number details => ofNumber number details
  | .invalidArgument _ number details => ofNumber number details
  | .permissionDenied _ number details => ofNumber number details
  | .resourceExhausted _ number details => ofNumber number details
  | .otherError number details => ofNumber number details
  | error => .other (toString error) 0

/-- Runs an operation on files. -/
def attempt {α : Type} (path : String) (action : IO α) : IO (Except FileFault α) := do
  if path.toList.contains '\x00' then
    return .error .nulInPath
  try
    return .ok (← action)
  catch error =>
    return .error (.ofError error)

/-- The files of the operating system. -/
instance : FileStore IO where
  readFile path := attempt path (IO.FS.readBinFile path)
  makeDirectories path :=
    attempt path (if path.isEmpty then pure () else IO.FS.createDirAll path)
  writeFile path contents := attempt path (IO.FS.writeFile path contents)

/-- Prints on the output and on the error output. -/
def Printed.print (printed : Printed) : IO Unit := do
  let output ← IO.getStdout
  let errors ← IO.getStderr
  output.putStr printed.output
  output.flush
  errors.putStr printed.errors
  errors.flush

/-- Reads the bytes of a line, the line feed included; `pending` has been read already.  The second
part of the result lies beyond the line. -/
partial def readLineBytes (input : IO.FS.Stream) (pending : List UInt8) :
    IO (List UInt8 × List UInt8) := do
  if pending.contains 10 then
    let line := pending.takeWhile (· != 10)
    return (line ++ [10], pending.drop (line.length + 1))
  else
    let more ← input.read 4096
    if more.isEmpty then
      return (pending, [])
    else
      readLineBytes input (pending ++ more.toList)

/-- The console on an input that arrives line by line. -/
partial def interact (session : Session) (input : IO.FS.Stream) (pending : List UInt8) :
    IO UInt32 := do
  Printed.print { output := session.settings.prompt }
  let (line, rest) ← readLineBytes input pending
  if line.isEmpty then
    return 0
  match Reading.ofBytes line with
  | .quit => return 0
  | .malformed =>
    Printed.print (.failure FileFault.notUtf8.message)
    return 1
  | .run text =>
    let (result, after) ← session.runLine text
    (Session.reply result).print
    interact after input rest

end Roster

open Roster in
/-- Runs the program on the arguments of the process. -/
def main (arguments : List String) : IO UInt32 := do
  match ← startProgram (← IO.getEnv Settings.directoryVariable) arguments with
  | .report report =>
    report.printed.print
    return UInt32.ofNat report.status
  | .console session => interact session (← IO.getStdin) []
