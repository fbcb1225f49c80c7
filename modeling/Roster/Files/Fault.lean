/-
**Operations on files that fail.**

Main definition:

* `FileFault`, with its message.
-/

set_option relaxedAutoImplicit false
set_option autoImplicit false

namespace Roster

/-- Why an operation on a file fails. -/
inductive FileFault where
  | notFound
  | alreadyExists
  | notDirectory
  | isDirectory
  | nameTooLong
  /-- The contents of the file are no text. -/
  | notUtf8
  /-- A path holds the character that ends a path for the operating system. -/
  | nulInPath
  /-- Any other error of the operating system, with its number. -/
  | other (details : String) (number : Nat)
deriving DecidableEq

namespace FileFault

/-- The message for an error of the operating system. -/
def numbered (details : String) (number : Nat) : String :=
  details ++ " (os error " ++ toString number ++ ")"

/-- The message of a fault. -/
def message : FileFault → String
  | notFound => numbered "No such file or directory" 2
  | alreadyExists => numbered "File exists" 17
  | notDirectory => numbered "Not a directory" 20
  | isDirectory => numbered "Is a directory" 21
  | nameTooLong => numbered "File name too long" 36
  | notUtf8 => "stream did not contain valid UTF-8"
  | nulInPath => "file name contained an unexpected NUL byte"
  | other details number => numbered details number

end FileFault

end Roster
