/-
**What a session can be set up with.**

Main definitions:

* `Settings`, whose default values are those of a session that nobody has set up;
* `Settings.withFlag?`, `Settings.withArguments`: settings from the command line;
* `Settings.withVariable`: settings from the variables of the process.
-/

import Roster.Text.Split

set_option relaxedAutoImplicit false
set_option autoImplicit false

namespace Roster

/-- The settings of a session. -/
structure Settings where
  /-- The directory of the files that are saved and loaded. -/
  directory : String := "./files"
  /-- What the console writes before it reads a line. -/
  prompt : String := "> "
  /-- How many lists may be read within one another. -/
  readBudget : Nat := 1000000
deriving DecidableEq, Inhabited

namespace Settings

/-- What the flag for the directory begins with. -/
def directoryFlag : String := "--files-dir="

/-- The settings after a flag, or nothing if the argument is no flag. -/
def withFlag? (settings : Settings) (argument : String) : Option Settings :=
  (after? directoryFlag argument).map fun directory => { settings with directory }

/-- The settings after all flags among the arguments, and the arguments that are no flags. -/
def withArguments (settings : Settings) : List String → Settings × List String
  | [] => (settings, [])
  | argument :: rest =>
    match settings.withFlag? argument with
    | some changed => changed.withArguments rest
    | none =>
      let (final, others) := settings.withArguments rest
      (final, argument :: others)

/-- The name of the variable that holds a directory. -/
def directoryVariable : String := "NORN_FILES_DIR"

/-- The settings with the value of the variable for the directory, which counts unless it is
empty. -/
def withVariable (settings : Settings) : Option String → Settings
  | none => settings
  | some directory => if directory.isEmpty then settings else { settings with directory }

end Settings

end Roster
