/-
**Where files are kept.**

Sessions read and write files through three operations, so that they can run on the files of the
operating system as well as on a `Directory` that is a value.

Main definition:

* `FileStore`.
-/

import Roster.Files.Fault

set_option relaxedAutoImplicit false
set_option autoImplicit false

namespace Roster

/-- Computations that can read and write files. -/
class FileStore (m : Type → Type) where
  /-- The contents of a file. -/
  readFile : String → m (Except FileFault ByteArray)
  /-- Makes a directory, with all directories around it; one that exists already is kept. -/
  makeDirectories : String → m (Except FileFault Unit)
  /-- Makes a file with the given contents, or replaces its contents. -/
  writeFile : String → String → m (Except FileFault Unit)

end Roster
