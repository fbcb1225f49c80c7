/-
**Paths.**

A path is a text whose components stand between slashes.  Joining keeps the text of both parts, so
that a message shows a path as it was given.

Main definitions:

* `joinPath`: the path of a file in a directory;
* `Path`, `Path.ofText`: the parts of a path that matter for finding a file.
-/

set_option relaxedAutoImplicit false
set_option autoImplicit false

namespace Roster

/-- The path of `file` in `directory`.  A file that is given by an absolute path stays where it is,
and an empty directory leaves the path of the file as it is. -/
def joinPath (directory file : String) : String :=
  if file.toList.head? = some '/' then file
  else if directory.toList.isEmpty then file
  else if directory.toList.getLast? = some '/' then directory ++ file
  else directory ++ "/" ++ file

/-- A path as its nonempty components. -/
structure Path where
  /-- Whether the path starts at the root. -/
  absolute : Bool
  components : List String
  /-- Whether a slash follows the last component. -/
  trailingSlash : Bool
deriving DecidableEq

namespace Path

/-- The components of a path, and whether a slash begins and ends it. -/
def ofText (text : String) : Path where
  absolute := text.toList.head? = some '/'
  components := (text.splitOn "/").filter fun component => !component.isEmpty
  trailingSlash := text.toList.getLast? = some '/'

/-- The components without those that stay in place.  One at the beginning of a relative path
counts, because something has to be left of such a path. -/
def plainComponents (path : Path) : List String :=
  match path.absolute, path.components with
  | false, "." :: rest => "." :: rest.filter fun component => component != "."
  | _, components => components.filter fun component => component != "."

end Path

end Roster
