/-
**Directories as values.**

A directory tree is a list of entries, each under the names that lead to it from the root.  One
directory is the working directory, from which relative paths start.  Looking a path up goes from
directory to directory, where `.` stays in place and `..` leads back; the first step that fails
decides the fault.

Main definitions:

* `Entry`, `DirectoryTree`;
* `DirectoryTree.walk`, `DirectoryTree.find`: following the components of a path;
* `DirectoryTree.readFile`, `DirectoryTree.writeFile`, `DirectoryTree.makeDirectories`: the
  operations of a `FileStore`;
* `DirectoryTree.listing`: everything below the working directory.
-/

import Roster.Files.Path
import Roster.Files.Store

set_option relaxedAutoImplicit false
set_option autoImplicit false

namespace Roster

/-- What a directory holds under a name. -/
inductive Entry where
  | file (contents : ByteArray)
  | directory

/-- A tree of directories.  The root and the working directory always exist. -/
structure DirectoryTree where
  entries : List (List String × Entry)
  working : List String

namespace DirectoryTree

/-- The longest name that a directory can hold, in bytes. -/
def nameLimit : Nat := 255

/-- The longest path that can be looked up, in bytes. -/
def pathLimit : Nat := 4095

/-- A tree that holds nothing but the given directory, which is the working directory. -/
def empty (working : List String) : DirectoryTree where
  entries := ((working.length + 1).fold (fun n _ acc => (working.take n, Entry.directory) :: acc) [])
  working := working

/-- What the names lead to from the root. -/
def entry? (tree : DirectoryTree) (names : List String) : Option Entry :=
  tree.entries.lookup names

/-- Puts an entry where the names lead. -/
def insert (tree : DirectoryTree) (names : List String) (entry : Entry) : DirectoryTree :=
  { tree with entries := (names, entry) :: tree.entries.filter fun other => other.1 != names }

/-! ### Looking up paths -/

/-- What a directory holds under a name. -/
def lookupIn (tree : DirectoryTree) (directory : List String) (name : String) :
    Except FileFault (Option Entry) :=
  if nameLimit < name.utf8ByteSize then .error .nameTooLong
  else .ok (tree.entry? (directory ++ [name]))

/-- The directory that one component leads to from a directory. -/
def enter (tree : DirectoryTree) (directory : List String) (component : String) :
    Except FileFault (List String) :=
  if component = "." then .ok directory
  else if component = ".." then .ok directory.dropLast
  else
    match tree.lookupIn directory component with
    | .ok (some .directory) => .ok (directory ++ [component])
    | .ok (some (.file _)) => .error .notDirectory
    | .ok none => .error .notFound
    | .error fault => .error fault

/-- The directory that components lead to. -/
def walk (tree : DirectoryTree) (directory : List String) :
    List String → Except FileFault (List String)
  | [] => .ok directory
  | component :: rest =>
    match tree.enter directory component with
    | .ok next => tree.walk next rest
    | .error fault => .error fault

/-- The place that a path denotes: a directory that exists, or a name in a directory that
exists. -/
inductive Place where
  | directory (names : List String)
  | name (directory : List String) (name : String)

/-- The place that a path denotes; only the components before the last are followed if the last one
is a name. -/
def locate (tree : DirectoryTree) (path : Path) : Except FileFault Place := do
  let start := if path.absolute then [] else tree.working
  match path.components.getLast? with
  | none => if path.absolute then return .directory start else throw .notFound
  | some last =>
    let directory ← tree.walk start path.components.dropLast
    if last = "." then return .directory directory
    else if last = ".." then return .directory directory.dropLast
    else return .name directory last

/-- Refuses the texts that are no path. -/
def checkPath (text : String) : Except FileFault Path :=
  if text.toList.contains '\x00' then .error .nulInPath
  else if pathLimit < text.utf8ByteSize then .error .nameTooLong
  else .ok (Path.ofText text)

/-- What a path leads to. -/
def find (tree : DirectoryTree) (text : String) : Except FileFault Entry := do
  let path ← checkPath text
  match ← tree.locate path with
  | .directory _ => return .directory
  | .name directory name =>
    match ← tree.lookupIn directory name with
    | none => throw .notFound
    | some .directory => return .directory
    | some (.file contents) =>
      if path.trailingSlash then throw .notDirectory else return .file contents

/-- Whether a path leads to a directory. -/
def isDirectory (tree : DirectoryTree) (text : String) : Bool :=
  match tree.find text with
  | .ok .directory => true
  | _ => false

/-! ### Reading, writing and making directories -/

/-- The contents of a file. -/
def readFile (tree : DirectoryTree) (text : String) : Except FileFault ByteArray :=
  match tree.find text with
  | .ok (.file contents) => .ok contents
  | .ok .directory => .error .isDirectory
  | .error fault => .error fault

/-- The tree after a file has got the given contents. -/
def writeFile (tree : DirectoryTree) (text contents : String) :
    Except FileFault DirectoryTree := do
  let path ← checkPath text
  match ← tree.locate path with
  | .directory _ => throw .isDirectory
  | .name directory name =>
    if path.trailingSlash then throw .isDirectory
    match ← tree.lookupIn directory name with
    | some .directory => throw .isDirectory
    | _ => return tree.insert (directory ++ [name]) (.file contents.toUTF8)

/-- The tree after a directory has been made in a directory that exists. -/
def makeDirectory (tree : DirectoryTree) (text : String) : Except FileFault DirectoryTree := do
  let path ← checkPath text
  match ← tree.locate path with
  | .directory _ => throw .alreadyExists
  | .name directory name =>
    match ← tree.lookupIn directory name with
    | some _ => throw .alreadyExists
    | none => return tree.insert (directory ++ [name]) .directory

/-- The outcome of making a directory at `text`, where it is no fault that there is one already. -/
def settle (tree : DirectoryTree) (text : String) (otherwise : FileFault) :
    Except FileFault Unit × DirectoryTree :=
  (if tree.isDirectory text then .ok () else .error otherwise, tree)

/-- Makes a directory at `text`, after `makeAround` if something around it is missing.  What has
been made stays even if the rest fails. -/
def makeWith (text : String)
    (makeAround : DirectoryTree → Except FileFault Unit × DirectoryTree) (tree : DirectoryTree) :
    Except FileFault Unit × DirectoryTree :=
  match tree.makeDirectory text with
  | .ok made => (.ok (), made)
  | .error .notFound =>
    match makeAround tree with
    | (.error fault, around) => (.error fault, around)
    | (.ok (), around) =>
      match around.makeDirectory text with
      | .ok made => (.ok (), made)
      | .error fault => around.settle text fault
  | .error fault => tree.settle text fault

/-- Makes the directory with the given components, innermost first, and those around it. -/
def makeOutward (absolute : Bool) :
    List String → DirectoryTree → Except FileFault Unit × DirectoryTree
  | [], tree => (.ok (), tree)
  | component :: outer, tree =>
    let names := String.intercalate "/" (component :: outer).reverse
    makeWith (if absolute then "/" ++ names else names) (makeOutward absolute outer) tree

/-- Makes a directory and all directories around it. -/
def makeDirectories (tree : DirectoryTree) (text : String) :
    Except FileFault Unit × DirectoryTree :=
  if text.isEmpty then
    (.ok (), tree)
  else
    let path := Path.ofText text
    makeWith text (makeOutward path.absolute path.plainComponents.reverse.tail) tree

/-! ### Contents -/

/-- Puts a file or a directory below the working directory, with the directories around it. -/
def put (tree : DirectoryTree) (text : String) (entry : Entry) : DirectoryTree :=
  let names := tree.working ++ (Path.ofText text).components
  let around := (names.length - tree.working.length).fold
    (fun n _ acc =>
      let outer := names.take (tree.working.length + n)
      if (acc.entry? outer).isSome then acc else acc.insert outer .directory) tree
  match entry, around.entry? names with
  | .directory, some .directory => around
  | _, _ => around.insert names entry

/-- A path as a listing shows it: a slash follows the name of a directory. -/
def shownPath (names : List String) : Entry → String
  | .file _ => String.intercalate "/" names
  | .directory => String.intercalate "/" names ++ "/"

/-- Everything below the working directory under its relative path, in the order of the paths as
they are shown.  The slash of a directory counts for the order, so that a directory comes right
before what it holds. -/
def listing (tree : DirectoryTree) : List (String × Entry) :=
  let below := tree.entries.filterMap fun (names, entry) =>
    if tree.working.isPrefixOf names && tree.working.length < names.length then
      some (shownPath (names.drop tree.working.length) entry, entry)
    else
      none
  below.mergeSort fun first second => first.1 ≤ second.1

end DirectoryTree

/-- Computations on a directory tree can read and write its files. -/
instance : FileStore (StateM DirectoryTree) where
  readFile text := return (← get).readFile text
  makeDirectories text := modifyGet fun tree => tree.makeDirectories text
  writeFile text contents := do
    match (← get).writeFile text contents with
    | .ok tree => set tree; return .ok ()
    | .error fault => return .error fault

end Roster
