/-
**Loading a file.**

Loading evaluates the lines of a text one after the other and stops at the first one that fails.
What it does is put together from what it does with the first lines and what it does with the
others.  A file that holds a text is loaded as the text, and nothing in the file system changes.

Main definition:

* `Session.loadAnswer`: what loading answers, from what has become of the lines.

Main results:

* `Session.evalLines_append_of_ok`, `Session.evalLines_append_of_error`: lines are evaluated until
  one of them fails;
* `getElem_of_mem_programLines`: the number of a line says where it stands in the text;
* `Session.run_load`: **loading a file is evaluating the lines of its text**.
-/

import Roster.Proofs.Files.Written
import Roster.Session.Basic

set_option relaxedAutoImplicit false
set_option autoImplicit false

namespace Roster

/-- A line with its number is the line at that place of the text, where lines count from one.  It
holds more than white space. -/
theorem getElem_of_mem_programLines {text line : String} {number : Nat}
    (h : (number, line) ∈ programLines text) :
    1 ≤ number ∧ (textLines text.toList)[number - 1]? = some line.toList ∧
      trim line.toList ≠ [] := by
  obtain ⟨⟨chars, position⟩, hmem, hline⟩ := List.mem_filterMap.1 h
  obtain ⟨hpositive, hget⟩ := List.mem_zipIdx_iff_le_and_getElem?_sub.1 hmem
  simp only at hpositive hget hline
  split at hline
  · cases hline
  · rename_i hblank
    obtain ⟨rfl, rfl⟩ := Prod.mk.inj (Option.some.inj hline)
    rw [String.toList_ofList]
    exact ⟨hpositive, hget, by simpa using hblank⟩

namespace Session

theorem evalSource_of_parse {session : Session} {source : String} {e : Expr}
    (h : parse source = .ok e) : session.evalSource source = session.evalExpr e := by
  rw [evalSource, h]

theorem evalSource_of_parse_error {session : Session} {source : String} {error : ParseError}
    (h : parse source = .error error) :
    session.evalSource source = (.error (.parsing error), session) := by
  rw [evalSource, h]

section

variable {session after : Session} {line : String} {number : Nat} {failure : Failure}

/-- Once a line has ended well, the others follow. -/
theorem evalLines_cons_of_ok {addresses : AddressSet}
    (h : session.evalSource line = (.ok addresses, after)) (rest : List (Nat × String)) :
    session.evalLines ((number, line) :: rest) = after.evalLines rest := by
  rw [evalLines, h]

/-- If a line fails, the others are not evaluated. -/
theorem evalLines_cons_of_error (h : session.evalSource line = (.error failure, after))
    (rest : List (Nat × String)) :
    session.evalLines ((number, line) :: rest) = (.error (number, failure), after) := by
  rw [evalLines, h]

theorem evalLines_append_of_ok {front : List (Nat × String)}
    (h : session.evalLines front = (.ok (), after)) (back : List (Nat × String)) :
    session.evalLines (front ++ back) = after.evalLines back := by
  induction front generalizing session with
  | nil =>
      cases h
      rfl
  | cons first front ih =>
      cases hline : session.evalSource first.2 with
      | mk result next =>
          cases result with
          | ok addresses =>
              rw [evalLines_cons_of_ok hline] at h
              rw [List.cons_append, evalLines_cons_of_ok hline, ih h]
          | error failure =>
              rw [evalLines_cons_of_error hline] at h
              cases h

theorem evalLines_append_of_error {front : List (Nat × String)}
    (h : session.evalLines front = (.error (number, failure), after))
    (back : List (Nat × String)) :
    session.evalLines (front ++ back) = (.error (number, failure), after) := by
  induction front generalizing session with
  | nil => cases h
  | cons first front ih =>
      cases hline : session.evalSource first.2 with
      | mk result next =>
          cases result with
          | ok addresses =>
              rw [evalLines_cons_of_ok hline] at h
              rw [List.cons_append, evalLines_cons_of_ok hline, ih h]
          | error failure =>
              rw [evalLines_cons_of_error hline] at h
              rw [List.cons_append, evalLines_cons_of_error hline, h]

end

/-- What loading a text of so many lines answers, from what has become of its lines. -/
def loadAnswer (path : String) (lines : Nat) :
    Except (Nat × Failure) Unit → Except Failure Response
  | .ok () => .ok (.loaded path lines)
  | .error (line, failure) => .error (.inFile path line failure)

/-- Contents that are a text are loaded by evaluating its lines. -/
theorem loadContents_toUTF8 (session : Session) (path text : String) :
    session.loadContents path text.toUTF8 =
      (loadAnswer path (programLines text).length (session.evalLines (programLines text)).1,
        (session.evalLines (programLines text)).2) := by
  have htext : String.fromUTF8? text.toUTF8 = some text := dif_pos text.isValidUTF8
  simp only [loadContents, htext, loadText]
  rcases session.evalLines (programLines text) with ⟨_ | _, after⟩ <;> rfl

/-- **Loading a file is evaluating the lines of its text.** -/
theorem run_load {session : Session} {file text : String} {tree : DirectoryTree}
    (h : tree.readFile (session.path file) = .ok text.toUTF8) :
    (session.load file : StateM DirectoryTree (Except Failure Response × Session)).run tree =
      ((loadAnswer (session.path file) (programLines text).length
          (session.evalLines (programLines text)).1,
        (session.evalLines (programLines text)).2), tree) := by
  rw [load, StateT.run_bind, DirectoryTree.run_readFile, pure_bind, h]
  simp only [loadContents_toUTF8]
  rfl

/-! ### A session without a directory -/

theorem path_of_directory {session : Session} (h : session.settings.directory = "") :
    session.path "t" = "t" := by
  rw [path, h]
  rfl

/-- There is a file that holds a given text. -/
theorem exists_readFile {session : Session} (h : session.settings.directory = "") (text : String) :
    ∃ tree : DirectoryTree, tree.readFile (session.path "t") = .ok text.toUTF8 := by
  rw [path_of_directory h]
  exact ⟨_, DirectoryTree.readFile_of_writeFile (DirectoryTree.writeFile_root text)⟩

end Session

end Roster
