/-
**A file that is written is read back.**

A path is looked up from directory to directory, and a file never takes the place of a directory.
So a path leads to the same place after a file has been written, and what is found there is the
file.

Main results:

* `DirectoryTree.locate_insert`: **a new file hides no place**;
* `DirectoryTree.readFile_of_writeFile`: **a file that is written is read back**.
-/

import Mathlib.Tactic.SplitIfs
import Roster.Files.Directory

set_option relaxedAutoImplicit false
set_option autoImplicit false

namespace Roster

/-- A computation that goes on from another one ends well if both of them do. -/
theorem bind_eq_ok_iff {ε α β : Type} {first : Except ε α} {second : α → Except ε β} {b : β} :
    first >>= second = .ok b ↔ ∃ a, first = .ok a ∧ second a = .ok b := by
  constructor
  · intro h
    cases first with
    | error fault => cases h
    | ok a => exact ⟨a, rfl, h⟩
  · rintro ⟨a, rfl, h⟩
    exact h

namespace DirectoryTree

variable {tree after : DirectoryTree} {names directory next : List String} {contents : ByteArray}

/-! ### Entries -/

theorem lookup_filter_ne {other : List String} (hother : other ≠ names)
    (entries : List (List String × Entry)) :
    (entries.filter fun entry => entry.1 != names).lookup other = entries.lookup other := by
  induction entries with
  | nil => rfl
  | cons entry entries ih =>
      obtain ⟨key, entry⟩ := entry
      by_cases hkey : key = names
      · have hne : (other == key) = false := by
          rw [hkey]
          exact beq_eq_false_iff_ne.2 hother
        rw [List.filter_cons_of_neg (by simp [hkey]), ih, List.lookup_cons, hne]
      · rw [List.filter_cons_of_pos (by simp [hkey]), List.lookup_cons, List.lookup_cons, ih]

theorem lookup_insert (tree : DirectoryTree) (names other : List String) (entry : Entry) :
    DirectoryTree.entry? (tree.insert names entry) other =
      if other = names then some entry else tree.entry? other := by
  unfold entry? insert
  rw [List.lookup_cons]
  split
  · rename_i heq
    rw [if_pos (beq_iff_eq.1 heq)]
  · rename_i hne
    have hne := beq_eq_false_iff_ne.1 hne
    rw [if_neg hne, lookup_filter_ne hne]

theorem lookupIn_eq_ok_iff {name : String} {entry : Option Entry} :
    tree.lookupIn directory name = .ok entry ↔
      name.utf8ByteSize ≤ nameLimit ∧ tree.entry? (directory ++ [name]) = entry := by
  rw [lookupIn]
  split
  · rename_i hlong
    simp [Nat.not_le_of_lt hlong]
  · rename_i hshort
    simp [Nat.le_of_not_lt hshort]

/-! ### Places -/

/-- A step leads on if it stays in place, leads back, or leads to a directory. -/
theorem enter_eq_ok_iff {component : String} :
    tree.enter directory component = .ok next ↔
      if component = "." then directory = next
      else if component = ".." then directory.dropLast = next
      else tree.lookupIn directory component = .ok (some .directory) ∧
        directory ++ [component] = next := by
  rw [enter]
  split
  · simp
  split
  · simp
  cases tree.lookupIn directory component with
  | error fault => simp
  | ok entry =>
      cases entry with
      | none => simp
      | some entry => cases entry <;> simp

/-- Directories are not replaced by a file. -/
theorem lookupIn_insert_directory (hplace : tree.entry? names ≠ some .directory) {name : String}
    (h : tree.lookupIn directory name = .ok (some .directory)) :
    (tree.insert names (.file contents)).lookupIn directory name = .ok (some .directory) := by
  obtain ⟨hshort, hentry⟩ := lookupIn_eq_ok_iff.1 h
  refine lookupIn_eq_ok_iff.2 ⟨hshort, ?_⟩
  rw [lookup_insert, if_neg, hentry]
  rintro rfl
  exact hplace hentry

theorem enter_insert (hplace : tree.entry? names ≠ some .directory) {component : String}
    (h : tree.enter directory component = .ok next) :
    (tree.insert names (.file contents)).enter directory component = .ok next := by
  rw [enter_eq_ok_iff] at h ⊢
  split_ifs at h ⊢
  · exact h
  · exact h
  · exact ⟨lookupIn_insert_directory hplace h.1, h.2⟩

theorem walk_insert (hplace : tree.entry? names ≠ some .directory) {components : List String}
    (h : tree.walk directory components = .ok next) :
    (tree.insert names (.file contents)).walk directory components = .ok next := by
  induction components generalizing directory with
  | nil => exact h
  | cons component rest ih =>
      rw [walk] at h ⊢
      cases hstep : tree.enter directory component with
      | error fault =>
          rw [hstep] at h
          cases h
      | ok inner =>
          rw [hstep] at h
          rw [enter_insert hplace hstep]
          exact ih h

/-- **A new file hides no place**: a path leads where it has led before. -/
theorem locate_insert (hplace : tree.entry? names ≠ some .directory) {path : Path} {place : Place}
    (h : tree.locate path = .ok place) :
    (tree.insert names (.file contents)).locate path = .ok place := by
  unfold locate at h ⊢
  cases hlast : path.components.getLast? with
  | none =>
      rw [hlast] at h
      exact h
  | some last =>
      simp only [hlast] at h ⊢
      obtain ⟨around, hwalk, hend⟩ := bind_eq_ok_iff.1 h
      exact bind_eq_ok_iff.2 ⟨around, walk_insert hplace hwalk, hend⟩

/-! ### Writing -/

/-- What has been written, and where. -/
theorem exists_of_writeFile {text contents : String}
    (h : tree.writeFile text contents = .ok after) :
    ∃ path directory name, checkPath text = .ok path ∧
      tree.locate path = .ok (.name directory name) ∧ path.trailingSlash = false ∧
      name.utf8ByteSize ≤ nameLimit ∧ tree.entry? (directory ++ [name]) ≠ some .directory ∧
      after = tree.insert (directory ++ [name]) (.file contents.toUTF8) := by
  obtain ⟨path, hpath, h⟩ := bind_eq_ok_iff.1 h
  obtain ⟨place, hplace, h⟩ := bind_eq_ok_iff.1 h
  cases place with
  | directory names => cases h
  | name directory name =>
      simp only at h
      split at h
      · cases h
      · rename_i hslash
        obtain ⟨entry, hentry, h⟩ := bind_eq_ok_iff.1 h
        obtain ⟨hshort, rfl⟩ := lookupIn_eq_ok_iff.1 hentry
        split at h
        · cases h
        · rename_i hdirectory
          cases h
          exact ⟨path, directory, name, hpath, hplace, Bool.eq_false_iff.2 hslash, hshort,
            hdirectory, rfl⟩

/-- **A file that is written is read back.** -/
theorem readFile_of_writeFile {text contents : String}
    (h : tree.writeFile text contents = .ok after) :
    after.readFile text = .ok contents.toUTF8 := by
  obtain ⟨path, directory, name, hpath, hplace, hslash, hshort, hdirectory, rfl⟩ :=
    exists_of_writeFile h
  have hfile : (tree.insert (directory ++ [name]) (.file contents.toUTF8)).lookupIn directory name =
      .ok (some (.file contents.toUTF8)) :=
    lookupIn_eq_ok_iff.2 ⟨hshort, by rw [lookup_insert, if_pos rfl]⟩
  have hfind : (tree.insert (directory ++ [name]) (.file contents.toUTF8)).find text =
      .ok (.file contents.toUTF8) := by
    refine bind_eq_ok_iff.2 ⟨path, hpath, ?_⟩
    refine bind_eq_ok_iff.2 ⟨.name directory name, locate_insert hdirectory hplace, ?_⟩
    refine bind_eq_ok_iff.2 ⟨some (.file contents.toUTF8), hfile, ?_⟩
    simp only [hslash]
    rfl
  rw [readFile, hfind]

/-! ### A directory with one file -/

/-- The root directory, as long as it is empty, takes a file. -/
theorem writeFile_root (contents : String) : (empty []).writeFile "t" contents =
    .ok ((empty []).insert ["t"] (.file contents.toUTF8)) := by
  have hsplit : "t".splitOn "/" = ["t"] := by
    rw [String.splitOn, if_neg (by decide), String.splitOnAux, if_neg (by decide +kernel),
      if_neg (by decide +kernel), String.splitOnAux, if_pos (by decide +kernel)]
    decide +kernel
  have hpath : Path.ofText "t" = ⟨false, ["t"], false⟩ := by
    rw [Path.ofText, hsplit]
    decide +kernel
  rw [writeFile, checkPath, if_neg (by decide), if_neg (by decide),
    hpath]
  rfl

/-! ### As a file store -/

theorem run_readFile (tree : DirectoryTree) (text : String) :
    (FileStore.readFile text : StateM DirectoryTree (Except FileFault ByteArray)).run tree =
      pure (tree.readFile text, tree) := rfl

theorem run_makeDirectories (tree : DirectoryTree) (text : String) :
    (FileStore.makeDirectories text : StateM DirectoryTree (Except FileFault Unit)).run tree =
      pure (tree.makeDirectories text) := rfl

theorem run_writeFile (tree : DirectoryTree) (text contents : String) :
    (FileStore.writeFile text contents : StateM DirectoryTree (Except FileFault Unit)).run tree =
      match tree.writeFile text contents with
      | .ok after => pure (.ok (), after)
      | .error fault => pure (.error fault, tree) := by
  cases hwrite : tree.writeFile text contents <;> simp [FileStore.writeFile, hwrite]

end DirectoryTree

end Roster
