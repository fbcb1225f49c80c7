/-
**What a session saves is parsed back, line by line.**

The names and addresses in a session were cut out of sources, and no evaluation spells a name or an
address that it has not found.  So whichever sources a session has been given, and whether or not
they have ended well, each binding can be written as a line that the grammar derives.  There is
nothing else in the file: the text that is saved falls into these lines, in ascending order of the
names, and the file holds this text.

A line that is parsed back need not be evaluated to the same binding: what it does in another
session is a further question.  But what another session loads from the file is the saved text, and
nothing else.

Main definition:

* `ParsesBack`: a line that is parsed to the definition of a binding.

Main results:

* `Session.run_save_eq_ok_iff`, `Session.readFile_of_save`: when a session saves, and **what the
  file holds** then;
* `Session.run_load_of_save`: **what is loaded from the file** that a session has saved;
* `saved_lines_parse`: **each line that is saved is parsed back** to its binding.
-/

import Roster.Proofs.Session.Loading
import Roster.Proofs.Session.SavedLines
import Roster.Proofs.Session.Sources

set_option relaxedAutoImplicit false
set_option autoImplicit false

namespace Roster

/-- A line that is parsed to the definition of a binding, unless it is too long to be parsed. -/
def ParsesBack (line : List Char) (entry : Name × Expr) : Prop :=
  (String.ofList line).utf8ByteSize ≤ Span.limit →
    parse (String.ofList line) = .ok (.define entry.1 entry.2)

/-- The lines of a saved text are parsed back, one for each binding. -/
theorem parsesBack_savedText {env : Environment}
    (h : ∀ entry ∈ env.toList, WritableBinding entry.1 entry.2) :
    List.Forall₂ ParsesBack (textLines env.savedText.toList) env.toList := by
  rw [textLines_savedText h, List.forall₂_map_left_iff, List.forall₂_same]
  intro entry hentry hsize
  rw [String.ofList_toList] at hsize ⊢
  exact parse_definitionLine ⟨h entry hentry, hsize⟩

namespace Session

section

variable {session : Session} {file : String} {tree after : DirectoryTree} {response : Response}

/-- A session has saved if its directory can be made and its file can be written. -/
theorem run_save_eq_ok_iff :
    (session.save file : StateM DirectoryTree (Except Failure Response)).run tree =
        (.ok response, after) ↔
      ∃ around, tree.makeDirectories session.settings.directory = (.ok (), around) ∧
        around.writeFile (session.path file) session.environment.savedText = .ok after ∧
        response = .saved (session.path file) session.environment.size := by
  rw [save, StateT.run_bind, DirectoryTree.run_makeDirectories, pure_bind]
  rcases hmake : tree.makeDirectories session.settings.directory with ⟨fault | _, around⟩
  · refine iff_of_false (fun h => by cases h) ?_
    rintro ⟨_, ⟨⟩, -⟩
  simp only [StateT.run_bind, DirectoryTree.run_writeFile]
  constructor
  · intro h
    cases hwrite : around.writeFile (session.path file) session.environment.savedText with
    | error fault =>
        rw [hwrite] at h
        cases h
    | ok written =>
        rw [hwrite] at h
        cases h
        exact ⟨around, rfl, hwrite, rfl⟩
  · rintro ⟨_, ⟨⟩, hwrite, rfl⟩
    rw [hwrite]
    rfl

/-- **The file that a session has saved** holds its saved text. -/
theorem readFile_of_save
    (h : (session.save file : StateM DirectoryTree (Except Failure Response)).run tree =
      (.ok response, after)) :
    after.readFile (session.path file) = .ok session.environment.savedText.toUTF8 := by
  obtain ⟨around, -, hwrite, -⟩ := run_save_eq_ok_iff.1 h
  exact DirectoryTree.readFile_of_writeFile hwrite

/-- **A session that loads what another one has saved** evaluates the saved text, and leaves all
files as they are. -/
theorem run_load_of_save
    (h : (session.save file : StateM DirectoryTree (Except Failure Response)).run tree =
      (.ok response, after))
    {fresh : Session} {other : String} (hpath : fresh.path other = session.path file) :
    (fresh.load other : StateM DirectoryTree (Except Failure Response × Session)).run after =
      (fresh.loadContents (session.path file) session.environment.savedText.toUTF8, after) := by
  have hfile : after.readFile (fresh.path other) =
      .ok session.environment.savedText.toUTF8 := by
    rw [hpath]
    exact readFile_of_save h
  rw [run_load hfile, loadContents_toUTF8, hpath]

/-- Whatever sources a session without a directory has been given, it saves to a new file in the
root directory. -/
theorem exists_run_save {start : Session} {sources : List String}
    (hdirectory : start.settings.directory = "") (hsession : start.evalSources sources = session) :
    session.path "t" = "t" ∧ ∃ response after,
      (session.save "t" : StateM DirectoryTree (Except Failure Response)).run (.empty []) =
        (.ok response, after) := by
  have h : session.settings.directory = "" := by
    rw [← hsession, settings_evalSources, hdirectory]
  have hpath := path_of_directory h
  have hmake : (DirectoryTree.empty []).makeDirectories session.settings.directory =
      (.ok (), .empty []) := by
    rw [h]
    rfl
  have hwrite : (DirectoryTree.empty []).writeFile (session.path "t")
      session.environment.savedText =
        .ok ((DirectoryTree.empty []).insert ["t"]
          (.file session.environment.savedText.toUTF8)) := by
    rw [hpath]
    exact DirectoryTree.writeFile_root _
  exact ⟨hpath, _, _, run_save_eq_ok_iff.2 ⟨_, hmake, hwrite, rfl⟩⟩

end

end Session

/-- **Each line that is saved is parsed back** to its binding.  Whichever sources a session has been
given, and whether or not each of them ended well, all names and addresses in it are well spelled,
and the text that it saves has one line for each binding, in strictly ascending order of the names.
A line that is not too long is parsed to the definition of its name as what is bound to it. -/
theorem saved_lines_parse {settings : Settings} {sources : List String} {session : Session}
    (hsources : ∀ source ∈ sources, source.utf8ByteSize ≤ Span.limit)
    (hsession : Session.evalSources ⟨settings, ∅⟩ sources = session) :
    (∀ (name : Name) (e : Expr), session.environment[name]? = some e → WritableBinding name e) ∧
    List.Forall₂ ParsesBack (textLines session.environment.savedText.toList)
      session.environment.toList ∧
    session.environment.toList.Pairwise (fun entry other => compare entry.1 other.1 = .lt) ∧
    ∀ (file : String) (tree after : DirectoryTree) (response : Response),
      (session.save file : StateM DirectoryTree (Except Failure Response)).run tree =
        (.ok response, after) →
      after.readFile (session.path file) = .ok session.environment.savedText.toUTF8 := by
  subst hsession
  have hall : (View.base (Session.evalSources ⟨settings, ∅⟩ sources).environment).All
      WritableBinding :=
    Session.writable_evalSources rfl hsources
  refine ⟨hall, parsesBack_savedText fun entry hentry => ?_,
    Std.ExtTreeMap.ordered_keys_toList, fun _ _ _ _ => Session.readFile_of_save⟩
  exact hall entry.1 entry.2 (Std.ExtTreeMap.mem_toList_iff_getElem?_eq_some.1 hentry)

/-- The binding of `b` holds a definition and a composition; the second source is refused, as it
would close a loop, the third one cannot be parsed, and what the last one binds is empty. -/
theorem saved_lines_parse_composition : ∃ session : Session,
    Session.evalSources ⟨{ directory := "" }, ∅⟩
      ["b = ((c = a@x) | d)", "c = b", "b = b, )", "e = "] = session ∧
    session.environment.savedText = "b = ((c = a@x) | d)\nc = a@x\nd = \ne = \n" ∧
    List.Forall₂ ParsesBack (textLines session.environment.savedText.toList)
      session.environment.toList ∧
    ∃ response after,
      (session.save "t" : StateM DirectoryTree (Except Failure Response)).run (.empty []) =
        (.ok response, after) ∧
      after.readFile (session.path "t") = .ok session.environment.savedText.toUTF8 := by
  obtain ⟨session, hsession⟩ : ∃ session, Session.evalSources ⟨{ directory := "" }, ∅⟩
    ["b = ((c = a@x) | d)", "c = b", "b = b, )", "e = "] = session := ⟨_, rfl⟩
  obtain ⟨-, response, after, hsave⟩ := Session.exists_run_save rfl hsession
  obtain ⟨-, hlines, -, hfile⟩ := saved_lines_parse (by decide) hsession
  refine ⟨session, hsession, ?_, hlines, response, after, hsave, hfile _ _ _ _ hsave⟩
  rw [← hsession]
  decide +kernel

end Roster
