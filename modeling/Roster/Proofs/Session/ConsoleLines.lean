/-
**A line in a file and the same line on the console.**

On the console a line is trimmed before it is parsed.  A line of a file is trimmed only to see
whether it holds anything, and is then parsed as it stands.  If there are only blanks around it this
makes no difference: both ways it is evaluated to the same addresses, or fails for the same reason.
But white space that is no blank belongs to no program.  Where such white space stands around a
line, the console takes it away, and loading fails.

Main definitions:

* `numberedLines`: all lines of a text;
* `Session.runLines`: lines that are run on the console, up to the first that fails;
* `SameFailure`, `Session.SameEnd`: failures for the same reason, and runs that end in the same way.

Main results:

* `Session.evalSource_trim`: **a source is evaluated as what is left of it**, if there are only
  blanks around it;
* `Session.evalLines_trimmed`: so are lines, up to the first that has other white space around it;
* `load_eq_console`: **a file is loaded as its lines are run on the console**, up to this line.
-/

import Roster.Proofs.Parse.Spacing
import Roster.Proofs.Session.Loading
import Roster.Proofs.Session.Sources
import Roster.Proofs.Token.WhiteSpace

set_option relaxedAutoImplicit false
set_option autoImplicit false

namespace Roster

/-! ### Lines -/

/-- All lines of a text, each with its number; lines count from one. -/
def numberedLines (text : String) : List (Nat × String) :=
  ((textLines text.toList).zipIdx 1).map fun (line, number) => (number, String.ofList line)

/-- A line without the white space around it. -/
def trimmed (line : Nat × String) : Nat × String :=
  (line.1, String.ofList (trim line.2.toList))

/-- Whether a line holds more than white space. -/
def holdsText (line : Nat × String) : Bool :=
  !(trim line.2.toList).isEmpty

theorem holdsText_iff {line : Nat × String} : holdsText line = true ↔ trim line.2.toList ≠ [] := by
  simp [holdsText]

theorem filter_numberedLines (text : String) :
    (numberedLines text).filter holdsText = programLines text := by
  rw [numberedLines, programLines, ← List.filterMap_eq_filter, List.filterMap_map]
  refine List.filterMap_congr fun numbered _ => ?_
  obtain ⟨line, number⟩ := numbered
  cases hblank : (trim line).isEmpty <;> simp [holdsText, hblank, Option.guard]

/-! ### Sources -/

/-- A source that holds text of unknown kind is never parsed. -/
theorem exists_parse_eq_error {source word : String}
    (h : (.unknown, word) ∈ lexemes source.toList) : ∃ error, parse source = .error error := by
  cases hparse : parse source with
  | error error => exact ⟨error, rfl⟩
  | ok e =>
      obtain ⟨row, mark, hlex, hmark, hrow, hkinds⟩ := exists_lex_eq source
      have hderives := readProgram_eq_ok_iff.1 hparse
      rw [hlex, beforeEnd_append_mark hrow hmark] at hderives
      have hkind : TokenKind.unknown ∈ row.map Token.kind := by
        rw [hkinds]
        exact List.mem_map_of_mem h
      obtain ⟨token, htoken, hunknown⟩ := List.mem_map.1 hkind
      exact absurd hunknown (hderives.kind_ne token htoken).2

/-- What is left of a source is no longer than the source. -/
theorem utf8ByteSize_trim_le (source : String) :
    (String.ofList (trim source.toList)).utf8ByteSize ≤ source.utf8ByteSize := by
  obtain ⟨front, back, -, htext⟩ := exists_append_trim source.toList
  have hcount := congrArg byteCount htext
  rw [byteCount_append, byteCount_append] at hcount
  rw [← byteCount_toList, ← byteCount_toList, String.toList_ofList]
  omega

/-- A source with only blanks around it is parsed as what is left of it. -/
theorem parse_trim {source : String} (hedges : ∀ c ∈ edges source.toList, isBlank c = true)
    (hsize : source.utf8ByteSize ≤ Span.limit) :
    (∃ e, parse source = .ok e ∧ parse (String.ofList (trim source.toList)) = .ok e) ∨
      ∃ error span, parse source = .error error ∧
        parse (String.ofList (trim source.toList)) = .error (error.withSpan span) := by
  have hlexemes : (lex (String.ofList (trim source.toList))).map Token.lexeme =
      (lex source).map Token.lexeme := by
    rw [map_lexeme_lex hsize, map_lexeme_lex ((utf8ByteSize_trim_le source).trans hsize),
      String.toList_ofList, lexemes_trim hedges]
  have hread := shifted_readProgram hlexemes
  rw [← parse, ← parse] at hread
  generalize parse source = answer at hread ⊢
  generalize parse (String.ofList (trim source.toList)) = answer' at hread ⊢
  cases hread with
  | @ok e _ heq => exact Or.inl ⟨e, rfl, by rw [heq]⟩
  | @error error _ hshifted => exact Or.inr ⟨error, _, rfl, by rw [← hshifted.details]⟩

/-- Two failures of an evaluation for the same reason.  A source that cannot be parsed may have the
error at another place. -/
inductive SameFailure : Failure → Failure → Prop
  | stopped (stop : Stop) : SameFailure (.ofStop stop) (.ofStop stop)
  | parsing (error : ParseError) (span : Span) :
      SameFailure (.parsing error) (.parsing (error.withSpan span))

namespace Session

/-- **A source is evaluated as what is left of it**, if there are only blanks around it. -/
theorem evalSource_trim (session : Session) {source : String}
    (hedges : ∀ c ∈ edges source.toList, isBlank c = true)
    (hsize : source.utf8ByteSize ≤ Span.limit) :
    (∃ addresses after, session.evalSource source = (.ok addresses, after) ∧
        session.evalSource (String.ofList (trim source.toList)) = (.ok addresses, after)) ∨
      ∃ failure failure' after, SameFailure failure failure' ∧
        session.evalSource source = (.error failure, after) ∧
        session.evalSource (String.ofList (trim source.toList)) = (.error failure', after) := by
  obtain ⟨e, hparse, htrim⟩ | ⟨error, span, hparse, htrim⟩ := parse_trim hedges hsize
  · rw [evalSource_of_parse hparse, evalSource_of_parse htrim]
    obtain ⟨addresses, _, -, heval⟩ | ⟨stop, _, -, heval⟩ := session.evalExpr_cases e
    · exact Or.inl ⟨addresses, _, heval, heval⟩
    · exact Or.inr ⟨_, _, _, .stopped stop, heval, heval⟩
  · exact Or.inr ⟨_, _, session, .parsing error span, evalSource_of_parse_error hparse,
      evalSource_of_parse_error htrim⟩

/-! ### Runs of lines -/

/-- Two runs of lines that leave the same session, and either both end well or fail at the same line
for the same reason. -/
inductive SameEnd :
    Except (Nat × Failure) Unit × Session → Except (Nat × Failure) Unit × Session → Prop
  | passed (after : Session) : SameEnd (.ok (), after) (.ok (), after)
  | failed (number : Nat) (after : Session) {failure failure' : Failure} :
      SameFailure failure failure' →
        SameEnd (.error (number, failure), after) (.error (number, failure'), after)

/-- A line that holds text has other white space than blanks around it, and the lines before it pass
if they are trimmed. -/
def StrandedAt (session : Session) (lines : List (Nat × String)) (number : Nat) (line : String)
    (after : Session) : Prop :=
  ∃ earlier later, lines = earlier ++ (number, line) :: later ∧
    trim line.toList ≠ [] ∧ (¬ ∀ c ∈ edges line.toList, isBlank c = true) ∧
    session.evalLines (earlier.map trimmed) = (.ok (), after)

section

variable {session middle after : Session} {lines : List (Nat × String)}

theorem StrandedAt.cons {first : Nat × String} {addresses : AddressSet} {number : Nat}
    {line : String} (hfirst : session.evalSource (trimmed first).2 = (.ok addresses, middle))
    (h : middle.StrandedAt lines number line after) :
    session.StrandedAt (first :: lines) number line after := by
  obtain ⟨earlier, later, rfl, htext, hedges, hearlier⟩ := h
  refine ⟨first :: earlier, later, rfl, htext, hedges, ?_⟩
  rw [List.map_cons, ← hearlier]
  exact evalLines_cons_of_ok hfirst _

theorem SameEnd.cons {number number' : Nat} {source source' : String} {addresses : AddressSet}
    {lines' : List (Nat × String)} (h : session.evalSource source = (.ok addresses, middle))
    (h' : session.evalSource source' = (.ok addresses, middle))
    (hend : SameEnd (middle.evalLines lines) (middle.evalLines lines')) :
    SameEnd (session.evalLines ((number, source) :: lines))
      (session.evalLines ((number', source') :: lines')) := by
  rwa [evalLines_cons_of_ok h, evalLines_cons_of_ok h']

end

/-- **Lines that hold text are evaluated as all lines are when they are trimmed**, up to the first
that has other white space than blanks around it.  This one cannot be parsed as it stands. -/
theorem evalLines_trimmed (session : Session) {lines : List (Nat × String)}
    (hsize : ∀ line ∈ lines, holdsText line = true → line.2.utf8ByteSize ≤ Span.limit) :
    SameEnd (session.evalLines (lines.filter holdsText)) (session.evalLines (lines.map trimmed)) ∨
      ∃ number line error after, session.StrandedAt lines number line after ∧
        session.evalLines (lines.filter holdsText) = (.error (number, .parsing error), after) := by
  induction lines generalizing session with
  | nil => exact Or.inl (.passed session)
  | cons first lines ih =>
      obtain ⟨hfirst, hrest⟩ := List.forall_mem_cons.1 hsize
      rw [List.map_cons]
      by_cases hheld : holdsText first = true
      · rw [List.filter_cons_of_pos hheld]
        by_cases hedges : ∀ c ∈ edges first.2.toList, isBlank c = true
        · obtain ⟨addresses, middle, hline, htrim⟩ |
              ⟨failure, failure', after, hsame, hline, htrim⟩ :=
            session.evalSource_trim hedges (hfirst hheld)
          · obtain hend | ⟨number, line, error, after, hstranded, hfails⟩ := ih middle hrest
            · exact Or.inl (.cons hline htrim hend)
            · refine Or.inr ⟨number, line, error, after, hstranded.cons htrim, ?_⟩
              rw [evalLines_cons_of_ok hline, hfails]
          · rw [evalLines_cons_of_error hline, trimmed, evalLines_cons_of_error htrim]
            exact Or.inl (.failed first.1 after hsame)
        · obtain ⟨word, hword⟩ := exists_unknown_of_edges hedges
          obtain ⟨error, herror⟩ := exists_parse_eq_error hword
          exact Or.inr ⟨first.1, first.2, error, session,
            ⟨[], lines, rfl, holdsText_iff.1 hheld, hedges, rfl⟩,
            evalLines_cons_of_error (evalSource_of_parse_error herror) _⟩
      · -- a line without text is left out, and is evaluated to nothing if it is trimmed
        have htrim : session.evalSource (trimmed first).2 = (.ok ∅, session) := by
          have hnil : trim first.2.toList = [] := by
            simpa [holdsText] using hheld
          rw [trimmed, hnil]
          exact session.evalSource_empty
        rw [List.filter_cons_of_neg hheld]
        obtain hend | ⟨number, line, error, after, hstranded, hfails⟩ := ih session hrest
        · have hall : session.evalLines (trimmed first :: lines.map trimmed) =
              session.evalLines (lines.map trimmed) :=
            evalLines_cons_of_ok htrim _
          rw [hall]
          exact Or.inl hend
        · exact Or.inr ⟨number, line, error, after, hstranded.cons htrim, hfails⟩

/-! ### The console -/

section

variable {m : Type → Type} [Monad m] [FileStore m]

/-- Runs numbered lines on the console one after the other up to the first that fails; a failure
comes with the number of its line. -/
def runLines : Session → List (Nat × String) → m (Except (Nat × Failure) Unit × Session)
  | session, [] => return (.ok (), session)
  | session, (number, line) :: rest => do
    match ← session.runLine line with
    | (.ok _, after) => after.runLines rest
    | (.error failure, after) => return (.error (number, failure), after)

end

/-- A line that is no command is evaluated when it has been trimmed. -/
theorem run_runLine (session : Session) {line : String} (h : (trim line.toList).head? ≠ some '/')
    (tree : DirectoryTree) :
    (session.runLine line : StateM DirectoryTree (Except Failure Response × Session)).run tree =
      (((session.evalSource (String.ofList (trim line.toList))).1.map .addresses,
        (session.evalSource (String.ofList (trim line.toList))).2), tree) := by
  have hcommand : Command.ofLine line = .evaluate (String.ofList (trim line.toList)) := by
    unfold Command.ofLine
    split
    · rename_i text htext
      rw [htext] at h
      exact absurd rfl h
    · rfl
  rw [runLine, hcommand]
  rfl

/-- Lines that are no commands are evaluated when they have been trimmed. -/
theorem run_runLines (session : Session) {lines : List (Nat × String)}
    (h : ∀ line ∈ lines, (trim line.2.toList).head? ≠ some '/') (tree : DirectoryTree) :
    (session.runLines lines :
        StateM DirectoryTree (Except (Nat × Failure) Unit × Session)).run tree =
      (session.evalLines (lines.map trimmed), tree) := by
  induction lines generalizing session with
  | nil => rfl
  | cons first lines ih =>
      obtain ⟨hfirst, hrest⟩ := List.forall_mem_cons.1 h
      rw [runLines, StateT.run_bind, session.run_runLine hfirst, List.map_cons, trimmed]
      cases hline : session.evalSource (String.ofList (trim first.2.toList)) with
      | mk result middle =>
          cases result with
          | ok addresses =>
              rw [evalLines_cons_of_ok hline]
              exact ih middle hrest
          | error failure =>
              rw [evalLines_cons_of_error hline]
              rfl

end Session

/-- **A file is loaded as its lines are run on the console.**  Let no line of a file be a command.
Then loading and the console, which is given the lines one after the other up to the first that
fails, end in the same way: both pass and leave the same session, or both fail at the same line, for
the same reason, and leave the same session.  Only if a line that holds text has other white space
than blanks around it may they differ: then the console passes the lines before it, and loading
cannot parse the line. -/
theorem load_eq_console {session : Session} {file text : String} {tree : DirectoryTree}
    (hfile : tree.readFile (session.path file) = .ok text.toUTF8)
    (hexprs : ∀ line ∈ programLines text, (trim line.2.toList).head? ≠ some '/')
    (hsize : ∀ line ∈ programLines text, line.2.utf8ByteSize ≤ Span.limit) :
    (∃ after,
        (session.load file : StateM DirectoryTree (Except Failure Response × Session)).run tree =
          ((.ok (.loaded (session.path file) (programLines text).length), after), tree) ∧
        (session.runLines (numberedLines text) :
            StateM DirectoryTree (Except (Nat × Failure) Unit × Session)).run tree =
          ((.ok (), after), tree)) ∨
      (∃ number failure failure' after, SameFailure failure failure' ∧
        (session.load file : StateM DirectoryTree (Except Failure Response × Session)).run tree =
          ((.error (.inFile (session.path file) number failure), after), tree) ∧
        (session.runLines (numberedLines text) :
            StateM DirectoryTree (Except (Nat × Failure) Unit × Session)).run tree =
          ((.error (number, failure'), after), tree)) ∨
      ∃ earlier number line later error after,
        numberedLines text = earlier ++ (number, line) :: later ∧
        trim line.toList ≠ [] ∧ (¬ ∀ c ∈ edges line.toList, isBlank c = true) ∧
        (session.runLines earlier :
            StateM DirectoryTree (Except (Nat × Failure) Unit × Session)).run tree =
          ((.ok (), after), tree) ∧
        (session.load file : StateM DirectoryTree (Except Failure Response × Session)).run tree =
          ((.error (.inFile (session.path file) number (.parsing error)), after), tree) := by
  have hheld : ∀ line ∈ numberedLines text, holdsText line = true → line ∈ programLines text := by
    intro line hline htext
    rw [← filter_numberedLines]
    exact List.mem_filter.2 ⟨hline, htext⟩
  have hexprs' : ∀ line ∈ numberedLines text, (trim line.2.toList).head? ≠ some '/' := by
    intro line hline
    cases htext : holdsText line with
    | true => exact hexprs line (hheld line hline htext)
    | false =>
        have hnil : trim line.2.toList = [] := by
          simpa [holdsText] using htext
        simp [hnil]
  have hcases := session.evalLines_trimmed fun line hline htext =>
    hsize line (hheld line hline htext)
  rw [filter_numberedLines] at hcases
  rw [Session.run_load hfile, session.run_runLines hexprs']
  obtain hend | ⟨number, line, error, after, ⟨earlier, later, hlines, htext, hedges, hearlier⟩,
      hfails⟩ := hcases
  · generalize session.evalLines (programLines text) = loaded at hend ⊢
    generalize session.evalLines ((numberedLines text).map trimmed) = console at hend ⊢
    cases hend with
    | passed after => exact Or.inl ⟨after, rfl, rfl⟩
    | failed number after hsame =>
        exact Or.inr (Or.inl ⟨number, _, _, after, hsame, rfl, rfl⟩)
  · have hearlier' : ∀ other ∈ earlier, (trim other.2.toList).head? ≠ some '/' := by
      intro other hother
      refine hexprs' other ?_
      rw [hlines]
      exact List.mem_append_left _ hother
    refine Or.inr (Or.inr ⟨earlier, number, line, later, error, after, hlines, htext, hedges, ?_,
      ?_⟩)
    · rw [session.run_runLines hearlier', hearlier]
    · rw [hfails]
      rfl

/-- The blank line holds white space that is no blank; the failure is in the line after the next. -/
theorem load_eq_console_unclosed : ∃ (tree : DirectoryTree) (failure failure' : Failure)
    (after : Session), tree.readFile "t" = .ok "\u2003\n a = b@c\t\n  (a\n".toUTF8 ∧
    SameFailure failure failure' ∧
    ((⟨{ directory := "" }, ∅⟩ : Session).load "t" :
        StateM DirectoryTree (Except Failure Response × Session)).run tree =
      ((.error (.inFile "t" 3 failure), after), tree) ∧
    ((⟨{ directory := "" }, ∅⟩ : Session).runLines
        [(1, "\u2003"), (2, " a = b@c\t"), (3, "  (a")] :
        StateM DirectoryTree (Except (Nat × Failure) Unit × Session)).run tree =
      ((.error (3, failure'), after), tree) := by
  have hall : numberedLines "\u2003\n a = b@c\t\n  (a\n" =
      [(1, "\u2003"), (2, " a = b@c\t"), (3, "  (a")] := by
    decide +kernel
  have hlines : programLines "\u2003\n a = b@c\t\n  (a\n" =
      [(2, " a = b@c\t"), (3, "  (a")] := by
    decide +kernel
  have hfails : (Session.evalLines ⟨{ directory := "" }, ∅⟩ [(2, " a = b@c\t"), (3, "  (a")]).1 =
      .error (3, .parsing (.unclosed ⟨2, 3⟩)) := by
    decide +kernel
  generalize hsession : (⟨{ directory := "" }, ∅⟩ : Session) = session at hfails ⊢
  have hdirectory : session.settings.directory = "" := by
    rw [← hsession]
  have hpath := Session.path_of_directory hdirectory
  obtain ⟨tree, hfile⟩ := Session.exists_readFile hdirectory "\u2003\n a = b@c\t\n  (a\n"
  have hload := Session.run_load hfile
  rw [hlines, hfails] at hload
  obtain ⟨_, hrun, -⟩ | ⟨number, failure, failure', after, hsame, hrun, hconsole⟩ |
      ⟨earlier, number, line, later, _, _, hsplit, htext, hedges, -⟩ :=
    load_eq_console hfile (by rw [hlines]; decide) (by rw [hlines]; decide)
  · rw [hload] at hrun
    cases hrun
  · obtain rfl : 3 = number := by
      rw [hload] at hrun
      exact (Failure.inFile.inj (Except.error.inj (Prod.mk.inj (Prod.mk.inj hrun).1).1)).2.1
    rw [hpath] at hrun
    rw [hall] at hconsole
    exact ⟨tree, failure, failure', after, by rwa [hpath] at hfile, hsame, hrun, hconsole⟩
  · have hmem : (number, line) ∈ programLines "\u2003\n a = b@c\t\n  (a\n" := by
      rw [← filter_numberedLines]
      exact List.mem_filter.2 ⟨by simp [hsplit], holdsText_iff.2 htext⟩
    have hblanks : ∀ other ∈ [(2, " a = b@c\t"), (3, "  (a")],
        ∀ c ∈ edges other.2.toList, isBlank c = true := by
      simp only [List.forall_mem_cons]
      exact ⟨List.all_eq_true.1 (by decide), List.all_eq_true.1 (by decide), by simp⟩
    rw [hlines] at hmem
    exact absurd (hblanks _ hmem) hedges

/-- A no-break space in front of a line is taken away on the console, and makes loading fail. -/
theorem load_ne_console_no_break_space : ∃ (tree : DirectoryTree) (after : Session),
    tree.readFile "t" = .ok "\u00a0a = b@c\n".toUTF8 ∧
    numberedLines "\u00a0a = b@c\n" = [(1, "\u00a0a = b@c")] ∧
    ((⟨{ directory := "" }, ∅⟩ : Session).load "t" :
        StateM DirectoryTree (Except Failure Response × Session)).run tree =
      ((.error (.inFile "t" 1 (.parsing (.unrecognised "\u00a0" ⟨0, 2⟩))),
        ⟨{ directory := "" }, ∅⟩), tree) ∧
    ((⟨{ directory := "" }, ∅⟩ : Session).runLines [(1, "\u00a0a = b@c")] :
        StateM DirectoryTree (Except (Nat × Failure) Unit × Session)).run tree =
      ((.ok (), after), tree) ∧
    after.environment.toList = [(⟨"a"⟩, .address "b@c")] := by
  have hlines : programLines "\u00a0a = b@c\n" = [(1, "\u00a0a = b@c")] := by
    decide +kernel
  have hparse : parse "\u00a0a = b@c" = .error (.unrecognised "\u00a0" ⟨0, 2⟩) := by
    decide +kernel
  have hpasses : (Session.evalLines ⟨{ directory := "" }, ∅⟩
      ([(1, "\u00a0a = b@c")].map trimmed)).1 = .ok () := by
    decide +kernel
  have hbound : (Session.evalLines ⟨{ directory := "" }, ∅⟩
      ([(1, "\u00a0a = b@c")].map trimmed)).2.environment.toList =
        [(⟨"a"⟩, .address "b@c")] := by
    decide +kernel
  generalize hsession : (⟨{ directory := "" }, ∅⟩ : Session) = session at hpasses hbound ⊢
  have hdirectory : session.settings.directory = "" := by
    rw [← hsession]
  have hpath := Session.path_of_directory hdirectory
  obtain ⟨tree, hfile⟩ := Session.exists_readFile hdirectory "\u00a0a = b@c\n"
  refine ⟨tree, _, by rwa [hpath] at hfile, by decide +kernel, ?_, ?_, hbound⟩
  · rw [Session.run_load hfile, hlines,
      Session.evalLines_cons_of_error (Session.evalSource_of_parse_error hparse), hpath]
    rfl
  · rw [session.run_runLines (by decide), ← hpasses]

end Roster
