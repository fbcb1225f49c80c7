/-
**Loading a file is evaluating its lines as one sequence.**

The lines of a file can be written as one source, each in parentheses and with the sign of a
sequence between them.  If each line can be parsed, so can the source, whatever the lines hold, and
its expression is the sequence of their expressions.  A sequence groups to the left, as the lines
are evaluated: its last part is evaluated in what the parts before it have left, and only if these
have ended well.

Main definitions:

* `sequenceSource`, `Session.sequenceOf`: sources and numbered lines as one source;
* `Session.StopsAt`: the line whose part of the sequence stops it.

Main results:

* `parse_sequenceSource`: **the source of a sequence** is parsed to the sequence of its parts;
* `Session.evalSource_sequence_of_ok`, `Session.evalSource_sequence_of_error`: the last part
  follows the others;
* `Session.evalLines_sequence`: lines and the sequence of them end together;
* `load_eq_sequence`: **a file is loaded as the sequence of its lines** is evaluated.
-/

import Mathlib.Tactic.Choose
import Roster.Proofs.Parse.Chains
import Roster.Proofs.Session.Loading
import Roster.Proofs.Session.Sources

set_option relaxedAutoImplicit false
set_option autoImplicit false

namespace Roster

/-! ### The source of a sequence -/

/-- Sources as one source: each in parentheses, with the sign of a sequence between them. -/
def sequenceSource (sources : List String) : String :=
  Operator.sequence.spelling.intercalate (sources.map fun source => "(" ++ source ++ ")")

@[simp] theorem sequenceSource_nil : sequenceSource [] = "" := rfl

theorem sequenceSource_singleton (source : String) :
    sequenceSource [source] = "(" ++ source ++ ")" :=
  String.intercalate_singleton

theorem sequenceSource_concat {front : List String} (hfront : front ≠ []) (last : String) :
    sequenceSource (front ++ [last]) = sequenceSource front ++ "; " ++ sequenceSource [last] := by
  rw [sequenceSource, List.map_append,
    String.intercalate_append_of_ne_nil (by simpa using hfront) (by simp)]
  rfl

/-- The parts at the front of a sequence are no longer than the whole. -/
theorem utf8ByteSize_sequenceSource_front (front : List String) (last : String) :
    (sequenceSource front).utf8ByteSize ≤ (sequenceSource (front ++ [last])).utf8ByteSize := by
  cases front with
  | nil => exact Nat.zero_le _
  | cons first front =>
      rw [sequenceSource_concat (by simp), String.utf8ByteSize_append, String.utf8ByteSize_append]
      omega

theorem utf8ByteSize_sequenceSource_last (front : List String) (last : String) :
    last.utf8ByteSize ≤ (sequenceSource (front ++ [last])).utf8ByteSize := by
  have hlast : last.utf8ByteSize ≤ (sequenceSource [last]).utf8ByteSize := by
    rw [sequenceSource_singleton, String.utf8ByteSize_append, String.utf8ByteSize_append]
    omega
  cases front with
  | nil => exact hlast
  | cons first front =>
      rw [sequenceSource_concat (by simp), String.utf8ByteSize_append, String.utf8ByteSize_append]
      omega

/-- Each part of a sequence is no longer than the whole. -/
theorem utf8ByteSize_le_sequenceSource {sources : List String} {source : String}
    (h : source ∈ sources) : source.utf8ByteSize ≤ (sequenceSource sources).utf8ByteSize := by
  induction sources using List.reverseRecOn with
  | nil => cases h
  | append_singleton front last ih =>
      rcases List.mem_append.1 h with hfront | hlast
      · exact (ih hfront).trans (utf8ByteSize_sequenceSource_front front last)
      · rw [List.mem_singleton.1 hlast]
        exact utf8ByteSize_sequenceSource_last front last

/-- **The source of a sequence** is parsed to the sequence of its parts. -/
theorem parse_sequenceSource {sources : List String} {exprOf : String → Expr}
    (hparse : ∀ source ∈ sources, parse source = .ok (exprOf source))
    (hsize : (sequenceSource sources).utf8ByteSize ≤ Span.limit) :
    parse (sequenceSource sources) = .ok (Expr.chain .sequence (sources.map exprOf)) := by
  -- a part in parentheses may stand wherever the grammar has an operand
  have hparts : ∀ part ∈ sources.map fun source => ("(" ++ source ++ ")", exprOf source),
      Spells Operator.sequence.link part.1 part.2 := by
    intro part hpart
    obtain ⟨source, hsource, rfl⟩ := List.mem_map.1 hpart
    have hsource' := spells_of_parse ((utf8ByteSize_le_sequenceSource hsource).trans hsize)
      (hparse source hsource)
    exact hsource'.group.loosen (Nonterminal.level_le_primary _)
  have hspells := spells_chain hparts
  rw [List.map_map, List.map_map] at hspells
  exact hspells.parse_eq hsize

/-- The expression of a sequence is that of its last part alone, or that of the other parts and the
last one under the operator. -/
theorem parse_sequenceSource_concat {front : List String} {last : String}
    (hparse : ∀ source ∈ front ++ [last], ∃ e, parse source = .ok e)
    (hsize : (sequenceSource (front ++ [last])).utf8ByteSize ≤ Span.limit) :
    ∃ e e', parse (sequenceSource front) = .ok e ∧ parse last = .ok e' ∧
      (front = [] ∧ parse (sequenceSource (front ++ [last])) = .ok e' ∨
        parse (sequenceSource (front ++ [last])) = .ok (.combine .sequence e e')) := by
  choose! exprOf hexpr using hparse
  have hall := parse_sequenceSource hexpr hsize
  have hfront := parse_sequenceSource
    (fun source hsource => hexpr source (List.mem_append_left _ hsource))
    ((utf8ByteSize_sequenceSource_front front last).trans hsize)
  refine ⟨_, _, hfront, hexpr last (by simp), ?_⟩
  rw [List.map_append, List.map_singleton] at hall
  cases front with
  | nil => exact Or.inl ⟨rfl, hall⟩
  | cons first front =>
      rw [Expr.chain_concat _ (by simp)] at hall
      exact Or.inr hall

/-! ### Its evaluation -/

namespace Session

section

variable {session middle after : Session} {front : List String} {last : String}

/-- The first part of a sequence that fails makes the sequence fail. -/
theorem evalExpr_sequence_of_error {left right : Expr} {failure : Failure}
    (h : session.evalExpr left = (.error failure, after)) :
    session.evalExpr (.combine .sequence left right) = (.error failure, after) := by
  obtain ⟨_, _, -, heval⟩ | ⟨stop, env, hrun, heval⟩ := session.evalExpr_cases left
  · rw [heval] at h
    cases h
  · rw [← h, heval]
    exact evalExpr_of_error (evaluate_combine_of_error (by decide) hrun)

/-- The second part of a sequence is evaluated in what the first one has left. -/
theorem evalExpr_sequence_of_ok {left right : Expr} {addresses : AddressSet}
    (h : session.evalExpr left = (.ok addresses, middle)) :
    session.evalExpr (.combine .sequence left right) = middle.evalExpr right := by
  obtain ⟨_, env, hrun, heval⟩ | ⟨_, _, -, heval⟩ := session.evalExpr_cases left
  · rw [heval] at h
    obtain rfl : { session with environment := env } = middle := (Prod.mk.inj h).2
    have hboth : evaluate session.settings.readBudget (.combine .sequence left right)
        (.base session.environment) = _ :=
      evaluate_combine_of_ok (by decide) hrun
    obtain ⟨_, _, hright, heval'⟩ | ⟨_, _, hright, heval'⟩ :=
      ({ session with environment := env } : Session).evalExpr_cases right
    · rw [heval']
      rw [hright] at hboth
      exact evalExpr_of_ok hboth
    · rw [heval']
      rw [hright] at hboth
      exact evalExpr_of_error hboth
  · rw [heval] at h
    cases h

/-- A sequence without parts does nothing. -/
theorem evalSource_sequence_nil (session : Session) :
    session.evalSource (sequenceSource []) = (.ok ∅, session) := by
  rw [sequenceSource_nil, session.evalSource_empty]

/-- The last part of a sequence is evaluated in what the other parts have left. -/
theorem evalSource_sequence_of_ok
    (hparse : ∀ source ∈ front ++ [last], ∃ e, parse source = .ok e)
    (hsize : (sequenceSource (front ++ [last])).utf8ByteSize ≤ Span.limit) {addresses : AddressSet}
    (h : session.evalSource (sequenceSource front) = (.ok addresses, middle)) :
    session.evalSource (sequenceSource (front ++ [last])) = middle.evalSource last := by
  obtain ⟨e, e', hfront, hlast, ⟨rfl, hall⟩ | hall⟩ := parse_sequenceSource_concat hparse hsize
  · rw [evalSource_sequence_nil] at h
    obtain rfl : session = middle := (Prod.mk.inj h).2
    rw [evalSource_of_parse hall, evalSource_of_parse hlast]
  · rw [evalSource_of_parse hfront] at h
    rw [evalSource_of_parse hall, evalSource_of_parse hlast, evalExpr_sequence_of_ok h]

/-- If one of the other parts fails, the last one is not evaluated. -/
theorem evalSource_sequence_of_error
    (hparse : ∀ source ∈ front ++ [last], ∃ e, parse source = .ok e)
    (hsize : (sequenceSource (front ++ [last])).utf8ByteSize ≤ Span.limit) {failure : Failure}
    (h : session.evalSource (sequenceSource front) = (.error failure, after)) :
    session.evalSource (sequenceSource (front ++ [last])) = (.error failure, after) := by
  obtain ⟨e, e', hfront, -, ⟨rfl, -⟩ | hall⟩ := parse_sequenceSource_concat hparse hsize
  · rw [evalSource_sequence_nil] at h
    cases h
  · rw [evalSource_of_parse hfront] at h
    rw [evalSource_of_parse hall, evalExpr_sequence_of_error h]

end

/-! ### Lines as a sequence -/

/-- The source of numbered lines as one sequence. -/
def sequenceOf (lines : List (Nat × String)) : String :=
  sequenceSource (lines.map Prod.snd)

/-- **The line that stops a sequence of lines**, with its number: the lines before it are evaluated,
and what they have left is what this line stops in. -/
def StopsAt (session : Session) (lines : List (Nat × String)) (number : Nat) (line : String)
    (stop : Stop) (after : Session) : Prop :=
  ∃ earlier later addresses middle, lines = earlier ++ (number, line) :: later ∧
    session.evalSource (sequenceOf earlier) = (.ok addresses, middle) ∧
    middle.evalSource line = (.error (.ofStop stop), after)

section

variable {session after : Session} {lines : List (Nat × String)} {number : Nat} {line : String}
  {stop : Stop}

theorem StopsAt.append (h : session.StopsAt lines number line stop after)
    (more : List (Nat × String)) : session.StopsAt (lines ++ more) number line stop after := by
  obtain ⟨earlier, later, addresses, middle, rfl, hbefore, hline⟩ := h
  exact ⟨earlier, later ++ more, addresses, middle, by simp, hbefore, hline⟩

theorem StopsAt.mem (h : session.StopsAt lines number line stop after) :
    (number, line) ∈ lines := by
  obtain ⟨earlier, later, addresses, middle, rfl, -, -⟩ := h
  simp

end

/-- Lines and the sequence of them end well together, or the same part stops both. -/
theorem evalLines_sequence (session : Session) {lines : List (Nat × String)}
    (hparse : ∀ line ∈ lines, ∃ e, parse line.2 = .ok e)
    (hsize : (sequenceOf lines).utf8ByteSize ≤ Span.limit) :
    (∃ addresses after, session.evalSource (sequenceOf lines) = (.ok addresses, after) ∧
        session.evalLines lines = (.ok (), after)) ∨
      ∃ number line stop after,
        session.evalSource (sequenceOf lines) = (.error (.ofStop stop), after) ∧
        session.evalLines lines = (.error (number, .ofStop stop), after) ∧
        session.StopsAt lines number line stop after := by
  -- the last line is taken off, as this is where the sequence falls apart
  induction lines using List.reverseRecOn with
  | nil => exact Or.inl ⟨∅, session, session.evalSource_sequence_nil, rfl⟩
  | append_singleton front line ih =>
      have hsources : ∀ source ∈ front.map Prod.snd ++ [line.2], ∃ e, parse source = .ok e := by
        intro source hsource
        rcases List.mem_append.1 hsource with hfront | hlast
        · obtain ⟨other, hother, rfl⟩ := List.mem_map.1 hfront
          exact hparse other (List.mem_append_left _ hother)
        · rw [List.mem_singleton.1 hlast]
          exact hparse line (by simp)
      have hsequence : sequenceOf (front ++ [line]) =
          sequenceSource (front.map Prod.snd ++ [line.2]) := by
        rw [sequenceOf, List.map_append, List.map_singleton]
      rw [hsequence] at hsize ⊢
      obtain ⟨addresses, middle, hfront, hlines⟩ |
          ⟨number, stopped, stop, after, hfront, hlines, hstops⟩ :=
        ih (fun other hother => hparse other (List.mem_append_left _ hother))
          ((utf8ByteSize_sequenceSource_front _ _).trans hsize)
      · rw [evalSource_sequence_of_ok hsources hsize hfront, evalLines_append_of_ok hlines]
        obtain ⟨e, he⟩ := hparse line (by simp)
        have hlast : middle.evalSource line.2 = middle.evalExpr e := evalSource_of_parse he
        obtain ⟨addresses', _, -, heval⟩ | ⟨stop, _, -, heval⟩ := middle.evalExpr_cases e
        · rw [heval] at hlast
          exact Or.inl ⟨addresses', _, hlast, evalLines_cons_of_ok hlast []⟩
        · rw [heval] at hlast
          exact Or.inr ⟨line.1, line.2, stop, _, hlast, evalLines_cons_of_error hlast [],
            front, [], addresses, middle, rfl, hfront, hlast⟩
      · rw [evalSource_sequence_of_error hsources hsize hfront, evalLines_append_of_error hlines]
        exact Or.inr ⟨number, stopped, stop, after, rfl, rfl, hstops.append _⟩

end Session

/-- **A file is loaded as the sequence of its lines is evaluated.**  Let the file hold a text whose
lines, without those that hold white space only, can each be parsed.  Then the file is loaded if and
only if the sequence of these lines ends well, and both leave the same session.  If the sequence
stops, loading reports why, with the number of the line that has stopped it. -/
theorem load_eq_sequence {session : Session} {file text : String} {tree : DirectoryTree}
    (hfile : tree.readFile (session.path file) = .ok text.toUTF8)
    (hparse : ∀ line ∈ programLines text, ∃ e, parse line.2 = .ok e)
    (hsize : (Session.sequenceOf (programLines text)).utf8ByteSize ≤ Span.limit) :
    (∃ addresses after,
        session.evalSource (Session.sequenceOf (programLines text)) = (.ok addresses, after) ∧
        (session.load file : StateM DirectoryTree (Except Failure Response × Session)).run tree =
          ((.ok (.loaded (session.path file) (programLines text).length), after), tree)) ∨
      ∃ number line stop after,
        session.evalSource (Session.sequenceOf (programLines text)) =
          (.error (.ofStop stop), after) ∧
        (session.load file : StateM DirectoryTree (Except Failure Response × Session)).run tree =
          ((.error (.inFile (session.path file) number (.ofStop stop)), after), tree) ∧
        session.StopsAt (programLines text) number line stop after ∧
        1 ≤ number ∧ (textLines text.toList)[number - 1]? = some line.toList := by
  rw [Session.run_load hfile]
  obtain ⟨addresses, after, heval, hlines⟩ |
      ⟨number, line, stop, after, heval, hlines, hstops⟩ :=
    session.evalLines_sequence hparse hsize
  · rw [hlines]
    exact Or.inl ⟨addresses, after, heval, rfl⟩
  · obtain ⟨hpositive, hline, -⟩ := getElem_of_mem_programLines hstops.mem
    rw [hlines]
    exact Or.inr ⟨number, line, stop, after, heval, rfl, hstops, hpositive, hline⟩

/-- The blank line is no part of the sequence, and counts as a line.  The first line binds `b` as
well, so that `b` may not be defined by `a` in the third. -/
theorem load_eq_sequence_cycle : ∃ (tree : DirectoryTree) (after : Session),
    tree.readFile "t" = .ok "a = b\n\nb = a\n".toUTF8 ∧
    (⟨{ directory := "" }, ∅⟩ : Session).evalSource "(a = b); (b = a)" =
      (.error (.evaluation (.cycle ⟨"b"⟩ ⟨"a"⟩)), after) ∧
    ((⟨{ directory := "" }, ∅⟩ : Session).load "t" :
        StateM DirectoryTree (Except Failure Response × Session)).run tree =
      ((.error (.inFile "t" 3 (.evaluation (.cycle ⟨"b"⟩ ⟨"a"⟩))), after), tree) := by
  have hlines : programLines "a = b\n\nb = a\n" = [(1, "a = b"), (3, "b = a")] := by
    decide +kernel
  have hsource : Session.sequenceOf [(1, "a = b"), (3, "b = a")] = "(a = b); (b = a)" := by
    decide +kernel
  have hfails : (Session.evalLines ⟨{ directory := "" }, ∅⟩ [(1, "a = b"), (3, "b = a")]).1 =
      .error (3, .evaluation (.cycle ⟨"b"⟩ ⟨"a"⟩)) := by
    decide +kernel
  have hparse : ∀ line ∈ programLines "a = b\n\nb = a\n", ∃ e, parse line.2 = .ok e := by
    rw [hlines]
    simp only [List.forall_mem_cons]
    exact ⟨⟨.define ⟨"a"⟩ (.read ⟨"b"⟩), by decide +kernel⟩,
      ⟨.define ⟨"b"⟩ (.read ⟨"a"⟩), by decide +kernel⟩, by simp⟩
  generalize hsession : (⟨{ directory := "" }, ∅⟩ : Session) = session at hfails ⊢
  have hdirectory : session.settings.directory = "" := by
    rw [← hsession]
  have hpath := Session.path_of_directory hdirectory
  obtain ⟨tree, hfile⟩ := Session.exists_readFile hdirectory "a = b\n\nb = a\n"
  have hload := Session.run_load hfile
  rw [hlines, hfails] at hload
  obtain ⟨_, after, -, hrun⟩ | ⟨number, line, stop, after, heval, hrun, -⟩ :=
    load_eq_sequence hfile hparse (by rw [hlines, hsource]; decide)
  · rw [hload] at hrun
    cases hrun
  · rw [hlines, hsource] at heval
    rw [hload] at hrun
    obtain ⟨hanswer, hafter⟩ := Prod.mk.inj (Prod.mk.inj hrun).1
    obtain ⟨-, rfl, hstop⟩ := Failure.inFile.inj (Except.error.inj hanswer)
    refine ⟨tree, after, by rwa [hpath] at hfile, ?_, ?_⟩
    · rw [hstop]
      exact heval
    · rw [hload, hpath, hafter]
      rfl

end Roster
