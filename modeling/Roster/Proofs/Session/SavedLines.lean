/-
**A saved text falls into its lines again.**

A saved text has one line for each binding, and the line is the definition of the name as the
expression that is bound to it.  The definition stands in the line without the parentheses that a
rendering would put around it, so that it is not the rendering of any expression; the grammar
derives it all the same, from the name, the sign and the row of the body.

No name, no address and no sign of a rendering holds a line feed or a carriage return.  Hence the
lines of the text are the lines that were written, none of them is blank, and each of them is parsed
to the definition that it was made from.

Main definitions:

* `definitionLine`, `definitionLines`: the line of a definition, and the numbered lines of several;
* `WritableBinding`, `SavableBinding`: a binding that is well spelled, and whose line is short
  enough.

Main results:

* `parse_definitionLine`: **a saved line is parsed to the definition** of its name;
* `textLines_terminated`: lines that are written one after the other are read one after the other;
* `textLines_savedText`, `programLines_savedText`: **the lines of a saved text** are those of the
  bindings, in the order of their names, and none of them is blank;
* `Session.loadContents_savedText`: **loading a saved text** is evaluating these lines.
-/

import Mathlib.Data.List.Basic
import Roster.Proofs.Parse.RoundTrip
import Roster.Proofs.Session.Loading
import Roster.Proofs.Token.WhiteSpace

set_option relaxedAutoImplicit false
set_option autoImplicit false

namespace Roster

/-- The definition of a name as an expression, as it stands in a line. -/
def definitionLine (name : Name) (e : Expr) : String :=
  name.text ++ " = " ++ e.render

theorem savedLine_eq (name : Name) (e : Expr) : savedLine name e = definitionLine name e ++ "\n" :=
  rfl

/-- A binding whose name is spelled as the grammar demands, as are all names and addresses in what
is bound to it. -/
structure WritableBinding (name : Name) (e : Expr) : Prop where
  nameText : NameText name.text.toList
  writable : e.Writable

/-- A binding whose line can be parsed: it is well spelled, and its line is not too long. -/
structure SavableBinding (name : Name) (e : Expr) : Prop extends WritableBinding name e where
  size : (definitionLine name e).utf8ByteSize ≤ Span.limit

/-! ### Parsing a line -/

section

variable {name : Name} {e : Expr}

theorem lexemes_definitionLine (h : WritableBinding name e) :
    lexemes (definitionLine name e).toList =
      (.name, name.text) :: (.equals, "=") :: e.lexemes := by
  have hline : (definitionLine name e).toList =
      name.text.toList ++ ' ' :: '=' :: ' ' :: (e.render.toList ++ []) := by
    simp [definitionLine]
  have hequals : lexemes ('=' :: ' ' :: (e.render.toList ++ [])) =
      (.equals, "=") :: lexemes (e.render.toList ++ []) :=
    (lexemes_symbol (by decide) (by decide) _).trans (congrArg _ (lexemes_space _))
  rw [hline, lexemes_name h.nameText (detached_cons.2 (by decide)), lexemes_space, hequals,
    lexemes_render h.writable detached_nil, lexemes_nil, List.append_nil, String.ofList_toList]

/-- **A saved line is parsed to the definition** that it was made from. -/
theorem parse_definitionLine (h : SavableBinding name e) :
    parse (definitionLine name e) = .ok (.define name e) := by
  have hlexemes := map_lexeme_lex h.size
  rw [lexemes_definitionLine h.toWritableBinding] at hlexemes
  obtain ⟨row, last, hlex, hrow, hlast⟩ := List.map_eq_append_iff.1 hlexemes
  obtain ⟨mark, rfl, hmark⟩ := List.map_eq_singleton_iff.1 hlast
  obtain ⟨word, rest, rfl, hword, hrest⟩ := List.map_eq_cons_iff.1 hrow
  obtain ⟨equals, body, rfl, hequals, hbody⟩ := List.map_eq_cons_iff.1 hrest
  obtain ⟨name⟩ := name
  obtain ⟨hkind, rfl⟩ : word.kind = .name ∧ word.text = name := Prod.mk.inj hword
  have hderives : Derives .definition (word :: equals :: body) (.define ⟨word.text⟩ e) :=
    Derives.definition hkind (Prod.mk.inj hequals).1
      ((derives_lexemes hbody).loosen (Nonterminal.level_le_primary _))
  rw [parse, hlex, readProgram_of_derives (hderives.loosen (Nat.zero_le _)) (Prod.mk.inj hmark).1]

end

/-! ### The characters of a line -/

/-- A text without line feeds and carriage returns. -/
def Unbroken (text : List Char) : Prop :=
  ∀ c ∈ text, c ≠ '\n' ∧ c ≠ '\r'

theorem unbroken_append {first second : List Char} :
    Unbroken (first ++ second) ↔ Unbroken first ∧ Unbroken second :=
  List.forall_mem_append

theorem unbroken_of_isWordChar {text : List Char} (h : ∀ c ∈ text, isWordChar c = true) :
    Unbroken text := by
  refine fun c hc => ⟨?_, ?_⟩ <;> rintro rfl <;> exact absurd (h _ hc) (by decide)

theorem NameText.unbroken {text : List Char} (h : NameText text) : Unbroken text :=
  unbroken_of_isWordChar fun c hc => isWordChar_of_isNameChar (h.chars c hc)

theorem AddressText.unbroken {text : List Char} (h : AddressText text) : Unbroken text := by
  obtain ⟨mailbox, domain, rfl, ⟨-, hmailbox⟩, hdomain⟩ := h
  have hsign : Unbroken ['@'] := by simp [Unbroken]
  exact unbroken_append.2 ⟨unbroken_of_isWordChar hmailbox,
    unbroken_append.2 ⟨hsign, hdomain.unbroken⟩⟩

theorem Expr.Writable.unbroken {e : Expr} (h : e.Writable) : Unbroken e.render.toList := by
  induction e with
  | address text => exact AddressText.unbroken h
  | empty => simp [render, Unbroken]
  | read name => exact NameText.unbroken h
  | combine op left right ihl ihr =>
      have hspelling : Unbroken op.spelling.toList := by
        cases op <;> simp [Operator.spelling, Unbroken]
      simp only [render, String.toList_append, unbroken_append]
      exact ⟨⟨⟨⟨by simp [Unbroken], ihl h.1⟩, hspelling⟩, ihr h.2⟩, by simp [Unbroken]⟩
  | define name body ih =>
      simp only [render, String.toList_append, unbroken_append]
      exact ⟨⟨⟨⟨by simp [Unbroken], h.1.unbroken⟩, by simp [Unbroken]⟩, ih h.2⟩, by simp [Unbroken]⟩

theorem WritableBinding.unbroken {name : Name} {e : Expr} (h : WritableBinding name e) :
    Unbroken (definitionLine name e).toList := by
  simp only [definitionLine, String.toList_append, unbroken_append]
  exact ⟨⟨h.nameText.unbroken, by simp [Unbroken]⟩, h.writable.unbroken⟩

/-! ### Lines -/

/-- A first part that ends at a member of the class is one of the parts that end so. -/
theorem terminated_append_cons {α : Type} {p : α → Bool} {part : List α} {item : α}
    (items : List α) (hpart : ∀ x ∈ part, p x = false) (hitem : p item = true) :
    terminated p (part ++ item :: items) =
      (part :: (terminated p items).1, (terminated p items).2) := by
  simp only [terminated, cutAt_append_cons items hpart hitem, List.dropLast_cons_cons,
    List.getLast_cons_cons]

/-- What is written with a line feed after each line is read line by line. -/
theorem textLines_terminated {lines : List (List Char)} (h : ∀ line ∈ lines, Unbroken line) :
    textLines (lines.flatMap (· ++ ['\n'])) = lines := by
  have hparts : terminated (· == '\n') (lines.flatMap (· ++ ['\n'])) = (lines, []) := by
    induction lines with
    | nil => rfl
    | cons line lines ih =>
        have hline : ∀ c ∈ line, (c == '\n') = false := fun c hc =>
          beq_eq_false_iff_ne.2 (h line List.mem_cons_self c hc).1
        rw [List.flatMap_cons, List.append_assoc, List.singleton_append,
          terminated_append_cons _ hline (beq_self_eq_true _),
          ih fun other hother => h other (List.mem_cons_of_mem _ hother)]
  have hreturns : lines.map dropCarriageReturn = lines.map id := by
    refine List.map_congr_left fun line hline => ?_
    rw [dropCarriageReturn, if_neg, id]
    intro hlast
    exact (h line hline '\r' (List.mem_of_getLast? hlast)).2 rfl
  simp [textLines, hparts, hreturns]

/-- The numbered lines of definitions that are written one after the other. -/
def definitionLines (entries : List (Name × Expr)) (number : Nat) : List (Nat × String) :=
  (entries.zipIdx number).map fun entry => (entry.2, definitionLine entry.1.1 entry.1.2)

theorem exists_entry_of_mem_definitionLines {entries : List (Name × Expr)} {number : Nat}
    {line : Nat × String} (h : line ∈ definitionLines entries number) :
    ∃ entry ∈ entries, line.2 = definitionLine entry.1 entry.2 := by
  obtain ⟨numbered, hnumbered, rfl⟩ := List.mem_map.1 h
  exact ⟨numbered.1, List.fst_mem_of_mem_zipIdx hnumbered, rfl⟩

section

variable {env : Environment}

/-- **A saved text falls into lines**, one for each binding, in the order of the names. -/
theorem textLines_savedText (h : ∀ entry ∈ env.toList, WritableBinding entry.1 entry.2) :
    textLines env.savedText.toList =
      env.toList.map fun entry => (definitionLine entry.1 entry.2).toList := by
  have htext : env.savedText.toList = (env.toList.map fun entry =>
      (definitionLine entry.1 entry.2).toList).flatMap (· ++ ['\n']) := by
    simp [Environment.savedText, savedLine_eq, String.toList_join, List.flatMap_map]
  rw [htext]
  refine textLines_terminated fun line hline => ?_
  obtain ⟨entry, hentry, rfl⟩ := List.mem_map.1 hline
  exact (h entry hentry).unbroken

/-- None of these lines is blank, so that all of them are evaluated when the text is loaded. -/
theorem programLines_savedText (h : ∀ entry ∈ env.toList, WritableBinding entry.1 entry.2) :
    programLines env.savedText = definitionLines env.toList 1 := by
  rw [programLines, textLines_savedText h, List.zipIdx_map, List.filterMap_map, definitionLines,
    ← List.filterMap_eq_map]
  refine List.filterMap_congr fun numbered hnumbered => ?_
  have hentry : numbered.1 ∈ env.toList := List.fst_mem_of_mem_zipIdx hnumbered
  obtain ⟨⟨name, e⟩, number⟩ := numbered
  have hname := (h _ hentry).nameText
  obtain ⟨c, hc⟩ := List.exists_mem_of_ne_nil _ hname.nonempty
  have hline : c ∈ (definitionLine name e).toList := by
    simp [definitionLine, hc]
  have hblank : trim (definitionLine name e).toList ≠ [] :=
    List.ne_nil_of_mem (mem_trim hline (isWhiteSpace_of_isNameChar (hname.chars c hc)))
  simp [hblank]

end

/-! ### Loading -/

namespace Session

/-- A line of a saved text is evaluated as the definition that it was made from. -/
theorem evalSource_definitionLine (session : Session) {name : Name} {e : Expr}
    (h : SavableBinding name e) :
    session.evalSource (definitionLine name e) = session.evalExpr (.define name e) :=
  evalSource_of_parse (parse_definitionLine h)

section

variable {session after : Session} {entry : Name × Expr} {number : Nat}

/-- Once the first line has ended well, the others follow. -/
theorem evalLines_definitionLines_of_ok (h : SavableBinding entry.1 entry.2)
    {addresses : AddressSet} (hrun : session.evalExpr (.define entry.1 entry.2) =
      (.ok addresses, after)) (rest : List (Name × Expr)) :
    session.evalLines (definitionLines (entry :: rest) number) =
      after.evalLines (definitionLines rest (number + 1)) := by
  rw [definitionLines, List.zipIdx_cons, List.map_cons,
    evalLines_cons_of_ok ((session.evalSource_definitionLine h).trans hrun)]
  rfl

/-- If the first line fails, the others are not evaluated. -/
theorem evalLines_definitionLines_of_error (h : SavableBinding entry.1 entry.2)
    {failure : Failure} (hrun : session.evalExpr (.define entry.1 entry.2) =
      (.error failure, after)) (rest : List (Name × Expr)) :
    session.evalLines (definitionLines (entry :: rest) number) =
      (.error (number, failure), after) := by
  rw [definitionLines, List.zipIdx_cons, List.map_cons,
    evalLines_cons_of_error ((session.evalSource_definitionLine h).trans hrun)]

end

/-- **Loading a saved text** is evaluating the lines of its bindings. -/
theorem loadContents_savedText (session : Session) (path : String) {env : Environment}
    (h : ∀ entry ∈ env.toList, WritableBinding entry.1 entry.2) :
    session.loadContents path env.savedText.toUTF8 =
      (loadAnswer path env.size (session.evalLines (definitionLines env.toList 1)).1,
        (session.evalLines (definitionLines env.toList 1)).2) := by
  have hlength : (definitionLines env.toList 1).length = env.size := by
    rw [definitionLines, List.length_map, List.length_zipIdx, Std.ExtTreeMap.length_toList]
  rw [loadContents_toUTF8, programLines_savedText h, hlength]

end Session

end Roster
