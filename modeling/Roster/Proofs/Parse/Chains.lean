/-
**Sources that are put together from sources.**

A source is not only something to be parsed as a whole.  It spells an expression as one of the
nonterminals, and may then stand wherever the grammar has this nonterminal: in parentheses, or as
an operand.  That it has the same lexemes there is due to the signs around it, with which no word
goes on.

Operands with one operator between them group to the left, and a row without operands is the empty
list.

Main definitions:

* `Spells`: a source spells an expression as a nonterminal;
* `Expr.chain`: expressions in a row, with an operator between them.

Main results:

* `spells_of_parse`, `Spells.parse_eq`: **a source spells what it is parsed to**, and the other way
  round;
* `Spells.group`, `Spells.combine`: parentheses and operators;
* `spells_chain`: **operands in a row** spell their chain.
-/

import Mathlib.Data.List.Induction
import Roster.Proofs.Parse.RoundTrip
import Roster.Proofs.Parse.Spacing

set_option relaxedAutoImplicit false
set_option autoImplicit false

namespace Roster

/-- A source spells an expression as a nonterminal: the nonterminal derives the expression from all
tokens with the lexemes of the source, wherever they stand. -/
def Spells (n : Nonterminal) (source : String) (e : Expr) : Prop :=
  ∀ row : List Token, row.map Token.lexeme = lexemes source.toList → Derives n row e

section

variable {m n : Nonterminal} {source source' : String} {e e' : Expr}

theorem Spells.loosen (h : Spells n source e) (hlevel : m.level ≤ n.level) : Spells m source e :=
  fun row hrow => (h row hrow).loosen hlevel

/-- Nothing spells the empty list. -/
theorem spells_empty : Spells .primary "" .empty := by
  intro row hrow
  have hnil : row.map Token.lexeme = [] := hrow.trans lexemes_nil
  rw [List.map_eq_nil_iff.1 hnil]
  exact .nothing

theorem spells_address (h : AddressText source.toList) :
    Spells .primary source (.address source) := by
  intro row hrow
  have hlexemes := lexemes_address h detached_nil
  rw [List.append_nil, lexemes_nil, String.ofList_toList] at hlexemes
  rw [hlexemes] at hrow
  obtain ⟨word, rfl, hword⟩ := List.map_eq_singleton_iff.1 hrow
  obtain ⟨hkind, rfl⟩ : word.kind = .address ∧ word.text = source := Prod.mk.inj hword
  exact .address hkind

/-- **A source spells what it is parsed to.** -/
theorem spells_of_parse (hsize : source.utf8ByteSize ≤ Span.limit) (h : parse source = .ok e) :
    Spells .parallel source e := by
  intro row hrow
  -- the tokens of the row and a mark of the end are read as the tokens of the source are
  obtain ⟨mark, hmark⟩ : ∃ mark : Token, mark.lexeme = (.finish, "") :=
    ⟨⟨.finish, default, ""⟩, rfl⟩
  have hrowKinds : ∀ token ∈ row, token.kind ≠ .finish := by
    intro token htoken
    have hmem : token.lexeme ∈ lexemes source.toList := by
      rw [← hrow]
      exact List.mem_map_of_mem htoken
    exact kind_ne_finish_of_mem_lexemes hmem
  have hlexemes : (row ++ [mark]).map Token.lexeme = (lex source).map Token.lexeme := by
    rw [List.map_append, List.map_singleton, hrow, hmark, map_lexeme_lex hsize]
  have hread := shifted_readProgram hlexemes
  rw [← parse, h] at hread
  generalize hanswer : (readProgram (row ++ [mark])).1 = answer at hread
  cases hread with
  | ok heq =>
      subst heq
      have hderives := readProgram_eq_ok_iff.1 hanswer
      rwa [beforeEnd_append_mark hrowKinds (Prod.mk.inj hmark).1] at hderives

/-- A source is parsed to what it spells. -/
theorem Spells.parse_eq (h : Spells n source e) (hsize : source.utf8ByteSize ≤ Span.limit) :
    parse source = .ok e := by
  obtain ⟨row, last, hlex, hrow, hlast⟩ := List.map_eq_append_iff.1 (map_lexeme_lex hsize)
  obtain ⟨mark, rfl, hmark⟩ := List.map_eq_singleton_iff.1 hlast
  have hderives := (h row hrow).loosen (m := .parallel) (Nat.zero_le _)
  rw [parse, hlex, readProgram_of_derives hderives (Prod.mk.inj hmark).1]

/-- A source in parentheses is an operand, whatever it holds. -/
theorem Spells.group (h : Spells .parallel source e) :
    Spells .primary ("(" ++ source ++ ")") e := by
  intro row hrow
  have hclosing : Detached [')'] := detached_cons.2 (by decide)
  have hlexemes : lexemes ("(" ++ source ++ ")").toList =
      (.opening, "(") :: lexemes source.toList ++ [(.closing, ")")] := by
    have htext : ("(" ++ source ++ ")").toList = '(' :: (source.toList ++ [')']) := by simp
    rw [htext, lexemes_opening, lexemes_append hclosing, lexemes_closing, lexemes_nil,
      List.cons_append]
  rw [hlexemes] at hrow
  exact derives_of_group hrow h

/-- Two sources with an operator between them. -/
theorem Spells.combine {op : Operator} (h : Spells op.chain source e)
    (h' : Spells op.link source' e') :
    Spells op.chain (source ++ op.spelling ++ source') (.combine op e e') := by
  intro row hrow
  rw [String.toList_append, String.toList_append, List.append_assoc,
    lexemes_append (detached_spelling op _), lexemes_spelling] at hrow
  obtain ⟨left, rest, rfl, hleft, hrest⟩ := List.map_eq_append_iff.1 hrow
  obtain ⟨sign, right, rfl, hsign, hright⟩ := List.map_eq_cons_iff.1 hrest
  exact .chain op (h left hleft) (Prod.mk.inj hsign).1 (h' right hright)

end

/-! ### Operands in a row -/

/-- Expressions in a row with an operator between them, which groups to the left.  Without
expressions this is the empty list. -/
def Expr.chain (op : Operator) : List Expr → Expr
  | [] => .empty
  | e :: rest => rest.foldl (.combine op) e

@[simp] theorem Expr.chain_nil (op : Operator) : Expr.chain op [] = .empty := rfl

@[simp] theorem Expr.chain_singleton (op : Operator) (e : Expr) : Expr.chain op [e] = e := rfl

theorem Expr.chain_concat (op : Operator) {front : List Expr} (hfront : front ≠ []) (e : Expr) :
    Expr.chain op (front ++ [e]) = .combine op (Expr.chain op front) e := by
  cases front with
  | nil => exact absurd rfl hfront
  | cons first front => rw [chain, List.cons_append, chain, List.foldl_append]; rfl

/-- **Operands in a row** spell their chain. -/
theorem spells_chain {op : Operator} {parts : List (String × Expr)}
    (h : ∀ part ∈ parts, Spells op.link part.1 part.2) :
    Spells op.chain (op.spelling.intercalate (parts.map Prod.fst))
      (Expr.chain op (parts.map Prod.snd)) := by
  induction parts using List.reverseRecOn with
  | nil => exact spells_empty.loosen (Nonterminal.level_le_primary _)
  | append_singleton front part ih =>
      have hpart : Spells op.link part.1 part.2 := h part (by simp)
      have hfront := ih fun other hother => h other (List.mem_append_left _ hother)
      rw [List.map_append, List.map_append, List.map_singleton, List.map_singleton]
      cases front with
      | nil =>
          have hlevel : op.chain.level ≤ op.link.level := by simp
          rw [List.map_nil, List.nil_append, String.intercalate_singleton]
          exact hpart.loosen hlevel
      | cons first front =>
          rw [String.intercalate_append_of_ne_nil (by simp) (by simp),
            String.intercalate_singleton, Expr.chain_concat op (by simp)]
          exact hfront.combine hpart

end Roster
