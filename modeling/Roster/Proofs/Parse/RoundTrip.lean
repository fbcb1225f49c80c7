/-
**Renderings are read back.**

A rendering is written in two steps, and is read back in the same two steps.  An expression is a row
of lexemes, and the grammar derives the expression from this row: every operator and every
definition stands in a group of its own, so that the row is a single operand whatever it holds.

The rendering is the row of lexemes with blanks around some of them.  That no lexeme of it runs into
the next one is due to the signs between them.

Main definitions:

* `Expr.lexemes`: the row of lexemes of an expression.

Main results:

* `lexemes_render`: the lexemes of a rendering, in front of any text that does not go on with it;
* `derives_lexemes`: **the row of an expression derives it**;
* `parse_render`: **a rendering is parsed to the expression that was rendered**.
-/

import Roster.Expr.Render
import Roster.Proofs.Parse.Acceptance

set_option relaxedAutoImplicit false
set_option autoImplicit false

namespace Roster

/-! ### The lexemes of an expression -/

/-- The sign of an operator. -/
def Operator.sign : Operator → Char
  | union => ','
  | difference => '!'
  | intersection => '*'
  | sequence => ';'
  | parallel => '|'

/-- The lexemes of the rendering of an expression. -/
def Expr.lexemes : Expr → List (TokenKind × String)
  | .address text => [(.address, text)]
  | .empty => []
  | .read name => [(.name, name.text)]
  | .combine op left right =>
    (.opening, "(") :: left.lexemes ++
      (.operator op, String.ofList [op.sign]) :: right.lexemes ++ [(.closing, ")")]
  | .define name body =>
    (.opening, "(") :: (.name, name.text) :: (.equals, "=") :: body.lexemes ++ [(.closing, ")")]

/-! ### From the rendering to its lexemes -/

theorem lexemes_opening (cs : List Char) : lexemes ('(' :: cs) = (.opening, "(") :: lexemes cs :=
  lexemes_symbol (by decide) (by decide) cs

theorem lexemes_closing (cs : List Char) : lexemes (')' :: cs) = (.closing, ")") :: lexemes cs :=
  lexemes_symbol (by decide) (by decide) cs

theorem lexemes_space (cs : List Char) : lexemes (' ' :: cs) = lexemes cs :=
  lexemes_blank (by decide) cs

theorem lexemes_sign (op : Operator) (cs : List Char) :
    lexemes (op.sign :: cs) = (.operator op, String.ofList [op.sign]) :: lexemes cs := by
  cases op <;> exact lexemes_symbol (by decide) (by decide) cs

/-- An operator is written with its sign, and with blanks that make no difference. -/
theorem lexemes_spelling (op : Operator) (cs : List Char) :
    lexemes (op.spelling.toList ++ cs) =
      (.operator op, String.ofList [op.sign]) :: lexemes cs := by
  have hsign : lexemes (op.sign :: ' ' :: cs) =
      (.operator op, String.ofList [op.sign]) :: lexemes cs := by
    rw [lexemes_sign, lexemes_space]
  cases op with
  | union => exact hsign
  | difference => exact (lexemes_space _).trans hsign
  | intersection => exact (lexemes_space _).trans hsign
  | sequence => exact hsign
  | parallel => exact (lexemes_space _).trans hsign

theorem detached_spelling (op : Operator) (cs : List Char) :
    Detached (op.spelling.toList ++ cs) := by
  cases op <;> exact detached_cons.2 (by decide)

/-- The lexemes of a rendering in front of a text that does not go on with it. -/
theorem lexemes_render {e : Expr} (h : e.Writable) {rest : List Char} (hrest : Detached rest) :
    lexemes (e.render.toList ++ rest) = e.lexemes ++ lexemes rest := by
  induction e generalizing rest with
  | address text =>
      rw [Expr.render, lexemes_address h hrest, String.ofList_toList]
      rfl
  | empty => rfl
  | read name =>
      rw [Expr.render, lexemes_name h hrest, String.ofList_toList]
      rfl
  | combine op left right ihl ihr =>
      have hrender : (Expr.combine op left right).render.toList ++ rest =
          '(' :: (left.render.toList ++ (op.spelling.toList ++
            (right.render.toList ++ ')' :: rest))) := by
        simp [Expr.render]
      have hclosing : Detached (')' :: rest) := detached_cons.2 (by decide)
      rw [hrender, lexemes_opening, ihl h.1 (detached_spelling op _), lexemes_spelling,
        ihr h.2 hclosing, lexemes_closing]
      simp [Expr.lexemes]
  | define name body ih =>
      have hrender : (Expr.define name body).render.toList ++ rest =
          '(' :: (name.text.toList ++ ' ' :: '=' :: ' ' ::
            (body.render.toList ++ ')' :: rest)) := by
        simp [Expr.render]
      have hclosing : Detached (')' :: rest) := detached_cons.2 (by decide)
      have hequals : lexemes ('=' :: ' ' :: (body.render.toList ++ ')' :: rest)) =
          (.equals, "=") :: lexemes (body.render.toList ++ ')' :: rest) :=
        (lexemes_symbol (by decide) (by decide) _).trans (congrArg _ (lexemes_space _))
      rw [hrender, lexemes_opening, lexemes_name h.1 (detached_cons.2 (by decide)), lexemes_space,
        hequals, ih h.2 hclosing, lexemes_closing, String.ofList_toList]
      simp [Expr.lexemes]

/-! ### From the lexemes to the expression -/

/-- A row in parentheses derives what the row between them derives. -/
theorem derives_of_group {e : Expr} {inner : List (TokenKind × String)} {tokens : List Token}
    (htokens : tokens.map Token.lexeme = (.opening, "(") :: inner ++ [(.closing, ")")])
    (hinner : ∀ row : List Token, row.map Token.lexeme = inner → Derives .parallel row e) :
    Derives .primary tokens e := by
  obtain ⟨front, last, rfl, hfront, hlast⟩ := List.map_eq_append_iff.1 htokens
  obtain ⟨opening, row, rfl, hopening, hrow⟩ := List.map_eq_cons_iff.1 hfront
  obtain ⟨closing, rfl, hclosing⟩ := List.map_eq_singleton_iff.1 hlast
  exact Derives.group (Prod.mk.inj hopening).1 (hinner row hrow) (Prod.mk.inj hclosing).1

/-- The row of an expression derives it, as a single operand. -/
theorem derives_lexemes {e : Expr} {tokens : List Token}
    (htokens : tokens.map Token.lexeme = e.lexemes) : Derives .primary tokens e := by
  induction e generalizing tokens with
  | address text =>
      obtain ⟨word, rfl, hword⟩ := List.map_eq_singleton_iff.1 htokens
      obtain ⟨hkind, rfl⟩ : word.kind = .address ∧ word.text = text := Prod.mk.inj hword
      exact Derives.address hkind
  | empty =>
      rw [List.map_eq_nil_iff.1 htokens]
      exact Derives.nothing
  | read name =>
      obtain ⟨name⟩ := name
      obtain ⟨word, rfl, hword⟩ := List.map_eq_singleton_iff.1 htokens
      obtain ⟨hkind, rfl⟩ : word.kind = .name ∧ word.text = name := Prod.mk.inj hword
      exact Derives.name hkind
  | combine op left right ihl ihr =>
      refine derives_of_group htokens fun row hrow => ?_
      obtain ⟨lefts, rest, rfl, hlefts, hrest⟩ := List.map_eq_append_iff.1 hrow
      obtain ⟨sign, rights, rfl, hsign, hrights⟩ := List.map_eq_cons_iff.1 hrest
      have hleft : Derives op.chain lefts left :=
        (ihl hlefts).loosen (Nonterminal.level_le_primary _)
      have hright : Derives op.link rights right :=
        (ihr hrights).loosen (Nonterminal.level_le_primary _)
      exact (Derives.chain op hleft (Prod.mk.inj hsign).1 hright).loosen (Nat.zero_le _)
  | define name body ih =>
      obtain ⟨name⟩ := name
      refine derives_of_group htokens fun row hrow => ?_
      obtain ⟨word, rest, rfl, hword, hrest⟩ := List.map_eq_cons_iff.1 hrow
      obtain ⟨equals, bodies, rfl, hequals, hbodies⟩ := List.map_eq_cons_iff.1 hrest
      obtain ⟨hkind, rfl⟩ : word.kind = .name ∧ word.text = name := Prod.mk.inj hword
      have hbody : Derives .definition bodies body :=
        (ih hbodies).loosen (Nonterminal.level_le_primary _)
      exact (Derives.definition hkind (Prod.mk.inj hequals).1 hbody).loosen (Nat.zero_le _)

/-! ### The round trip -/

/-- The tokens of a row of lexemes and the mark of the end are read as the expression. -/
theorem readProgram_lexemes (e : Expr) {tokens : List Token}
    (htokens : tokens.map Token.lexeme = e.lexemes ++ [(.finish, "")]) :
    (readProgram tokens).1 = .ok e := by
  obtain ⟨row, last, rfl, hrow, hlast⟩ := List.map_eq_append_iff.1 htokens
  obtain ⟨mark, rfl, hmark⟩ := List.map_eq_singleton_iff.1 hlast
  have hmark : mark.kind = .finish := (Prod.mk.inj hmark).1
  have hderives : Derives .parallel row e := (derives_lexemes hrow).loosen (Nat.zero_le _)
  rw [readProgram_of_derives hderives hmark]

/-- **A rendering is parsed to the expression that was rendered**, if its names and addresses can
be written and the spans reach to its end. -/
theorem parse_render {e : Expr} (hwritable : e.Writable)
    (hsize : e.render.utf8ByteSize ≤ Span.limit) : parse e.render = .ok e := by
  have hlexemes : lexemes e.render.toList = e.lexemes := by
    have h := lexemes_render hwritable detached_nil
    rwa [List.append_nil, lexemes_nil, List.append_nil] at h
  rw [parse]
  exact readProgram_lexemes e (by rw [map_lexeme_lex hsize, hlexemes])

/-- Empty operands beside each other, and a definition inside a sequence. -/
theorem parse_render_nested :
    parse "((room.a = (alice+1@mit.edu, (room.a ! ))); (( * ) | ))" =
      .ok (.combine .sequence
        (.define ⟨"room.a"⟩ (.combine .union (.address "alice+1@mit.edu")
          (.combine .difference (.read ⟨"room.a"⟩) .empty)))
        (.combine .parallel (.combine .intersection .empty .empty) .empty)) := by
  have hname : NameText "room.a".toList := ⟨by decide, List.all_eq_true.1 rfl⟩
  have haddress : AddressText "alice+1@mit.edu".toList :=
    ⟨"alice+1".toList, "mit.edu".toList, rfl, ⟨by decide, List.all_eq_true.1 rfl⟩,
      ⟨by decide, List.all_eq_true.1 rfl⟩⟩
  exact @parse_render (.combine .sequence
    (.define ⟨"room.a"⟩ (.combine .union (.address "alice+1@mit.edu")
      (.combine .difference (.read ⟨"room.a"⟩) .empty)))
    (.combine .parallel (.combine .intersection .empty .empty) .empty))
    ⟨⟨hname, haddress, hname, trivial⟩, ⟨trivial, trivial⟩, trivial⟩ (by decide +kernel)

end Roster
