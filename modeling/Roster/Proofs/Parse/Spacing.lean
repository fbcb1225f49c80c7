/-
**Blanks around tokens make no difference.**

A reading looks at the kinds and at the texts of tokens.  It never looks at their places: it only
carries them along, into the groups that are open and into the errors that it reports.  So two rows
of tokens that differ in nothing but the places have the same expression, or errors that differ in
nothing but the place, and the two places are those of the same token.

Blanks that are put around the tokens of a source move the tokens and change nothing else.

Main definitions:

* `Shifted`: two answers of a reading that agree up to a relation between places;
* `SamePlace`: the places of the same token in two rows.

Main results:

* `shifted_step`: **one step of a reading carries places along**;
* `shifted_readFrom`, `shifted_readProgram`: so does a whole reading;
* `insert_blanks`: **blanks around the tokens of a source make no difference**.
-/

import Mathlib.Data.List.Forall2
import Roster.Parse.Program
import Roster.Proofs.Token.Boundaries

set_option relaxedAutoImplicit false
set_option autoImplicit false

namespace Roster

/-! ### Moving tokens -/

/-- The same error at another place. -/
def ParseError.withSpan : ParseError → Span → ParseError
  | misplaced found expected _, span => misplaced found expected span
  | unrecognised text _, span => unrecognised text span
  | unclosed _, span => unclosed span
  | undefinable _, span => undefinable span

section

variable (shift : Span → Span → Prop)

/-- A token at another place. -/
structure Token.Shifted (token token' : Token) : Prop where
  lexeme : token'.lexeme = token.lexeme
  span : shift token.span token'.span

/-- An error of the same kind, with the same details, at another place. -/
structure ParseError.Shifted (error error' : ParseError) : Prop where
  details : error' = error.withSpan error'.span
  span : shift error.span error'.span

/-- A group that was opened at another place. -/
structure OpenGroup.Shifted (group group' : OpenGroup) : Prop where
  waiting : group'.waiting = group.waiting
  opened : shift group.opened group'.opened

/-- A state whose groups were opened at other places. -/
structure ReadState.Shifted (state state' : ReadState) : Prop where
  waiting : state'.waiting = state.waiting
  position : state'.position = state.position
  groups : List.Forall₂ (OpenGroup.Shifted shift) state.groups state'.groups

/-- Two answers of a reading that agree up to the places: what is read is the same, and so are the
errors. -/
inductive Shifted {α : Type} (same : α → α → Prop) :
    Except ParseError α → Except ParseError α → Prop
  | ok {a a' : α} : same a a' → Shifted same (.ok a) (.ok a')
  | error {error error' : ParseError} : error.Shifted shift error' →
      Shifted same (.error error) (.error error')

end

/-! ### Readings -/

section

variable {shift : Span → Span → Prop} {token token' : Token} {state state' : ReadState}

theorem Token.Shifted.ofToken (h : token.Shifted shift token') (expected : Expectation) :
    (ParseError.ofToken token expected).Shifted shift (ParseError.ofToken token' expected) := by
  obtain ⟨kind, span, text⟩ := token
  obtain ⟨kind', span', text'⟩ := token'
  obtain ⟨⟨⟩, hspan⟩ := h
  unfold ParseError.ofToken
  split
  · exact ⟨rfl, hspan⟩
  · exact ⟨rfl, hspan⟩

theorem ReadState.Shifted.expectation_eq (h : state.Shifted shift state') :
    state'.expectation = state.expectation := by
  have hgroups := h.groups
  unfold ReadState.expectation
  cases hleft : state.groups <;> cases hright : state'.groups <;> rw [hleft, hright] at hgroups <;>
    first | rfl | cases hgroups

theorem shifted_afterOperand (hstate : state.Shifted shift state') (e : Expr)
    (target : Option Name) (htoken : token.Shifted shift token') :
    Shifted shift (ReadState.Shifted shift) (state.afterOperand e target token)
      (state'.afterOperand e target token') := by
  have hkind : token'.kind = token.kind := (Prod.mk.inj htoken.lexeme).1
  have hexpectation := hstate.expectation_eq
  obtain ⟨waiting, groups, position⟩ := state
  obtain ⟨waiting', groups', position'⟩ := state'
  obtain ⟨rfl, rfl, hgroups⟩ := hstate
  unfold ReadState.afterOperand
  rw [hkind, hexpectation]
  cases token.kind with
  | operator op => exact .ok ⟨rfl, rfl, hgroups⟩
  | equals =>
      cases target with
      | none => exact .error ⟨rfl, htoken.span⟩
      | some name => exact .ok ⟨rfl, rfl, hgroups⟩
  | closing =>
      cases hgroups with
      | nil => exact .error (htoken.ofToken _)
      | cons hgroup hgroups =>
          exact .ok ⟨hgroup.waiting, rfl, hgroups⟩
  | address | name | opening | unknown | finish => exact .error (htoken.ofToken _)

/-- **One step of a reading carries places along.** -/
theorem shifted_step (hstate : state.Shifted shift state') (htoken : token.Shifted shift token') :
    Shifted shift (ReadState.Shifted shift) (state.step token) (state'.step token') := by
  obtain ⟨hkind, htext⟩ : token'.kind = token.kind ∧ token'.text = token.text :=
    Prod.mk.inj htoken.lexeme
  unfold ReadState.step
  rw [hstate.position, hstate.waiting]
  cases state.position with
  | operator e target => exact shifted_afterOperand hstate e target htoken
  | operand =>
      simp only [hkind, htext]
      cases token.kind with
      | address => exact .ok ⟨rfl, rfl, hstate.groups⟩
      | name => exact .ok ⟨rfl, rfl, hstate.groups⟩
      | opening => exact .ok ⟨rfl, rfl, .cons ⟨rfl, htoken.span⟩ hstate.groups⟩
      | operator op => exact shifted_afterOperand hstate .empty none htoken
      | closing => exact shifted_afterOperand hstate .empty none htoken
      | finish => exact shifted_afterOperand hstate .empty none htoken
      | equals => exact .error (htoken.ofToken .operand)
      | unknown => exact .error (htoken.ofToken .operand)

theorem shifted_finish (h : state.Shifted shift state') :
    Shifted shift Eq state.finish state'.finish := by
  obtain ⟨waiting, groups, position⟩ := state
  obtain ⟨waiting', groups', position'⟩ := state'
  obtain ⟨rfl, rfl, hgroups⟩ := h
  cases hgroups with
  | cons hgroup _ => exact .error ⟨rfl, hgroup.opened⟩
  | nil =>
      cases position' with
      | operator e target => exact .ok rfl
      | operand => exact .ok rfl

/-- A reading carries places along. -/
theorem shifted_readFrom {tokens tokens' : List Token} (hstate : state.Shifted shift state')
    (htokens : List.Forall₂ (Token.Shifted shift) tokens tokens') :
    Shifted shift Eq (readFrom state tokens).1 (readFrom state' tokens').1 := by
  induction htokens generalizing state state' with
  | nil => exact shifted_finish hstate
  | @cons token token' rest rest' htoken _ ih =>
      have hkind : token'.kind = token.kind := (Prod.mk.inj htoken.lexeme).1
      rw [readFrom, readFrom, hkind]
      split
      · exact shifted_finish hstate
      · have hstep := shifted_step hstate htoken
        generalize state.step token = answer at hstep ⊢
        generalize state'.step token' = answer' at hstep ⊢
        cases hstep with
        | ok hnext => exact ih hnext
        | error herror => exact .error herror

end

/-! ### Rows of the same lexemes -/

/-- The places of the same token in two rows, that is, of the tokens with the same index. -/
def SamePlace (tokens tokens' : List Token) (span span' : Span) : Prop :=
  ∃ (index : Nat) (token token' : Token), tokens[index]? = some token ∧
    tokens'[index]? = some token' ∧ token.span = span ∧ token'.span = span'

/-- Two rows of the same lexemes are read as the same expression, or refused for the same reason at
the same token. -/
theorem shifted_readProgram {tokens tokens' : List Token}
    (h : tokens'.map Token.lexeme = tokens.map Token.lexeme) :
    Shifted (SamePlace tokens tokens') Eq (readProgram tokens).1 (readProgram tokens').1 := by
  have hlength : tokens.length = tokens'.length := by
    have hmap := congrArg List.length h
    rw [List.length_map, List.length_map] at hmap
    exact hmap.symm
  refine shifted_readFrom ⟨rfl, rfl, .nil⟩ (List.forall₂_iff_get.2 ⟨hlength, fun i hi hi' => ?_⟩)
  refine ⟨?_, i, tokens[i], tokens'[i], ?_, ?_, rfl, rfl⟩
  · have hget := congrArg (·[i]?) h
    simpa [hi, hi'] using hget
  · exact List.getElem?_eq_getElem hi
  · exact List.getElem?_eq_getElem hi'

/-! ### Sources -/

/-- **Blanks around the tokens of a source make no difference.**  The tokens have the same kinds and
the same texts, in the same order; and the source is parsed to the same expression, or refused for
the same reason at the same token. -/
theorem insert_blanks {before blanks after : String}
    (hposition : Boundary (before ++ after) before.utf8ByteSize)
    (hblanks : ∀ c ∈ blanks.toList, isBlank c = true)
    (hsize : (before ++ blanks ++ after).utf8ByteSize ≤ Span.limit) :
    (lex (before ++ blanks ++ after)).map Token.lexeme = (lex (before ++ after)).map Token.lexeme ∧
      Shifted (SamePlace (lex (before ++ after)) (lex (before ++ blanks ++ after))) Eq
        (parse (before ++ after)) (parse (before ++ blanks ++ after)) := by
  have hsize' : (before ++ after).utf8ByteSize ≤ Span.limit := by
    simp only [String.utf8ByteSize_append] at hsize ⊢
    omega
  have hmeet := hposition.meetAt hsize'
  rw [String.toList_append, ← byteCount_toList] at hmeet
  have hlexemes := lexemes_insert hmeet hblanks
  have hlex : (lex (before ++ blanks ++ after)).map Token.lexeme =
      (lex (before ++ after)).map Token.lexeme := by
    rw [map_lexeme_lex hsize, map_lexeme_lex hsize', String.toList_append, String.toList_append,
      String.toList_append, List.append_assoc, hlexemes]
  exact ⟨hlex, shifted_readProgram hlex⟩

/-- An address that touches a sign which belongs to no address: the error at this sign moves with
it. -/
theorem insert_blanks_touching : ∃ before blanks after : String,
    (before ++ after = "a@b@c" ∧ before ++ blanks ++ after = "a@b \n@c") ∧
    Boundary (before ++ after) before.utf8ByteSize ∧
    (parse (before ++ after) = .error (.unrecognised "@" ⟨3, 4⟩) ∧
      parse (before ++ blanks ++ after) = .error (.unrecognised "@" ⟨5, 6⟩)) ∧
    (lex (before ++ blanks ++ after)).map Token.lexeme = (lex (before ++ after)).map Token.lexeme ∧
    Shifted (SamePlace (lex (before ++ after)) (lex (before ++ blanks ++ after))) Eq
      (parse (before ++ after)) (parse (before ++ blanks ++ after)) := by
  have haddress : (⟨.address, ⟨0, 3⟩, "a@b"⟩ : Token) ∈ lex ("a@b" ++ "@c") := by
    decide +kernel
  have hposition : Boundary ("a@b" ++ "@c") "a@b".utf8ByteSize := .tokenStop haddress
  have hblanks : ∀ c ∈ " \n".toList, isBlank c = true := List.all_eq_true.1 (by decide)
  refine ⟨"a@b", " \n", "@c", by decide, hposition, by decide +kernel, ?_⟩
  exact insert_blanks hposition hblanks (by decide)

end Roster
