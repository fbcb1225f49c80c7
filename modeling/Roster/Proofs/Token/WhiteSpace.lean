/-
**White space around a source.**

A text is trimmed of white space in the sense of the property `White_Space`.  Between tokens fewer
characters may stand: they are white space, too, but a no-break space, say, is a lexeme of its own,
and of a kind that no program holds.  So a source has the same lexemes as what is left when it has
been trimmed if only blanks have been taken away, and can never be parsed otherwise.

Main definition:

* `edges`: the white space around a text.

Main results:

* `exists_append_trim`: a text is what is left of it and its edges;
* `lexemes_trim`: **edges of blanks make no difference** to the lexemes of a text;
* `exists_unknown_of_edges`: **other edges hold a lexeme of unknown kind**.
-/

import Roster.Proofs.Token.Boundaries
import Roster.Text.Split

set_option relaxedAutoImplicit false
set_option autoImplicit false

namespace Roster

/-! ### Trimming -/

/-- The white space around a text, which is taken away when the text is trimmed. -/
def edges (text : List Char) : List Char :=
  text.takeWhile isWhiteSpace ++
    ((text.dropWhile isWhiteSpace).reverse.takeWhile isWhiteSpace).reverse

/-- A text is what is left of it, between its edges. -/
theorem exists_append_trim (text : List Char) :
    ∃ front back, edges text = front ++ back ∧ text = front ++ (trim text ++ back) := by
  refine ⟨_, _, rfl, ?_⟩
  rw [trim, ← List.reverse_append, List.takeWhile_append_dropWhile, List.reverse_reverse,
    List.takeWhile_append_dropWhile]

theorem isWhiteSpace_of_mem_edges {text : List Char} {c : Char} (h : c ∈ edges text) :
    isWhiteSpace c = true := by
  rcases List.mem_append.1 h with hfront | hback
  · exact forall_mem_takeWhile _ c hfront
  · exact forall_mem_takeWhile _ c (List.mem_reverse.1 hback)

/-- What is no white space is left. -/
theorem mem_trim {text : List Char} {c : Char} (hc : c ∈ text) (hspace : isWhiteSpace c = false) :
    c ∈ trim text := by
  have hedges : c ∉ edges text := by
    intro hmem
    rw [isWhiteSpace_of_mem_edges hmem] at hspace
    cases hspace
  obtain ⟨front, back, hsplit, htext⟩ := exists_append_trim text
  rw [hsplit, List.mem_append, not_or] at hedges
  rw [htext, List.mem_append, List.mem_append] at hc
  exact (hc.resolve_left hedges.1).resolve_right hedges.2

/-! ### White space and lexemes -/

/-- Letters and digits lie between `0` and `z`. -/
theorem toNat_of_isAlphanum {c : Char} (h : c.isAlphanum = true) :
    48 ≤ c.toNat ∧ c.toNat ≤ 122 := by
  have hranges : (decide ('A'.val ≤ c.val ∧ c.val ≤ 'Z'.val) ||
      decide ('a'.val ≤ c.val) && decide (c.val ≤ 'z'.val) ||
      (decide ('0'.val ≤ c.val) && decide (c.val ≤ '9'.val))) = true := h
  simp only [Bool.or_eq_true, Bool.and_eq_true, decide_eq_true_eq, UInt32.le_iff_toNat_le]
    at hranges
  change (65 ≤ c.toNat ∧ c.toNat ≤ 90 ∨ 97 ≤ c.toNat ∧ c.toNat ≤ 122) ∨
    48 ≤ c.toNat ∧ c.toNat ≤ 57 at hranges
  omega

theorem isWhiteSpace_of_isNameChar {c : Char} (h : isNameChar c = true) :
    isWhiteSpace c = false := by
  simp only [isNameChar, Bool.or_eq_true, beq_iff_eq] at h
  rcases h with ((h | rfl) | rfl) | rfl
  · have hrange := toNat_of_isAlphanum h
    simp only [isWhiteSpace, Bool.or_eq_false_iff, Bool.and_eq_false_iff, decide_eq_false_iff_not,
      beq_eq_false_iff_ne]
    omega
  · decide
  · decide
  · decide

theorem isWordChar_of_isWhiteSpace {c : Char} (h : isWhiteSpace c = true) :
    isWordChar c = false := by
  cases hword : isWordChar c with
  | false => rfl
  | true =>
      simp only [isWordChar, Bool.or_eq_true, beq_iff_eq] at hword
      rcases hword with hname | rfl
      · rw [isWhiteSpace_of_isNameChar hname] at h
        cases h
      · revert h
        decide

/-- White space is no sign. -/
theorem symbolKind_of_isWhiteSpace {c : Char} (h : isWhiteSpace c = true) :
    symbolKind c = .unknown := by
  have hsigns : ∀ entry ∈ signs, isWhiteSpace entry.2 = false := by decide
  rcases symbolKind_cases c with hsign | ⟨hkind, -⟩
  · have hnone : isWhiteSpace c = false := hsigns (symbolKind c, c) hsign
    rw [hnone] at h
    cases h
  · exact hkind

/-- White space that is no blank is a lexeme of its own, wherever it stands. -/
theorem unknown_mem_lexemes {text : List Char} {c : Char} (hc : c ∈ text)
    (hspace : isWhiteSpace c = true) (hblank : isBlank c = false) :
    (.unknown, String.ofList [c]) ∈ lexemes text := by
  have hword := isWordChar_of_isWhiteSpace hspace
  have hsign : c ≠ '@' := by
    rintro rfl
    revert hspace
    decide
  obtain ⟨before, after, rfl⟩ := List.append_of_mem hc
  rw [lexemes_append (detached_cons.2 ⟨hword, hsign⟩), lexemes_symbol hblank hword,
    symbolKind_of_isWhiteSpace hspace]
  simp

/-- **Edges of blanks make no difference** to the lexemes of a text. -/
theorem lexemes_trim {text : List Char} (h : ∀ c ∈ edges text, isBlank c = true) :
    lexemes (trim text) = lexemes text := by
  obtain ⟨front, back, hedges, htext⟩ := exists_append_trim text
  rw [hedges, List.forall_mem_append] at h
  have hback : lexemes back = [] := by
    have hblanks := lexemes_blanks h.2 []
    rwa [List.append_nil, lexemes_nil] at hblanks
  have hdetached : Detached back := by
    cases back with
    | nil => exact detached_nil
    | cons c back => exact detached_of_isBlank (h.2 c List.mem_cons_self) back
  have hlexemes := congrArg lexemes htext
  rw [lexemes_blanks h.1, lexemes_append hdetached, hback, List.append_nil] at hlexemes
  exact hlexemes.symm

/-- **Other edges hold a lexeme of unknown kind.** -/
theorem exists_unknown_of_edges {text : List Char} (h : ¬ ∀ c ∈ edges text, isBlank c = true) :
    ∃ word, (.unknown, word) ∈ lexemes text := by
  simp only [Classical.not_forall] at h
  obtain ⟨c, hc, hblank⟩ := h
  obtain ⟨front, back, hedges, htext⟩ := exists_append_trim text
  have hmem : c ∈ text := by
    rw [hedges, List.mem_append] at hc
    rw [htext, List.mem_append, List.mem_append]
    exact hc.imp_right Or.inr
  exact ⟨_, unknown_mem_lexemes hmem (isWhiteSpace_of_mem_edges hc) (Bool.eq_false_iff.2 hblank)⟩

end Roster
