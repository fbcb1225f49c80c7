/-
**The first piece of a text.**

The first piece of a text is computed with runs of characters: how many are taken, and what is left.
Here it is described by what is taken and what is left.  A piece is of a certain form, and what
follows it must not go on with it: a run of blanks or of word characters ends where its characters
end, a name is not followed by the sign and the domain of an address, and an address ends where its
domain ends.  A character that is a lexeme of its own may be followed by anything.

Main definition:

* `FirstPiece`: a text begins with a piece, and a rest is left.

Main results:

* `firstPiece_first`, `FirstPiece.first_eq`: **the first piece is what is computed**, and nothing
  else is a first piece;
* `text_induction`: the induction that takes one piece after the other off a text.
-/

import Roster.Token.Lexer

set_option relaxedAutoImplicit false
set_option autoImplicit false

namespace Roster

/-! ### Runs of characters -/

/-- A run of characters that all satisfy a test, and that is not continued by what follows. -/
theorem takeWhile_append_of_stop {test : Char → Bool} {run rest : List Char}
    (hrun : ∀ c ∈ run, test c = true) (hrest : ∀ c ∈ rest.head?, test c = false) :
    (run ++ rest).takeWhile test = run ∧ (run ++ rest).dropWhile test = rest := by
  rw [List.takeWhile_append_of_pos hrun, List.dropWhile_append_of_pos hrun]
  cases rest with
  | nil => simp
  | cons c rest => simp [hrest c rfl]

/-- What is left after a run does not go on with it. -/
theorem head_dropWhile {test : Char → Bool} (text : List Char) :
    ∀ c ∈ (text.dropWhile test).head?, test c = false := by
  intro c hc
  have hhead := List.head?_dropWhile_not test text
  rw [Option.mem_def.1 hc] at hhead
  simpa using hhead

theorem forall_mem_takeWhile {test : Char → Bool} (text : List Char) :
    ∀ c ∈ text.takeWhile test, test c = true :=
  List.all_eq_true.1 List.all_takeWhile

theorem isBlank_of_isWordChar {c : Char} (h : isWordChar c = true) : isBlank c = false := by
  cases hblank : isBlank c with
  | false => rfl
  | true =>
      simp only [isBlank, Bool.or_eq_true, beq_iff_eq] at hblank
      rcases hblank with (((rfl | rfl) | rfl) | rfl) | rfl <;> revert h <;> decide

theorem isWordChar_of_isNameChar {c : Char} (h : isNameChar c = true) : isWordChar c = true := by
  rw [isWordChar, h, Bool.true_or]

/-! ### Kinds of lexemes -/

theorem wordKind_eq_name_iff {word : List Char} :
    wordKind word = .name ↔ ∀ c ∈ word, isNameChar c = true := by
  rw [wordKind, ← List.all_eq_true]
  split <;> simp [*]

/-! ### First pieces -/

/-- A text begins with a piece, as long as it can be, and a rest is left. -/
inductive FirstPiece : List Char → Piece → List Char → Prop
  | blank {c : Char} {run rest : List Char} : (∀ d ∈ c :: run, isBlank d = true) →
      (∀ d ∈ rest.head?, isBlank d = false) →
        FirstPiece (c :: (run ++ rest)) (.blank (c :: run)) rest
  /-- Word characters that do not begin an address. -/
  | word {c : Char} {run rest : List Char} : (∀ d ∈ c :: run, isWordChar d = true) →
      (∀ d ∈ rest.head?, isWordChar d = false) →
        (∀ d tail, rest = '@' :: d :: tail → isNameChar d = false) →
          FirstPiece (c :: (run ++ rest)) (.lexeme (wordKind (c :: run)) (c :: run)) rest
  | address {c d : Char} {mailbox domain rest : List Char} :
      (∀ x ∈ c :: mailbox, isWordChar x = true) → (∀ x ∈ d :: domain, isNameChar x = true) →
        (∀ x ∈ rest.head?, isNameChar x = false) →
          FirstPiece (c :: (mailbox ++ '@' :: d :: (domain ++ rest)))
            (.lexeme .address (c :: mailbox ++ '@' :: d :: domain)) rest
  | symbol {c : Char} {rest : List Char} : isBlank c = false → isWordChar c = false →
      FirstPiece (c :: rest) (.lexeme (symbolKind c) [c]) rest

/-- What a run of word characters begins, by what follows it. -/
theorem firstPiece_word {c : Char} {run rest : List Char}
    (hrun : ∀ d ∈ c :: run, isWordChar d = true) (hrest : ∀ d ∈ rest.head?, isWordChar d = false) :
    FirstPiece (c :: (run ++ rest)) (Piece.first c (run ++ rest)).1
      (Piece.first c (run ++ rest)).2 := by
  have hc := hrun c List.mem_cons_self
  obtain ⟨htake, hdrop⟩ := takeWhile_append_of_stop (List.forall_mem_cons.1 hrun).2 hrest
  rw [Piece.first, if_neg (by simp [isBlank_of_isWordChar hc]), if_pos hc, htake, hdrop]
  split
  · rename_i tail
    have hsplit := List.takeWhile_append_dropWhile (p := isNameChar) (l := tail)
    split
    · rename_i hdomain
      refine .word hrun hrest fun d after heq => ?_
      obtain ⟨-, rfl⟩ := List.cons.inj heq
      cases hname : isNameChar d with
      | false => rfl
      | true => simp [hname] at hdomain
    · rename_i d domain hdomain
      have hname : ∀ x ∈ tail.takeWhile isNameChar, isNameChar x = true :=
        forall_mem_takeWhile tail
      rw [hdomain] at hsplit hname
      rw [List.cons_append] at hsplit
      have hfirst := FirstPiece.address hrun hname (head_dropWhile tail)
      rwa [hsplit] at hfirst
  · rename_i hnone
    exact .word hrun hrest fun d after heq => absurd heq (hnone _)

/-- **The first piece is what is computed.** -/
theorem firstPiece_first (c : Char) (cs : List Char) :
    FirstPiece (c :: cs) (Piece.first c cs).1 (Piece.first c cs).2 := by
  cases hblank : isBlank c with
  | true =>
      have hrun : ∀ d ∈ c :: cs.takeWhile isBlank, isBlank d = true :=
        List.forall_mem_cons.2 ⟨hblank, forall_mem_takeWhile cs⟩
      have hfirst := FirstPiece.blank hrun (head_dropWhile cs)
      rw [List.takeWhile_append_dropWhile] at hfirst
      rwa [Piece.first, if_pos hblank]
  | false =>
      cases hword : isWordChar c with
      | false =>
          rw [Piece.first, if_neg (by simp [hblank]), if_neg (by simp [hword])]
          exact .symbol hblank hword
      | true =>
          have hrun : ∀ d ∈ c :: cs.takeWhile isWordChar, isWordChar d = true :=
            List.forall_mem_cons.2 ⟨hword, forall_mem_takeWhile cs⟩
          have hfirst := firstPiece_word hrun (head_dropWhile cs)
          rwa [List.takeWhile_append_dropWhile] at hfirst

namespace FirstPiece

variable {text rest : List Char} {piece : Piece}

/-- **Nothing else is a first piece.** -/
theorem first_eq {c : Char} {cs : List Char} (h : FirstPiece (c :: cs) piece rest) :
    Piece.first c cs = (piece, rest) := by
  cases h with
  | blank hrun hrest =>
      obtain ⟨htake, hdrop⟩ := takeWhile_append_of_stop (List.forall_mem_cons.1 hrun).2 hrest
      rw [Piece.first, if_pos (hrun c List.mem_cons_self), htake, hdrop]
  | word hrun hrest hnone =>
      have hc := hrun c List.mem_cons_self
      obtain ⟨htake, hdrop⟩ := takeWhile_append_of_stop (List.forall_mem_cons.1 hrun).2 hrest
      rw [Piece.first, if_neg (by simp [isBlank_of_isWordChar hc]), if_pos hc, htake, hdrop]
      split
      · rename_i tail
        split
        · rfl
        · rename_i d domain hdomain
          -- the rest would begin with the domain of an address
          cases tail with
          | nil => cases hdomain
          | cons x tail =>
              rw [List.takeWhile_cons_of_neg (by simp [hnone x tail rfl])] at hdomain
              cases hdomain
      · rfl
  | @address _ d mailbox domain _ hmailbox hdomain hrest =>
      have hc := hmailbox c List.mem_cons_self
      have hsign : ∀ x ∈ ('@' :: d :: (domain ++ rest)).head?, isWordChar x = false := by
        rintro x ⟨⟩
        decide
      -- the run before the sign ends at it, and the run after it ends before the rest
      obtain ⟨htake, hdrop⟩ := takeWhile_append_of_stop (List.forall_mem_cons.1 hmailbox).2 hsign
      obtain ⟨htake', hdrop'⟩ := takeWhile_append_of_stop hdomain hrest
      rw [List.cons_append] at htake' hdrop'
      rw [Piece.first, if_neg (by simp [isBlank_of_isWordChar hc]), if_pos hc, htake, hdrop]
      simp only [htake', hdrop']
  | symbol hblank hword =>
      rw [Piece.first, if_neg (by simp [hblank]), if_neg (by simp [hword])]

theorem forall_isBlank {run : List Char} (h : FirstPiece text (.blank run) rest) :
    ∀ c ∈ run, isBlank c = true := by
  cases h with
  | blank hrun _ => exact hrun

theorem exists_cons (h : FirstPiece text piece rest) : ∃ c cs, text = c :: cs := by
  cases h <;> exact ⟨_, _, rfl⟩

theorem pieces_eq (h : FirstPiece text piece rest) : pieces text = piece :: pieces rest := by
  obtain ⟨c, cs, rfl⟩ := h.exists_cons
  rw [pieces_cons, h.first_eq]

theorem append_eq (h : FirstPiece text piece rest) : piece.text ++ rest = text := by
  obtain ⟨c, cs, rfl⟩ := h.exists_cons
  rw [← Piece.text_append_rest c cs, h.first_eq]

theorem length_lt (h : FirstPiece text piece rest) : rest.length < text.length := by
  obtain ⟨c, cs, rfl⟩ := h.exists_cons
  have hlt := Piece.length_rest_lt c cs
  rwa [h.first_eq] at hlt

end FirstPiece

/-- **The induction that takes one piece after the other off a text.** -/
theorem text_induction {motive : List Char → Prop} (nil : motive [])
    (piece : ∀ text piece rest, FirstPiece text piece rest → motive rest → motive text) :
    ∀ text, motive text := by
  intro text
  induction hn : text.length using Nat.strongRecOn generalizing text with
  | ind n ih =>
      cases text with
      | nil => exact nil
      | cons c cs =>
          have hfirst := firstPiece_first c cs
          exact piece _ _ _ hfirst (ih _ (hn ▸ hfirst.length_lt) _ rfl)

/-- Every piece of a text is the first piece of some end of it. -/
theorem exists_firstPiece_of_mem {text : List Char} {piece : Piece} (h : piece ∈ pieces text) :
    ∃ stop rest, stop <:+ text ∧ FirstPiece stop piece rest := by
  induction text using text_induction with
  | nil => simp at h
  | piece text first rest hfirst ih =>
      rw [hfirst.pieces_eq] at h
      rcases List.mem_cons.1 h with rfl | h
      · exact ⟨text, rest, List.suffix_refl _, hfirst⟩
      · obtain ⟨stop, after, hsuffix, hpiece⟩ := ih h
        exact ⟨stop, after, hsuffix.trans ⟨first.text, hfirst.append_eq⟩, hpiece⟩

end Roster
