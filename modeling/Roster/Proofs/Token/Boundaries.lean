/-
**Where a text may be cut.**

Two texts that stand next to each other may have other lexemes together than apart, as the last word
of the first one may go on in the second one.  There are two kinds of places where this cannot
happen.  In front of a character that goes on with no word, a text has the same lexemes whatever it
was cut from; blanks are such characters.  And a piece does not change if the text ends right after
it, so that a text may also be cut between its pieces.

Blanks that are put between the pieces of a text make no difference for both reasons: the blanks end
what stands before them, and what stands before them was a row of pieces already.

Main definition:

* `Boundary`: the positions where the pieces of a source meet.

Main results:

* `lexemes_append`: **in front of a text that goes on with no word**;
* `pieces_of_append`: **between the pieces of a text**;
* `lexemes_insert`: **blanks at a boundary make no difference**.
-/

import Roster.Proofs.Token.Lexemes

set_option relaxedAutoImplicit false
set_option autoImplicit false

namespace Roster

/-! ### In front of a text that goes on with no word -/

section

variable {rest after : List Char} {p : Char → Prop}

theorem forall_head_append (hrest : ∀ c ∈ rest.head?, p c) (hafter : ∀ c ∈ after.head?, p c) :
    ∀ c ∈ (rest ++ after).head?, p c := by
  cases rest with
  | nil => exact hafter
  | cons c rest => exact hrest

theorem forall_head_of_append (h : ∀ c ∈ (rest ++ after).head?, p c) : ∀ c ∈ rest.head?, p c := by
  cases rest with
  | nil => simp
  | cons c rest => exact h

/-- What follows a word is no domain of an address either if more text follows it. -/
theorem Detached.no_domain (hafter : Detached after)
    (h : ∀ d tail, rest = '@' :: d :: tail → isNameChar d = false) :
    ∀ d tail, rest ++ after = '@' :: d :: tail → isNameChar d = false := by
  intro d tail heq
  rcases rest with _ | ⟨sign, _ | ⟨x, rest⟩⟩
  · obtain rfl : after = '@' :: d :: tail := heq
    exact absurd rfl (hafter '@' rfl).2
  · obtain ⟨-, rfl⟩ : sign = '@' ∧ after = d :: tail := List.cons.inj heq
    exact hafter.isNameChar_head d rfl
  · obtain ⟨rfl, rfl, -⟩ : sign = '@' ∧ x = d ∧ rest ++ after = tail := by simpa using heq
    exact h x rest rfl

end

/-- No word goes on with a blank. -/
theorem detached_of_isBlank {c : Char} (hc : isBlank c = true) (rest : List Char) :
    Detached (c :: rest) := by
  refine detached_cons.2 ⟨?_, ?_⟩
  · cases hword : isWordChar c with
    | false => rfl
    | true =>
        rw [isBlank_of_isWordChar hword] at hc
        cases hc
  · rintro rfl
    revert hc
    decide

/-- A lexeme is the same in front of a text that goes on with no word. -/
theorem FirstPiece.append {text word rest after : List Char} {kind : TokenKind}
    (h : FirstPiece text (.lexeme kind word) rest) (hafter : Detached after) :
    FirstPiece (text ++ after) (.lexeme kind word) (rest ++ after) := by
  have hhead : ∀ c ∈ after.head?, isWordChar c = false := fun c hc => (hafter c hc).1
  cases h with
  | @word c run _ hrun hrest hnone =>
      have hfirst := FirstPiece.word hrun (forall_head_append hrest hhead)
        (hafter.no_domain hnone)
      rwa [← List.append_assoc] at hfirst
  | @address c d mailbox domain _ hmailbox hdomain hrest =>
      have hfirst := FirstPiece.address hmailbox hdomain
        (forall_head_append hrest hafter.isNameChar_head)
      rw [List.cons_append, List.append_assoc, List.cons_append, List.cons_append,
        List.append_assoc]
      exact hfirst
  | symbol hblank hword => exact .symbol hblank hword

/-- Blanks in front of a text make no difference. -/
theorem lexemes_blanks {blanks : List Char} (hblanks : ∀ c ∈ blanks, isBlank c = true)
    (text : List Char) : lexemes (blanks ++ text) = lexemes text := by
  induction blanks with
  | nil => rfl
  | cons c blanks ih =>
      obtain ⟨hc, hblanks⟩ := List.forall_mem_cons.1 hblanks
      rw [List.cons_append, lexemes_blank hc, ih hblanks]

/-- **In front of a text that goes on with no word** the lexemes are those of the text alone. -/
theorem lexemes_append {after : List Char} (hafter : Detached after) (text : List Char) :
    lexemes (text ++ after) = lexemes text ++ lexemes after := by
  induction text using text_induction with
  | nil => rw [lexemes_nil, List.nil_append, List.nil_append]
  | piece text piece rest hfirst ih =>
      rw [hfirst.lexemes_eq]
      cases piece with
      | lexeme kind word => rw [(hfirst.append hafter).lexemes_eq, ih, List.append_assoc]
      | blank run =>
          have hblanks := hfirst.forall_isBlank
          rw [← hfirst.append_eq, Piece.text, List.append_assoc, lexemes_blanks hblanks, ih]
          rfl

/-! ### Between the pieces of a text -/

/-- A piece is the same if the text ends after it. -/
theorem FirstPiece.of_append {text rest after : List Char} {piece : Piece}
    (h : FirstPiece (text ++ after) piece (rest ++ after)) : FirstPiece text piece rest := by
  have htext : text = piece.text ++ rest := by
    have heq := h.append_eq
    rw [← List.append_assoc] at heq
    exact (List.append_cancel_right heq).symm
  subst htext
  generalize hwhole : piece.text ++ rest ++ after = whole at h
  generalize hleft : rest ++ after = left at h
  cases h with
  | blank hrun hrest =>
      subst hleft
      exact .blank hrun (forall_head_of_append hrest)
  | word hrun hrest hnone =>
      subst hleft
      refine .word hrun (forall_head_of_append hrest) fun d tail heq => ?_
      exact hnone d (tail ++ after) (by rw [heq]; rfl)
  | address hmailbox hdomain hrest =>
      subst hleft
      have hfirst := FirstPiece.address hmailbox hdomain (forall_head_of_append hrest)
      rwa [Piece.text, List.append_assoc]
  | symbol hblank hword => exact .symbol hblank hword

/-- **Between the pieces of a text** the text may be cut: each part has its pieces. -/
theorem pieces_of_append {text : List Char} {first second : List Piece}
    (h : pieces text = first ++ second) :
    pieces (first.flatMap Piece.text) = first ∧ pieces (second.flatMap Piece.text) = second := by
  induction first generalizing text with
  | nil =>
      rw [List.nil_append] at h
      refine ⟨pieces_nil, ?_⟩
      rw [← h, flatten_pieces]
  | cons piece first ih =>
      cases text with
      | nil =>
          rw [pieces_nil] at h
          cases h
      | cons c cs =>
          obtain ⟨hpiece, hrest⟩ : (Piece.first c cs).1 = piece ∧
              pieces (Piece.first c cs).2 = first ++ second := by
            rw [pieces_cons] at h
            exact List.cons.inj h
          obtain ⟨ihfirst, ihsecond⟩ := ih hrest
          refine ⟨?_, ihsecond⟩
          have hfirst := firstPiece_first c cs
          have htext := flatten_pieces (Piece.first c cs).2
          rw [hrest, List.flatMap_append] at htext
          rw [hpiece, ← htext] at hfirst
          rw [← hfirst.append_eq, ← List.append_assoc] at hfirst
          rw [List.flatMap_cons, hfirst.of_append.pieces_eq, ihfirst]

/-- The lexemes of a text are those of its two parts, if they meet between its pieces. -/
theorem lexemes_of_pieces_append {text : List Char} {first second : List Piece}
    (h : pieces text = first ++ second) :
    lexemes text =
      lexemes (first.flatMap Piece.text) ++ lexemes (second.flatMap Piece.text) := by
  obtain ⟨hfirst, hsecond⟩ := pieces_of_append h
  rw [lexemes, lexemes, lexemes, hfirst, hsecond, h, List.filterMap_append]

/-! ### Boundaries -/

/-- The positions in a source that lie around its tokens: its start and its end, and the start and
the end of each token. -/
inductive Boundary (source : String) : Nat → Prop
  | start : Boundary source 0
  | stop : Boundary source source.utf8ByteSize
  | tokenStart {token : Token} : token ∈ lex source → Boundary source token.span.start
  | tokenStop {token : Token} : token ∈ lex source → Boundary source token.span.stop

/-- Two pieces of a row meet at a position, or the row starts or ends there.  The row itself stands
at the position `start`. -/
def MeetAt (start : Nat) (row : List Piece) (position : Nat) : Prop :=
  ∃ first second, row = first ++ second ∧
    start + byteCount (first.flatMap Piece.text) = position

section

variable {start position : Nat} {row : List Piece}

theorem MeetAt.here (start : Nat) (row : List Piece) : MeetAt start row start :=
  ⟨[], row, rfl, rfl⟩

theorem MeetAt.cons {piece : Piece} (h : MeetAt (start + byteCount piece.text) row position) :
    MeetAt start (piece :: row) position := by
  obtain ⟨first, second, rfl, hposition⟩ := h
  refine ⟨piece :: first, second, rfl, ?_⟩
  rw [List.flatMap_cons, byteCount_append, ← Nat.add_assoc, hposition]

/-- A token starts and ends where pieces meet, as long as no span is clamped. -/
theorem meetAt_of_mem_tokensFrom {source : String} {token : Token}
    (hsize : start + byteCount (row.flatMap Piece.text) ≤ Span.limit)
    (h : token ∈ tokensFrom source start row) :
    MeetAt start row token.span.start ∧ MeetAt start row token.span.stop := by
  induction row generalizing start with
  | nil =>
      obtain rfl := List.mem_singleton.1 h
      have hstart : start ≤ Span.limit := hsize
      rw [Span.between_of_le hstart hstart]
      exact ⟨.here start [], .here start []⟩
  | cons piece row ih =>
      rw [List.flatMap_cons, byteCount_append, ← Nat.add_assoc] at hsize
      have hrest : token ∈ tokensFrom source (start + byteCount piece.text) row →
          MeetAt start (piece :: row) token.span.start ∧
            MeetAt start (piece :: row) token.span.stop := by
        intro htoken
        obtain ⟨hstart, hstop⟩ := ih hsize htoken
        exact ⟨hstart.cons, hstop.cons⟩
      cases piece with
      | blank text => exact hrest h
      | lexeme kind text =>
          rcases List.mem_cons.1 h with rfl | h
          · have hstop : start + byteCount text ≤ Span.limit := by
              rw [Piece.text] at hsize
              omega
            have hspan : (Token.ofLexeme source start kind text).span =
                ⟨start, start + byteCount text⟩ :=
              Span.between_of_le (by omega) hstop
            rw [hspan]
            exact ⟨.here start _, (MeetAt.here _ row).cons⟩
          · exact hrest h

/-- The boundaries of a source lie between its pieces. -/
theorem Boundary.meetAt {source : String} (h : Boundary source position)
    (hsize : source.utf8ByteSize ≤ Span.limit) : MeetAt 0 (pieces source.toList) position := by
  have hpieces : 0 + byteCount ((pieces source.toList).flatMap Piece.text) ≤ Span.limit := by
    rwa [flatten_pieces, byteCount_toList, Nat.zero_add]
  cases h with
  | start => exact .here 0 _
  | stop =>
      refine ⟨pieces source.toList, [], (List.append_nil _).symm, ?_⟩
      rw [flatten_pieces, byteCount_toList, Nat.zero_add]
  | tokenStart htoken => exact (meetAt_of_mem_tokensFrom hpieces htoken).1
  | tokenStop htoken => exact (meetAt_of_mem_tokensFrom hpieces htoken).2

end

/-- The number of bytes of the first part says where a text is cut. -/
theorem append_inj_of_byteCount {first second first' second' : List Char}
    (h : first ++ second = first' ++ second') (hcount : byteCount first = byteCount first') :
    first = first' ∧ second = second' := by
  have hsplit := splitBytes_byteCount first second
  rw [h, hcount, splitBytes_byteCount, Option.some_inj, Prod.mk.injEq] at hsplit
  exact ⟨hsplit.1.symm, hsplit.2.symm⟩

/-- **Blanks between pieces make no difference** to the lexemes of a text. -/
theorem lexemes_insert {before blanks after : List Char}
    (h : MeetAt 0 (pieces (before ++ after)) (byteCount before))
    (hblanks : ∀ c ∈ blanks, isBlank c = true) :
    lexemes (before ++ (blanks ++ after)) = lexemes (before ++ after) := by
  cases blanks with
  | nil => rfl
  | cons c blanks =>
      have hdetached : Detached (c :: blanks ++ after) :=
        detached_of_isBlank (hblanks c List.mem_cons_self) (blanks ++ after)
      obtain ⟨first, second, hpieces, hcount⟩ := h
      rw [Nat.zero_add] at hcount
      have htext := flatten_pieces (before ++ after)
      rw [hpieces, List.flatMap_append] at htext
      obtain ⟨rfl, rfl⟩ := append_inj_of_byteCount htext hcount
      rw [lexemes_append hdetached, lexemes_blanks hblanks, ← lexemes_of_pieces_append hpieces]

end Roster
