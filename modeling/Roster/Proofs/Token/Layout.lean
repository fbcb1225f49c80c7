/-
**The tokens of a source, and the gaps between them.**

A source is cut into pieces, so nothing of it can get lost.  But the pieces do not show in the
tokens, which only know the bytes that they take.  Here the tokens are put back into the source: it
is gone through from left to right, and what is left between two tokens is collected until the next
one begins.  Between tokens there are only blanks, and no token holds one.

Main definitions:

* `Token.StandsIn`: the place of a token in a source;
* `gaps`: the spans between the tokens;
* `Layout`: a row of tokens takes the end of a source apart.

Main results:

* `exists_layout`: the tokens of a source take it apart;
* `lex_covers_source`: **what stands in a source is a token or a blank**.
-/

import Roster.Proofs.Token.Lexemes

set_option relaxedAutoImplicit false
set_option autoImplicit false

namespace Roster

/-! ### Places in a source -/

/-- A token stands in a source between what is before and after it: it takes the bytes of its text,
which is spelled as its kind demands. -/
structure Token.StandsIn (source : String) (before word after : List Char) (token : Token) :
    Prop where
  source_eq : source.toList = before ++ (word ++ after)
  span_eq : token.span = ⟨byteCount before, byteCount before + byteCount word⟩
  text_eq : token.text = String.ofList word
  spelled : Spelled after token.kind word

/-- A span of a source that holds nothing but blanks. -/
def BlankSpan (source : String) (span : Span) : Prop :=
  ∃ before blanks after, source.toList = before ++ (blanks ++ after) ∧
    span = ⟨byteCount before, byteCount before + byteCount blanks⟩ ∧
      ∀ c ∈ blanks, isBlank c = true

/-- The spans from one position to another that a row of tokens leaves free: before the first token,
between neighbouring ones and after the last one. -/
def gaps (start stop : Nat) : List Token → List Span
  | [] => [⟨start, stop⟩]
  | token :: row => ⟨start, token.span.start⟩ :: gaps token.span.stop stop row

theorem byteCount_pos {word : List Char} (h : word ≠ []) : 0 < byteCount word := by
  cases word with
  | nil => exact absurd rfl h
  | cons c word =>
      have hpos := c.utf8Size_pos
      rw [byteCount_cons]
      omega

section

variable {source : String} {before word after : List Char} {token : Token}

theorem Token.StandsIn.start_eq (h : token.StandsIn source before word after) :
    token.span.start = byteCount before :=
  congrArg Span.start h.span_eq

theorem Token.StandsIn.stop_eq (h : token.StandsIn source before word after) :
    token.span.stop = byteCount before + byteCount word :=
  congrArg Span.stop h.span_eq

/-- The span of a token is not empty. -/
theorem Token.StandsIn.start_lt_stop (h : token.StandsIn source before word after) :
    token.span.start < token.span.stop := by
  have hpos := byteCount_pos h.spelled.ne_nil
  rw [h.start_eq, h.stop_eq]
  omega

/-- The token of a lexeme stands where its text does, as long as no span is clamped. -/
theorem standsIn_ofLexeme {kind : TokenKind} (hsize : source.utf8ByteSize ≤ Span.limit)
    (hsource : source.toList = before ++ (word ++ after)) (hword : Spelled after kind word) :
    (Token.ofLexeme source (byteCount before) kind word).StandsIn source before word after := by
  have hstop : byteCount before + byteCount word ≤ Span.limit := by
    rw [← byteCount_toList, hsource, byteCount_append, byteCount_append] at hsize
    omega
  exact {
    source_eq := hsource
    span_eq := Span.between_of_le (by omega) hstop
    text_eq := if_pos hstop
    spelled := hword }

end

/-! ### Layouts -/

/-- A row of tokens takes apart what follows the front of a source: blanks, a token, blanks, and so
on up to the end. -/
inductive Layout (source : String) : List Char → List Token → Prop
  | blanks {front blanks : List Char} : source.toList = front ++ blanks →
      (∀ c ∈ blanks, isBlank c = true) → Layout source front []
  | token {front blanks word after : List Char} {token : Token} {row : List Token} :
      (∀ c ∈ blanks, isBlank c = true) → token.StandsIn source (front ++ blanks) word after →
        Layout source (front ++ blanks ++ word) row → Layout source front (token :: row)

section

variable {source : String} {front : List Char} {row : List Token}

theorem Layout.exists_standsIn (h : Layout source front row) :
    ∀ token ∈ row, ∃ before word after, token.StandsIn source before word after := by
  induction h with
  | blanks => simp
  | token _ hstands _ ih => exact List.forall_mem_cons.2 ⟨⟨_, _, _, hstands⟩, ih⟩

/-- All tokens of a layout stand behind the front. -/
theorem Layout.le_start (h : Layout source front row) :
    ∀ token ∈ row, byteCount front ≤ token.span.start := by
  induction h with
  | blanks => simp
  | @token front blanks word after token row _ hstands _ ih =>
      simp only [byteCount_append] at ih
      refine List.forall_mem_cons.2 ⟨?_, fun other hother => ?_⟩
      · rw [hstands.start_eq, byteCount_append]
        exact Nat.le_add_right _ _
      · have hle := ih other hother
        omega

/-- The tokens of a layout follow each other and do not overlap. -/
theorem Layout.pairwise (h : Layout source front row) :
    row.Pairwise fun first second => first.span.stop ≤ second.span.start := by
  induction h with
  | blanks => exact List.Pairwise.nil
  | token _ hstands hrow ih =>
      refine List.pairwise_cons.2 ⟨fun other hother => ?_, ih⟩
      have hle := hrow.le_start other hother
      rwa [byteCount_append, ← hstands.stop_eq] at hle

/-- What the tokens of a layout leave free is blank. -/
theorem Layout.blankSpan (h : Layout source front row) :
    ∀ gap ∈ gaps (byteCount front) source.utf8ByteSize row, BlankSpan source gap := by
  induction h with
  | @blanks front blanks hsource hblanks =>
      intro gap hgap
      rw [List.mem_singleton.1 hgap]
      refine ⟨front, blanks, [], by rw [hsource, List.append_nil], ?_, hblanks⟩
      rw [← byteCount_append, ← hsource, byteCount_toList]
  | @token front blanks word after token row hblanks hstands _ ih =>
      refine List.forall_mem_cons.2 ⟨?_, ?_⟩
      · refine ⟨front, blanks, word ++ after, ?_, ?_, hblanks⟩
        · rw [hstands.source_eq, List.append_assoc]
        · rw [hstands.start_eq, byteCount_append]
      · rwa [hstands.stop_eq, ← byteCount_append]

end

/-- The tokens of the end of a source, which begins behind some blanks, take it apart. -/
theorem exists_layout_tokensFrom {source : String} (hsize : source.utf8ByteSize ≤ Span.limit)
    {front blanks text : List Char} (hblanks : ∀ c ∈ blanks, isBlank c = true)
    (hsource : source.toList = front ++ blanks ++ text) :
    ∃ row, tokensFrom source (byteCount (front ++ blanks)) (pieces text) =
        row ++ [⟨.finish, ⟨source.utf8ByteSize, source.utf8ByteSize⟩, ""⟩] ∧
      Layout source front row := by
  induction text using text_induction generalizing front blanks with
  | nil =>
      rw [List.append_nil] at hsource
      refine ⟨[], ?_, .blanks hsource hblanks⟩
      rw [pieces_nil, tokensFrom, ← hsource, byteCount_toList, Span.between_of_le hsize hsize]
      rfl
  | piece text piece rest hfirst ih =>
      rw [hfirst.pieces_eq]
      rw [← hfirst.append_eq] at hsource
      cases piece with
      | blank run =>
          -- the blanks are collected until a token comes
          have hsource' : source.toList = front ++ (blanks ++ run) ++ rest := by
            simpa [Piece.text] using hsource
          obtain ⟨row, hrow, hlayout⟩ :=
            ih (List.forall_mem_append.2 ⟨hblanks, hfirst.forall_isBlank⟩) hsource'
          refine ⟨row, ?_, hlayout⟩
          rw [← List.append_assoc, byteCount_append] at hrow
          rw [tokensFrom, hrow]
      | lexeme kind word =>
          have hnone : ∀ c ∈ ([] : List Char), isBlank c = true := by simp
          have hsource' : source.toList = front ++ blanks ++ word ++ [] ++ rest := by
            simpa [Piece.text] using hsource
          obtain ⟨row, hrow, hlayout⟩ := ih hnone hsource'
          refine ⟨Token.ofLexeme source (byteCount (front ++ blanks)) kind word :: row, ?_,
            .token hblanks (standsIn_ofLexeme hsize hsource hfirst.spelled) hlayout⟩
          rw [List.append_nil, byteCount_append] at hrow
          rw [tokensFrom, hrow, List.cons_append]

/-- The tokens of a source take it apart, up to the mark of the end. -/
theorem exists_layout {source : String} (hsize : source.utf8ByteSize ≤ Span.limit) :
    ∃ row, lex source = row ++ [⟨.finish, ⟨source.utf8ByteSize, source.utf8ByteSize⟩, ""⟩] ∧
      Layout source [] row := by
  have hnone : ∀ c ∈ ([] : List Char), isBlank c = true := by simp
  have hsource : source.toList = [] ++ [] ++ source.toList := rfl
  have hlayout := exists_layout_tokensFrom hsize hnone hsource
  rwa [List.append_nil, byteCount_nil] at hlayout

/-! ### Sources -/

/-- **What stands in a source is a token or a blank.**  The last token is the mark of the end, an
empty span at the end of the source, and no other token is one.  The other tokens have spans that
are not empty and begin and end between characters; they follow each other and do not overlap.
Before, between and after them there are only blanks, and they hold none.  The text of each token is
what stands at its place, spelled as its kind demands. -/
theorem lex_covers_source {source : String} (hsize : source.utf8ByteSize ≤ Span.limit) :
    ∃ row mark, lex source = row ++ [mark] ∧
      (mark.kind = .finish ∧ mark.span = ⟨source.utf8ByteSize, source.utf8ByteSize⟩) ∧
      (∀ token ∈ row, token.kind ≠ .finish ∧ token.span.start < token.span.stop ∧
        ∃ before word after, token.StandsIn source before word after ∧
          ∀ c ∈ word, isBlank c = false) ∧
      (row.Pairwise fun first second => first.span.stop ≤ second.span.start) ∧
      ∀ gap ∈ gaps 0 source.utf8ByteSize row, BlankSpan source gap := by
  obtain ⟨row, hlex, hlayout⟩ := exists_layout hsize
  refine ⟨row, _, hlex, ⟨rfl, rfl⟩, fun token htoken => ?_, hlayout.pairwise, hlayout.blankSpan⟩
  obtain ⟨before, word, after, hstands⟩ := hlayout.exists_standsIn token htoken
  exact ⟨hstands.spelled.kind_ne_finish, hstands.start_lt_stop, before, word, after, hstands,
    hstands.spelled.isBlank_eq_false⟩

/-- A character of two bytes that no token begins with, an address that touches the next sign, and a
run with a `+` that is followed by this sign, but by no domain. -/
theorem lex_covers_source_touching :
    ∃ source row mark, lex source = row ++ [mark] ∧
      (source = "é, a@b@ \t+x@;c" ∧ source.utf8ByteSize ≤ Span.limit) ∧
      row.map Token.lexeme = [(.unknown, "é"), (.operator .union, ","), (.address, "a@b"),
        (.unknown, "@"), (.unknown, "+x"), (.unknown, "@"), (.operator .sequence, ";"),
        (.name, "c")] ∧
      gaps 0 source.utf8ByteSize row = [⟨0, 0⟩, ⟨2, 2⟩, ⟨3, 4⟩, ⟨7, 7⟩, ⟨8, 10⟩, ⟨12, 12⟩,
        ⟨13, 13⟩, ⟨14, 14⟩, ⟨15, 15⟩] ∧
      (row.Pairwise fun first second => first.span.stop ≤ second.span.start) ∧
      ∀ gap ∈ gaps 0 source.utf8ByteSize row, BlankSpan source gap := by
  have hsize : "é, a@b@ \t+x@;c".utf8ByteSize ≤ Span.limit := by decide
  obtain ⟨row, mark, hlex, -, -, hpairwise, hgaps⟩ := lex_covers_source hsize
  have htokens : lex "é, a@b@ \t+x@;c" =
      [⟨.unknown, ⟨0, 2⟩, "é"⟩, ⟨.operator .union, ⟨2, 3⟩, ","⟩, ⟨.address, ⟨4, 7⟩, "a@b"⟩,
        ⟨.unknown, ⟨7, 8⟩, "@"⟩, ⟨.unknown, ⟨10, 12⟩, "+x"⟩, ⟨.unknown, ⟨12, 13⟩, "@"⟩,
        ⟨.operator .sequence, ⟨13, 14⟩, ";"⟩, ⟨.name, ⟨14, 15⟩, "c"⟩] ++
          [⟨.finish, ⟨15, 15⟩, ""⟩] := by
    decide +kernel
  obtain ⟨rfl, -⟩ := List.append_inj' (hlex.symm.trans htokens) rfl
  exact ⟨_, _, mark, hlex, ⟨rfl, hsize⟩, rfl, rfl, hpairwise, hgaps⟩

end Roster
