/-
**The lexemes of a text.**

What a reading makes of a source depends on the kinds and the texts of its tokens, and not on the
blanks between them.  Here a text is taken to the list of these pairs, its lexemes, and lexemes are
taken off the front of a text one at a time.  A name or an address is only taken off as a whole: it
ends where its characters end, and what follows must not go on with a character that would have been
read along with it.

Main definitions:

* `lexemes`: the kinds and the texts of the lexemes of a text;
* `Detached`: a text that adds nothing to a name or an address before it.

Main results:

* `map_lexeme_lex`: the tokens of a source are its lexemes and the mark of the end, unless the
  source is too long for its spans;
* `exists_lex_eq`: the mark of the end is the last token of a source, and the only one of its kind;
* `lex_eq_ofSpan`: the text of a token is what its span covers in the source;
* `exists_spelled_of_mem_lexemes`: how lexemes are spelled;
* `lexemes_blank`, `lexemes_symbol`, `lexemes_name`, `lexemes_address`: the front of a text.
-/

import Roster.Proofs.Token.Spelling

set_option relaxedAutoImplicit false
set_option autoImplicit false

namespace Roster

/-! ### Lexemes and tokens -/

/-- The kind and the text of a piece that is no blank. -/
def Piece.lexeme? : Piece → Option (TokenKind × String)
  | .blank _ => none
  | .lexeme kind text => some (kind, String.ofList text)

/-- The kind and the text of a token. -/
def Token.lexeme (token : Token) : TokenKind × String := (token.kind, token.text)

/-- The kinds and the texts of the lexemes of a text. -/
def lexemes (text : List Char) : List (TokenKind × String) :=
  (pieces text).filterMap Piece.lexeme?

@[simp] theorem lexemes_nil : lexemes [] = [] := by
  rw [lexemes, pieces_nil, List.filterMap_nil]

theorem FirstPiece.lexemes_eq {text rest : List Char} {piece : Piece}
    (h : FirstPiece text piece rest) :
    lexemes text = piece.lexeme?.toList ++ lexemes rest := by
  rw [lexemes, h.pieces_eq, List.filterMap_cons, lexemes]
  cases piece.lexeme? with
  | none => rfl
  | some lexeme => rfl

/-- As long as no span is clamped, the text of a token is that of its lexeme. -/
theorem map_lexeme_tokensFrom {source : String} {start : Nat} {row : List Piece}
    (h : start + byteCount (row.flatMap Piece.text) ≤ Span.limit) :
    (tokensFrom source start row).map Token.lexeme =
      row.filterMap Piece.lexeme? ++ [(.finish, "")] := by
  induction row generalizing start with
  | nil => rfl
  | cons piece row ih =>
      rw [List.flatMap_cons, byteCount_append, ← Nat.add_assoc] at h
      cases piece with
      | blank text => exact ih h
      | lexeme kind text =>
          rw [Piece.text] at h
          have hstop : start + byteCount text ≤ Span.limit := Nat.le_trans (Nat.le_add_right _ _) h
          have htoken : (Token.ofLexeme source start kind text).lexeme =
              (kind, String.ofList text) := by
            rw [Token.lexeme, Token.ofLexeme]
            simp only [if_pos hstop]
          rw [tokensFrom, List.map_cons, ih h, htoken]
          rfl

/-- **The tokens of a source are its lexemes and the mark of the end.** -/
theorem map_lexeme_lex {source : String} (h : source.utf8ByteSize ≤ Span.limit) :
    (lex source).map Token.lexeme = lexemes source.toList ++ [(.finish, "")] := by
  refine map_lexeme_tokensFrom ?_
  rwa [flatten_pieces, byteCount_toList, Nat.zero_add]

/-- The kinds of the tokens of a source do not depend on its spans. -/
theorem map_kind_tokensFrom (source : String) (start : Nat) (row : List Piece) :
    (tokensFrom source start row).map Token.kind =
      (row.filterMap Piece.lexeme?).map Prod.fst ++ [.finish] := by
  induction row generalizing start with
  | nil => rfl
  | cons piece row ih =>
      cases piece with
      | blank text => exact ih _
      | lexeme kind text =>
          rw [tokensFrom, List.map_cons, ih]
          rfl

theorem map_kind_lex (source : String) :
    (lex source).map Token.kind = (lexemes source.toList).map Prod.fst ++ [.finish] :=
  map_kind_tokensFrom source 0 (pieces source.toList)

/-! ### Texts and spans -/

/-- Nothing stands between a position and itself. -/
theorem textIn_self (source : String) (position : Nat) :
    Span.textIn ⟨position, position⟩ source = "" := by
  rw [Span.textIn, if_pos (Nat.le_refl position)]
  cases splitBytes position source.toList with
  | none => rfl
  | some parts => simp [splitBytes]

/-- The text of a lexeme at its place in the source is what the span of its token covers, also when
the span is clamped. -/
theorem ofLexeme_eq_ofSpan {source : String} {before text after : List Char}
    (h : source.toList = before ++ (text ++ after)) (kind : TokenKind) :
    Token.ofLexeme source (byteCount before) kind text =
      Token.ofSpan source kind
        (Span.between (byteCount before) (byteCount before + byteCount text)) := by
  rw [Token.ofLexeme, Token.ofSpan]
  by_cases hstop : byteCount before + byteCount text ≤ Span.limit
  · have hstart : byteCount before ≤ Span.limit := Nat.le_trans (Nat.le_add_right _ _) hstop
    have hsource : source = String.ofList (before ++ (text ++ after)) := by
      rw [← h, String.ofList_toList]
    simp only [if_pos hstop, Span.between_of_le hstart hstop]
    rw [hsource, Span.textIn_middle]
  · simp only [if_neg hstop]

theorem tokensFrom_eq_ofSpan {source : String} {before : List Char} {row : List Piece}
    (h : source.toList = before ++ row.flatMap Piece.text) :
    ∀ token ∈ tokensFrom source (byteCount before) row,
      token = Token.ofSpan source token.kind token.span := by
  induction row generalizing before with
  | nil =>
      intro token htoken
      obtain rfl := List.mem_singleton.1 htoken
      rw [Token.ofSpan, Span.between, textIn_self]
  | cons piece row ih =>
      rw [List.flatMap_cons, ← List.append_assoc] at h
      have hrest := ih h
      rw [byteCount_append] at hrest
      intro token htoken
      cases piece with
      | blank text => exact hrest token htoken
      | lexeme kind text =>
          rcases List.mem_cons.1 htoken with rfl | htoken
          · rw [List.append_assoc] at h
            exact ofLexeme_eq_ofSpan h kind
          · exact hrest token htoken

/-- **The text of every token is what its span covers in the source.** -/
theorem lex_eq_ofSpan {source : String} {token : Token} (h : token ∈ lex source) :
    token = Token.ofSpan source token.kind token.span := by
  have hsource : source.toList = [] ++ (pieces source.toList).flatMap Piece.text := by
    rw [flatten_pieces, List.nil_append]
  exact tokensFrom_eq_ofSpan hsource token h

/-! ### Detached texts -/

/-- A text that does not go on with a name or an address that ends before it. -/
def Detached (rest : List Char) : Prop :=
  ∀ c ∈ rest.head?, isWordChar c = false ∧ c ≠ '@'

@[simp] theorem detached_nil : Detached [] := by
  intro c hc
  cases hc

@[simp] theorem detached_cons {c : Char} {rest : List Char} :
    Detached (c :: rest) ↔ isWordChar c = false ∧ c ≠ '@' := by
  simp [Detached]

theorem Detached.isNameChar_head {rest : List Char} (h : Detached rest) :
    ∀ c ∈ rest.head?, isNameChar c = false := by
  intro c hc
  cases hname : isNameChar c with
  | false => rfl
  | true =>
      have hword := (h c hc).1
      rw [isWordChar_of_isNameChar hname] at hword
      cases hword

/-! ### The texts of lexemes -/

/-- Every lexeme of a text stands somewhere in it, spelled as its kind demands. -/
theorem exists_spelled_of_mem_lexemes {text : List Char} {kind : TokenKind} {word : String}
    (h : (kind, word) ∈ lexemes text) :
    ∃ rest, word.toList ++ rest <:+ text ∧ Spelled rest kind word.toList := by
  obtain ⟨piece, hpiece, hlexeme⟩ := List.mem_filterMap.1 h
  obtain ⟨stop, rest, hsuffix, hfirst⟩ := exists_firstPiece_of_mem hpiece
  cases piece with
  | blank run => simp [Piece.lexeme?] at hlexeme
  | lexeme kind' run =>
      obtain ⟨rfl, rfl⟩ := Prod.mk.inj (Option.some.inj hlexeme)
      rw [String.toList_ofList]
      refine ⟨rest, ?_, hfirst.spelled⟩
      rwa [← hfirst.append_eq] at hsuffix

/-- A lexeme that is a name is spelled as one. -/
theorem nameText_of_mem_lexemes {text : List Char} {word : String}
    (h : (.name, word) ∈ lexemes text) : NameText word.toList := by
  obtain ⟨_, -, hspelled⟩ := exists_spelled_of_mem_lexemes h
  exact hspelled.nameText

/-- A lexeme that is an address is spelled as one. -/
theorem addressText_of_mem_lexemes {text : List Char} {word : String}
    (h : (.address, word) ∈ lexemes text) : AddressText word.toList := by
  obtain ⟨_, -, hspelled⟩ := exists_spelled_of_mem_lexemes h
  exact hspelled.addressText

theorem kind_ne_finish_of_mem_lexemes {text : List Char} {kind : TokenKind} {word : String}
    (h : (kind, word) ∈ lexemes text) : kind ≠ .finish := by
  obtain ⟨_, -, hspelled⟩ := exists_spelled_of_mem_lexemes h
  exact hspelled.kind_ne_finish

/-- The mark of the end is the last token of a source, and no other token is one. -/
theorem exists_lex_eq (source : String) :
    ∃ row mark, lex source = row ++ [mark] ∧ mark.kind = .finish ∧
      (∀ token ∈ row, token.kind ≠ .finish) ∧
        row.map Token.kind = (lexemes source.toList).map Prod.fst := by
  obtain ⟨row, last, hlex, hrow, hlast⟩ := List.map_eq_append_iff.1 (map_kind_lex source)
  obtain ⟨mark, rfl, hmark⟩ := List.map_eq_singleton_iff.1 hlast
  refine ⟨row, mark, hlex, hmark, fun token htoken => ?_, hrow⟩
  have hkind : token.kind ∈ (lexemes source.toList).map Prod.fst := by
    rw [← hrow]
    exact List.mem_map_of_mem htoken
  obtain ⟨⟨kind, word⟩, hmem, hkind⟩ := List.mem_map.1 hkind
  rw [← hkind]
  exact kind_ne_finish_of_mem_lexemes hmem

/-! ### The front of a text -/

/-- Blanks at the front make no difference. -/
theorem lexemes_blank {c : Char} (hc : isBlank c = true) (cs : List Char) :
    lexemes (c :: cs) = lexemes cs := by
  have hdrop : ∀ {c : Char} {cs : List Char}, isBlank c = true →
      lexemes (c :: cs) = lexemes (cs.dropWhile isBlank) := by
    intro c cs hc
    have hrun : ∀ d ∈ c :: cs.takeWhile isBlank, isBlank d = true :=
      List.forall_mem_cons.2 ⟨hc, forall_mem_takeWhile cs⟩
    have hlexemes := (FirstPiece.blank hrun (head_dropWhile cs)).lexemes_eq
    rwa [List.takeWhile_append_dropWhile] at hlexemes
  rw [hdrop hc]
  cases cs with
  | nil => rfl
  | cons d ds =>
      cases hd : isBlank d with
      | true => rw [List.dropWhile_cons, if_pos hd, hdrop hd]
      | false => rw [List.dropWhile_cons, if_neg (by simp [hd])]

/-- A character that is a lexeme of its own. -/
theorem lexemes_symbol {c : Char} (hblank : isBlank c = false) (hword : isWordChar c = false)
    (cs : List Char) :
    lexemes (c :: cs) = (symbolKind c, String.ofList [c]) :: lexemes cs :=
  (FirstPiece.symbol hblank hword).lexemes_eq

theorem lexemes_name {text rest : List Char} (h : NameText text) (hrest : Detached rest) :
    lexemes (text ++ rest) = (.name, String.ofList text) :: lexemes rest := by
  cases text with
  | nil => exact absurd rfl h.nonempty
  | cons c run =>
      have hnone : ∀ d tail, rest = '@' :: d :: tail → isNameChar d = false := by
        rintro d tail rfl
        exact absurd rfl (hrest '@' rfl).2
      have hfirst := FirstPiece.word (fun d hd => isWordChar_of_isNameChar (h.chars d hd))
        (fun d hd => (hrest d hd).1) hnone
      rw [wordKind_eq_name_iff.2 h.chars] at hfirst
      exact hfirst.lexemes_eq

/-- The characters of an address are taken as a whole, although the part before `@` might stand on
its own. -/
theorem lexemes_address {text rest : List Char} (h : AddressText text) (hrest : Detached rest) :
    lexemes (text ++ rest) = (.address, String.ofList text) :: lexemes rest := by
  obtain ⟨mailbox, domain, rfl, ⟨hne, hmailbox⟩, hdomain⟩ := h
  cases mailbox with
  | nil => exact absurd rfl hne
  | cons c mailbox =>
      cases domain with
      | nil => exact absurd rfl hdomain.nonempty
      | cons d domain =>
          rw [List.append_assoc]
          exact (FirstPiece.address hmailbox hdomain.chars hrest.isNameChar_head).lexemes_eq

end Roster
