/-
**From a source text to its tokens.**

A source is cut into pieces from left to right, each as long as it can be.  A piece is either blank
or a lexeme:

* a run of blanks is one blank piece;
* a run of word characters that is followed by `@` and at least one name character is an address,
  up to the end of that second run;
* any other run of word characters is a name, unless it holds a `+`, which no name may;
* any other character is a lexeme of its own: an operator, an equals sign, a parenthesis, or
  unknown.

Main definitions:

* `isBlank`, `isNameChar`, `isWordChar`: the character classes;
* `Piece`, `pieces`: the pieces of a text;
* `lex`: the tokens of a source, the last of which marks its end.

Main results:

* `Piece.text_append_rest`: the first piece and what follows it make up the text;
* `flatten_pieces`: no character is lost.
-/

import Roster.Token.Basic

set_option relaxedAutoImplicit false
set_option autoImplicit false

namespace Roster

/-! ### Character classes -/

/-- The characters that may stand between tokens. -/
def isBlank (c : Char) : Bool :=
  c == ' ' || c == '\t' || c == '\r' || c == '\n' || c == '\x0c'

/-- The characters of names and of the domain of an address. -/
def isNameChar (c : Char) : Bool :=
  c.isAlphanum || c == '_' || c == '.' || c == '-'

/-- The characters of the local part of an address. -/
def isWordChar (c : Char) : Bool :=
  isNameChar c || c == '+'

/-- The kind of a character that is a lexeme of its own. -/
def symbolKind (c : Char) : TokenKind :=
  if c = ',' then .operator .union
  else if c = '!' then .operator .difference
  else if c = '*' then .operator .intersection
  else if c = ';' then .operator .sequence
  else if c = '|' then .operator .parallel
  else if c = '=' then .equals
  else if c = '(' then .opening
  else if c = ')' then .closing
  else .unknown

/-- A run of word characters that starts no address is a name if all of it may stand in one. -/
def wordKind (word : List Char) : TokenKind :=
  if word.all isNameChar then .name else .unknown

/-! ### Pieces -/

/-- A stretch of the source. -/
inductive Piece where
  | blank (text : List Char)
  | lexeme (kind : TokenKind) (text : List Char)
deriving DecidableEq

namespace Piece

/-- The characters of a piece. -/
def text : Piece → List Char
  | blank text => text
  | lexeme _ text => text

/-- The first piece of the text `c :: cs`, and what follows it. -/
def first (c : Char) (cs : List Char) : Piece × List Char :=
  if isBlank c then
    (blank (c :: cs.takeWhile isBlank), cs.dropWhile isBlank)
  else if isWordChar c then
    let word := c :: cs.takeWhile isWordChar
    match cs.dropWhile isWordChar with
    | '@' :: tail =>
      match tail.takeWhile isNameChar with
      | [] => (lexeme (wordKind word) word, '@' :: tail)
      | d :: domain =>
        (lexeme .address (word ++ '@' :: d :: domain), tail.dropWhile isNameChar)
    | rest => (lexeme (wordKind word) word, rest)
  else
    (lexeme (symbolKind c) [c], cs)

/-- The first piece and what follows it make up the text. -/
theorem text_append_rest (c : Char) (cs : List Char) :
    (first c cs).1.text ++ (first c cs).2 = c :: cs := by
  unfold first
  split
  · simp [text]
  · split
    · have hword := @List.takeWhile_append_dropWhile _ isWordChar cs
      split
      · rename_i tail hrest
        rw [hrest] at hword
        have htail := @List.takeWhile_append_dropWhile _ isNameChar tail
        split
        · simp [text, hword]
        · rename_i d domain hdomain
          rw [hdomain] at htail
          have htail' : d :: (domain ++ tail.dropWhile isNameChar) = tail := htail
          simp [text, htail', hword]
      · simp [text]
    · simp [text]

theorem text_ne_nil (c : Char) (cs : List Char) : (first c cs).1.text ≠ [] := by
  unfold first
  split
  · simp [text]
  · split
    · split
      · split <;> simp [text]
      · simp [text]
    · simp [text]

/-- What follows the first piece is shorter than the text. -/
theorem length_rest_lt (c : Char) (cs : List Char) :
    (first c cs).2.length < (c :: cs).length := by
  have happend := congrArg List.length (text_append_rest c cs)
  have hpos : 0 < (first c cs).1.text.length := List.length_pos_iff.mpr (text_ne_nil c cs)
  simp only [List.length_append] at happend
  omega

end Piece

/-- The pieces of a text. -/
def pieces : List Char → List Piece
  | [] => []
  | c :: cs =>
    let cut := Piece.first c cs
    cut.1 :: pieces cut.2
termination_by text => text.length
decreasing_by exact Piece.length_rest_lt c cs

@[simp] theorem pieces_nil : pieces [] = [] := by
  rw [pieces]

theorem pieces_cons (c : Char) (cs : List Char) :
    pieces (c :: cs) = (Piece.first c cs).1 :: pieces (Piece.first c cs).2 := by
  rw [pieces]

/-- The pieces of a text make up the text. -/
theorem flatten_pieces (text : List Char) : (pieces text).flatMap Piece.text = text := by
  induction hn : text.length using Nat.strongRecOn generalizing text with
  | ind n ih =>
    cases text with
    | nil => simp
    | cons c cs =>
      have hlt := Piece.length_rest_lt c cs
      rw [pieces_cons, List.flatMap_cons, ih _ (hn ▸ hlt) _ rfl, Piece.text_append_rest]

/-! ### Tokens -/

/-- The token of a lexeme that begins at the byte `start`.  The text of a token is what its span
covers in the source; as long as the span is not clamped, this is the lexeme itself. -/
def Token.ofLexeme (source : String) (start : Nat) (kind : TokenKind) (text : List Char) : Token :=
  let stop := start + byteCount text
  let span := Span.between start stop
  ⟨kind, span, if stop ≤ Span.limit then String.ofList text else span.textIn source⟩

/-- The tokens of the pieces of a source that begin at the byte `start`, followed by the mark of
the end. -/
def tokensFrom (source : String) (start : Nat) : List Piece → List Token
  | [] => [⟨.finish, Span.between start start, ""⟩]
  | .blank text :: rest => tokensFrom source (start + byteCount text) rest
  | .lexeme kind text :: rest =>
    Token.ofLexeme source start kind text :: tokensFrom source (start + byteCount text) rest

/-- The tokens of a source. -/
def lex (source : String) : List Token :=
  tokensFrom source 0 (pieces source.toList)

end Roster
