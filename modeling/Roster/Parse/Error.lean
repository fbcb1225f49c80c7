/-
**Sources that are no program.**

Main definitions:

* `Expectation`: what would have been right in place of a token;
* `ParseError`, with its place in the source and its message.
-/

import Roster.Token.Basic

set_option relaxedAutoImplicit false
set_option autoImplicit false

namespace Roster

/-- What may stand at a place of the source. -/
inductive Expectation where
  /-- The beginning of an operand. -/
  | operand
  /-- The end of the innermost open group. -/
  | closing
  /-- An operator, or the end of the source. -/
  | operatorOrEnd
deriving DecidableEq, Inhabited

/-- The words for what may stand at a place. -/
def Expectation.describe : Expectation → String
  | operand => "an email address, a list name or `(`"
  | closing => "`)`"
  | operatorOrEnd => "an operator or end of input"

/-- Why a source is no program. -/
inductive ParseError where
  /-- A token that does not fit its place. -/
  | misplaced (found : TokenKind) (expected : Expectation) (span : Span)
  /-- Text that is no token, at a place where nothing of it fits. -/
  | unrecognised (text : String) (span : Span)
  /-- A group that is never closed; the span is that of its parenthesis. -/
  | unclosed (span : Span)
  /-- A definition of something other than a name; the span is that of the equals sign. -/
  | undefinable (span : Span)
deriving DecidableEq, Inhabited

namespace ParseError

/-- The place that an error points at. -/
def span : ParseError → Span
  | misplaced _ _ span => span
  | unrecognised _ span => span
  | unclosed span => span
  | undefinable span => span

/-- The message of an error. -/
def message : ParseError → String
  | misplaced found expected span =>
    "unexpected " ++ found.describe ++ " at " ++ span.display ++ ", expected " ++
      expected.describe
  | unrecognised text span => "unrecognised input `" ++ text ++ "` at " ++ span.display
  | unclosed span => "unclosed `(` opened at " ++ span.display
  | undefinable span => "only a list name can be defined, found `=` at " ++ span.display

/-- The error for a token in a place where something else is expected. -/
def ofToken (token : Token) (expected : Expectation) : ParseError :=
  if token.kind = .unknown then
    unrecognised token.text token.span
  else
    misplaced token.kind expected token.span

end ParseError

end Roster
