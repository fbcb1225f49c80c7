/-
**Tokens.**

A token is a kind, the span it takes in the source, and the text of that span.

Main definitions:

* `TokenKind`, with the words that messages use for each kind;
* `TokenKind.mayFollowOperand`: the kinds before which a missing operand stands for the empty list;
* `Token`, `Token.ofSpan`: a token, and the token whose text is cut out of a source.
-/

import Roster.Expr.Basic
import Roster.Text.Span

set_option relaxedAutoImplicit false
set_option autoImplicit false

namespace Roster

/-- The kinds of tokens. -/
inductive TokenKind where
  | address
  | name
  | operator (op : Operator)
  /-- The sign between a name and its definition. -/
  | equals
  | opening
  | closing
  /-- Text that belongs to no other kind. -/
  | unknown
  /-- The end of the source. -/
  | finish
deriving DecidableEq, Inhabited

namespace TokenKind

/-- The words for a kind in messages. -/
def describe : TokenKind → String
  | address => "an email address"
  | name => "a list name"
  | operator .union => "`,`"
  | operator .difference => "`!`"
  | operator .intersection => "`*`"
  | operator .sequence => "`;`"
  | operator .parallel => "`|`"
  | equals => "`=`"
  | opening => "`(`"
  | closing => "`)`"
  | unknown => "an unrecognised character"
  | finish => "end of input"

/-- Whether a token of this kind may follow an operand: an operator, a closing parenthesis or the
end of the source.  In front of these a missing operand is the empty list. -/
def mayFollowOperand : TokenKind → Bool
  | operator _ | closing | finish => true
  | address | name | equals | opening | unknown => false

end TokenKind

/-- A token with its place in the source and its text. -/
structure Token where
  kind : TokenKind
  span : Span
  text : String
deriving DecidableEq, Inhabited

/-- The token of a kind whose text is what its span covers in the source. -/
def Token.ofSpan (source : String) (kind : TokenKind) (span : Span) : Token :=
  ⟨kind, span, span.textIn source⟩

end Roster
