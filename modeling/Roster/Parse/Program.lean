/-
**Programs.**

A program is one expression, from the first token to the mark of the end.  Reading stops at the
first token that does not fit or at the mark of the end, and leaves the tokens from there on, so
that another reading can take up where this one stopped.  A list of tokens without a mark of the
end is read as if it had one.

Main definitions:

* `readProgram`: the expression at the front of a list of tokens, and the tokens that are left;
* `readPrograms`: several readings in a row;
* `parse`: the expression of a source.
-/

import Roster.Parse.State
import Roster.Token.Lexer

set_option relaxedAutoImplicit false
set_option autoImplicit false

namespace Roster

/-- Reads tokens from a state on.  What is left begins with the token that ended the reading. -/
def readFrom : ReadState → List Token → Except ParseError Expr × List Token
  | state, [] => (state.finish, [])
  | state, token :: rest =>
    if token.kind = .finish then
      (state.finish, token :: rest)
    else
      match state.step token with
      | .ok next => readFrom next rest
      | .error error => (.error error, token :: rest)

/-- Reads one program. -/
def readProgram (tokens : List Token) : Except ParseError Expr × List Token :=
  readFrom .start tokens

/-- Reads `count` programs, each from where the one before it stopped. -/
def readPrograms : Nat → List Token → List (Except ParseError Expr)
  | 0, _ => []
  | count + 1, tokens =>
    let (result, rest) := readProgram tokens
    result :: readPrograms count rest

/-- The expression of a source. -/
def parse (source : String) : Except ParseError Expr :=
  (readProgram (lex source)).1

end Roster
