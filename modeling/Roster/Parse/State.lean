/-
**Reading tokens one at a time.**

The state of a reading holds what is still waiting for a right operand.  Inside one group these are
the left operands with their operators and the names being defined, innermost first; around it are
the groups that are still open, each with what was waiting when it was opened.  Beyond that a state
only knows whether an operand or an operator comes next.

An operator first takes everything that holds its operand at least as tightly, so that operators of
one tightness group to the left.  A definition takes nothing, so that definitions group to the
right; it is only possible after a name at the beginning of a group, of a side of `;` or `|`, or of
the body of a definition.

Main definitions:

* `Pending`, `OpenGroup`, `Position`, `ReadState`: the state;
* `ReadState.step`: the state after one more token;
* `ReadState.finish`: the expression at the end of the source.
-/

import Roster.Parse.Error

set_option relaxedAutoImplicit false
set_option autoImplicit false

namespace Roster

/-! ### What waits for a right operand -/

/-- An operator with its left operand, or a definition without its body. -/
inductive Pending where
  | operand (op : Operator) (left : Expr)
  | definition (name : Name)
deriving DecidableEq

namespace Pending

/-- How tightly the missing right operand is held. -/
def tightness : Pending → Nat
  | operand op _ => op.tightness
  | definition _ => definitionTightness

/-- Supplies the missing right operand. -/
def fill : Pending → Expr → Expr
  | operand op left, right => .combine op left right
  | definition name, body => .define name body

/-- Supplies a right operand to everything that holds it at least as tightly as `tightness`. -/
def fillWhile (tightness : Nat) : List Pending → Expr → List Pending × Expr
  | [], e => ([], e)
  | pending :: rest, e =>
    if tightness ≤ pending.tightness then
      fillWhile tightness rest (pending.fill e)
    else
      (pending :: rest, e)

/-- Supplies a right operand to everything that waits. -/
def fillAll (waiting : List Pending) (e : Expr) : Expr :=
  waiting.foldl (fun acc pending => pending.fill acc) e

/-- Whether a definition may begin: at the beginning of a group, after `;` or `|`, and as the body
of a definition. -/
def admitsDefinition : List Pending → Bool
  | [] => true
  | definition _ :: _ => true
  | operand op _ :: _ => op.tightness < definitionTightness

end Pending

/-! ### States -/

/-- A group that is not closed yet: the place of its parenthesis, and what was waiting around it. -/
structure OpenGroup where
  opened : Span
  waiting : List Pending
deriving DecidableEq

/-- What comes next. -/
inductive Position where
  /-- An operand. -/
  | operand
  /-- An operator after the operand `e`, which is `target` if it may be defined here. -/
  | operator (e : Expr) (target : Option Name)
deriving DecidableEq

/-- The state of a reading. -/
structure ReadState where
  waiting : List Pending
  groups : List OpenGroup
  position : Position
deriving DecidableEq

namespace ReadState

/-- The state in front of the first token. -/
def start : ReadState := ⟨[], [], .operand⟩

/-- What an operand may be followed by, apart from an operator that is written between operands. -/
def expectation (state : ReadState) : Expectation :=
  if state.groups.isEmpty then .operatorOrEnd else .closing

/-- The state after a token that follows the operand `e`. -/
def afterOperand (state : ReadState) (e : Expr) (target : Option Name) (token : Token) :
    Except ParseError ReadState :=
  match token.kind with
  | .operator op =>
    let (waiting, left) := Pending.fillWhile op.tightness state.waiting e
    .ok ⟨.operand op left :: waiting, state.groups, .operand⟩
  | .equals =>
    match target with
    | some name => .ok ⟨.definition name :: state.waiting, state.groups, .operand⟩
    | none => .error (.undefinable token.span)
  | .closing =>
    match state.groups with
    | [] => .error (.ofToken token .operatorOrEnd)
    | group :: groups =>
      .ok ⟨group.waiting, groups, .operator (Pending.fillAll state.waiting e) none⟩
  | .address | .name | .opening | .unknown | .finish =>
    .error (.ofToken token state.expectation)

/-- The state after one more token, which is not the end of the source. -/
def step (state : ReadState) (token : Token) : Except ParseError ReadState :=
  match state.position with
  | .operator e target => state.afterOperand e target token
  | .operand =>
    match token.kind with
    | .address => .ok ⟨state.waiting, state.groups, .operator (.address token.text) none⟩
    | .name =>
      let name : Name := ⟨token.text⟩
      let target := if Pending.admitsDefinition state.waiting then some name else none
      .ok ⟨state.waiting, state.groups, .operator (.read name) target⟩
    | .opening => .ok ⟨[], ⟨token.span, state.waiting⟩ :: state.groups, .operand⟩
    | kind =>
      if kind.mayFollowOperand then
        state.afterOperand .empty none token
      else
        .error (.ofToken token .operand)

/-- The expression of a state at the end of the source, where every group has to be closed. -/
def finish (state : ReadState) : Except ParseError Expr :=
  match state.groups with
  | group :: _ => .error (.unclosed group.opened)
  | [] =>
    match state.position with
    | .operator e _ => .ok (Pending.fillAll state.waiting e)
    | .operand => .ok (Pending.fillAll state.waiting .empty)

end ReadState

end Roster
