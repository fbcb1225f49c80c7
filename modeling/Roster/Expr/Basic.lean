/-
**List expressions.**

An expression denotes a set of addresses, computed against bindings of names to expressions, and
may change those bindings on the way.  A list is read by name; the expression bound to the name is
looked up each time the read is evaluated and is never part of the tree that reads it.

Main definitions:

* `Operator`: the five ways to put two expressions together, with their spellings and the
  tightness with which they hold their operands;
* `Expr`: the trees.
-/

import Roster.Name

set_option relaxedAutoImplicit false
set_option autoImplicit false

namespace Roster

/-- The operators of two operands.  The first three combine sets of addresses, the last two
combine evaluations. -/
inductive Operator where
  | union
  | difference
  | intersection
  | sequence
  | parallel
deriving DecidableEq, Inhabited

namespace Operator

/-- The text that stands between the two operands in a rendering. -/
def spelling : Operator → String
  | union => ", "
  | difference => " ! "
  | intersection => " * "
  | sequence => "; "
  | parallel => " | "

/-- How tightly an operator holds its operands.  A definition holds its body with
`definitionTightness`, which lies between sequences and unions. -/
def tightness : Operator → Nat
  | parallel => 0
  | sequence => 1
  | union => 3
  | difference => 4
  | intersection => 5

/-- Whether the order of the operands is left out of account when expressions are compared.  This
is so for unions only. -/
def isUnordered : Operator → Bool
  | union => true
  | difference | intersection | sequence | parallel => false

@[simp] theorem isUnordered_eq_true_iff (op : Operator) :
    op.isUnordered = true ↔ op = union := by
  cases op <;> simp [isUnordered]

end Operator

/-- How tightly a definition holds its body. -/
def definitionTightness : Nat := 2

/-- A list expression. -/
inductive Expr where
  /-- A single address. -/
  | address (text : String)
  /-- The list without addresses. -/
  | empty
  /-- A read of the list bound to a name. -/
  | read (name : Name)
  /-- Two expressions under an operator. -/
  | combine (op : Operator) (left right : Expr)
  /-- Binding a name to a body. -/
  | define (name : Name) (body : Expr)
deriving DecidableEq, Inhabited

end Roster
