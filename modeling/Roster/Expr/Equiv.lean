/-
**Equality of expressions up to the order of unions.**

Two trees are equivalent when they have the same shape and the same texts, where the two operands
of a union may stand in either order.  No other operator lets its operands be exchanged: an
intersection denotes the same set either way, but its two orders are different expressions.

Main definitions:

* `Expr.equiv`: the test;
* `Expr.firstEquiv`: the position of the first expression of a list that is equivalent to a given
  one;
* `Expr.distinctCount`: the number of expressions in a list that differ from each other.

Main results:

* `Expr.equiv_refl`: every expression is equivalent to itself;
* `Expr.equiv_union_swap`: a union is equivalent to the union of its operands in the other order.
-/

import Roster.Expr.Basic

set_option relaxedAutoImplicit false
set_option autoImplicit false

namespace Roster.Expr

/-- Whether two expressions are equal up to the order of the operands of unions. -/
def equiv : Expr → Expr → Bool
  | address first, address second => first == second
  | empty, empty => true
  | read first, read second => first == second
  | combine op left right, combine op' left' right' =>
    op == op' &&
      ((equiv left left' && equiv right right') ||
        (op.isUnordered && (equiv left right' && equiv right left')))
  | define name body, define name' body' => name == name' && equiv body body'
  | _, _ => false

@[simp] theorem equiv_refl (e : Expr) : e.equiv e = true := by
  induction e with
  | address text => simp [equiv]
  | empty => rfl
  | read name => simp [equiv]
  | combine op left right ihl ihr => simp [equiv, ihl, ihr]
  | define name body ih => simp [equiv, ih]

/-- Exchanging the operands of a union gives an equivalent expression. -/
theorem equiv_union_swap (left right : Expr) :
    (combine .union left right).equiv (combine .union right left) = true := by
  simp [equiv, Operator.isUnordered]

/-- The position of the first expression of `es` that is equivalent to `e`, and the length of `es`
when there is none. -/
def firstEquiv (es : List Expr) (e : Expr) : Nat :=
  es.findIdx fun other => other.equiv e

/-- The number of expressions in a list that are equivalent to no earlier one. -/
def distinctCount (es : List Expr) : Nat :=
  es.zipIdx.countP fun entry => firstEquiv es entry.1 == entry.2

end Roster.Expr
