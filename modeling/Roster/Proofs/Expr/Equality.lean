/-
**Equality of expressions is what exchanges under unions leave equal.**

The test for equality compares two trees from their roots down and tries both orders at every union.
What it decides can be said without looking at two trees side by side: one of them is turned into
the other by exchanging the operands of a union, at one node after the other, as often as it takes.
An exchange under any other operator makes a difference, at whatever depth it is made, unless the
two operands were equal to begin with.

Equal expressions are fed to a hasher as the same writes.  Here exchanges pay: one exchange leaves
the writes as they are, since a union is fed as the sum of two digests, and so does any number of
them.

Main definitions:

* `Expr.Exchange`: one tree is another one with the operands of one node exchanged;
* `Expr.UnionExchange`: that node is a union.

Main results:

* `Expr.equiv_trans`: equality is transitive;
* `Expr.Exchange.equiv_iff_of_ordered`: an exchange under an ordered operator is noticed;
* `Expr.equiv_iff_exchanges`: **equality is exactly what exchanges under unions leave equal**;
* `Expr.hashWrites_of_equiv`: **equal expressions are hashed alike**.
-/

import Mathlib.Logic.Relation
import Roster.Expr.Equiv
import Roster.Expr.Hash

set_option relaxedAutoImplicit false
set_option autoImplicit false

namespace Roster.Expr

/-! ### Exchanges -/

/-- The second tree is the first one with the operands `l` and `r` of one node exchanged, which
stands under the operator `op`. -/
inductive Exchange (op : Operator) (l r : Expr) : Expr → Expr → Prop
  | here : Exchange op l r (.combine op l r) (.combine op r l)
  | inLeft {other : Operator} {left left' right : Expr} :
      Exchange op l r left left' →
        Exchange op l r (.combine other left right) (.combine other left' right)
  | inRight {other : Operator} {left right right' : Expr} :
      Exchange op l r right right' →
        Exchange op l r (.combine other left right) (.combine other left right')
  | inBody {name : Name} {body body' : Expr} :
      Exchange op l r body body' → Exchange op l r (.define name body) (.define name body')

/-- The second tree is the first one with the operands of one union exchanged. -/
def UnionExchange (e e' : Expr) : Prop := ∃ l r, Exchange .union l r e e'

section

variable {op : Operator} {l r l' r' e e' : Expr} {name : Name}

/-! ### What is equal to an expression of a given form -/

theorem equiv_address_iff {text : String} : (address text).equiv e = true ↔ e = address text := by
  rw [@eq_comm _ e]
  cases e <;> simp [equiv]

theorem equiv_empty_iff : empty.equiv e = true ↔ e = empty := by
  cases e <;> simp [equiv]

theorem equiv_read_iff : (read name).equiv e = true ↔ e = read name := by
  rw [@eq_comm _ e]
  cases e <;> simp [equiv]

theorem equiv_combine_iff :
    (combine op l r).equiv e = true ↔ ∃ l' r', e = combine op l' r' ∧
      (l.equiv l' = true ∧ r.equiv r' = true ∨
        op = .union ∧ l.equiv r' = true ∧ r.equiv l' = true) := by
  cases e with
  | combine other left right =>
      constructor
      · intro h
        simp only [equiv, Bool.and_eq_true, Bool.or_eq_true, beq_iff_eq,
          Operator.isUnordered_eq_true_iff] at h
        obtain ⟨rfl, h⟩ := h
        exact ⟨left, right, rfl, h⟩
      · rintro ⟨l', r', heq, h⟩
        cases heq
        simpa [equiv] using h
  | _ => simp [equiv]

theorem equiv_define_iff {body : Expr} :
    (define name body).equiv e = true ↔
      ∃ body', e = define name body' ∧ body.equiv body' = true := by
  cases e with
  | define other body' =>
      constructor
      · intro h
        simp only [equiv, Bool.and_eq_true, beq_iff_eq] at h
        obtain ⟨rfl, h⟩ := h
        exact ⟨body', rfl, h⟩
      · rintro ⟨body', heq, h⟩
        cases heq
        simpa [equiv] using h
  | _ => simp [equiv]

/-! ### Equality is an equivalence, and every constructor keeps it -/

theorem equiv_combine (op : Operator) (hl : l.equiv l' = true) (hr : r.equiv r' = true) :
    (combine op l r).equiv (combine op l' r') = true :=
  equiv_combine_iff.2 ⟨l', r', rfl, Or.inl ⟨hl, hr⟩⟩

theorem equiv_define (name : Name) {body body' : Expr} (h : body.equiv body' = true) :
    (define name body).equiv (define name body') = true :=
  equiv_define_iff.2 ⟨body', rfl, h⟩

theorem equiv_symm (h : e.equiv e' = true) : e'.equiv e = true := by
  induction e generalizing e' with
  | address text => rw [equiv_address_iff.1 h, equiv_refl]
  | empty => rw [equiv_empty_iff.1 h, equiv_refl]
  | read name => rw [equiv_read_iff.1 h, equiv_refl]
  | combine op l r ihl ihr =>
      obtain ⟨l', r', rfl, ⟨hl, hr⟩ | ⟨rfl, hl, hr⟩⟩ := equiv_combine_iff.1 h
      · exact equiv_combine op (ihl hl) (ihr hr)
      · exact equiv_combine_iff.2 ⟨l, r, rfl, Or.inr ⟨rfl, ihr hr, ihl hl⟩⟩
  | define name body ih =>
      obtain ⟨body', rfl, hbody⟩ := equiv_define_iff.1 h
      exact equiv_define name (ih hbody)

/-- Equality is transitive.  Below a union that is exchanged twice the operands are back in their
order, and below one that is exchanged once they are not. -/
theorem equiv_trans {e'' : Expr} (h : e.equiv e' = true) (h' : e'.equiv e'' = true) :
    e.equiv e'' = true := by
  induction e generalizing e' e'' with
  | address text => rwa [equiv_address_iff.1 h] at h'
  | empty => rwa [equiv_empty_iff.1 h] at h'
  | read name => rwa [equiv_read_iff.1 h] at h'
  | combine op l r ihl ihr =>
      obtain ⟨l', r', rfl, hfirst⟩ := equiv_combine_iff.1 h
      obtain ⟨l'', r'', rfl, hsecond⟩ := equiv_combine_iff.1 h'
      refine equiv_combine_iff.2 ⟨l'', r'', rfl, ?_⟩
      rcases hfirst with ⟨hl, hr⟩ | ⟨hop, hl, hr⟩ <;>
        rcases hsecond with ⟨hl', hr'⟩ | ⟨hop', hl', hr'⟩
      · exact Or.inl ⟨ihl hl hl', ihr hr hr'⟩
      · exact Or.inr ⟨hop', ihl hl hl', ihr hr hr'⟩
      · exact Or.inr ⟨hop, ihl hl hr', ihr hr hl'⟩
      · exact Or.inl ⟨ihl hl hr', ihr hr hl'⟩
  | define name body ih =>
      obtain ⟨body', rfl, hbody⟩ := equiv_define_iff.1 h
      obtain ⟨body'', rfl, hbody'⟩ := equiv_define_iff.1 h'
      exact equiv_define name (ih hbody hbody')

theorem equivalence_equiv : Equivalence fun e e' : Expr => e.equiv e' = true :=
  ⟨equiv_refl, equiv_symm, equiv_trans⟩

/-! ### One exchange -/

/-- Beside the same right operand, trees are equal only if the left operands are: if the operands
were exchanged, both left operands are equal to the right one. -/
theorem equiv_combine_left_iff :
    (combine op l r).equiv (combine op l' r) = true ↔ l.equiv l' = true := by
  refine ⟨fun h => ?_, fun h => equiv_combine op h (equiv_refl r)⟩
  obtain ⟨_, _, heq, ⟨hl, -⟩ | ⟨-, hl, hr⟩⟩ := equiv_combine_iff.1 h
  · cases heq
    exact hl
  · cases heq
    exact equiv_trans hl hr

theorem equiv_combine_right_iff :
    (combine op l r).equiv (combine op l r') = true ↔ r.equiv r' = true := by
  refine ⟨fun h => ?_, fun h => equiv_combine op (equiv_refl l) h⟩
  obtain ⟨_, _, heq, ⟨-, hr⟩ | ⟨-, hl, hr⟩⟩ := equiv_combine_iff.1 h
  · cases heq
    exact hr
  · cases heq
    exact equiv_trans hr hl

/-- Two trees that differ by an exchange are equal exactly if the two orders of that node are. -/
theorem Exchange.equiv_iff (h : Exchange op l r e e') :
    e.equiv e' = true ↔ (combine op l r).equiv (combine op r l) = true := by
  induction h with
  | here => exact Iff.rfl
  | inLeft _ ih => exact equiv_combine_left_iff.trans ih
  | inRight _ ih => exact equiv_combine_right_iff.trans ih
  | inBody _ ih => exact Iff.trans (by simp [equiv]) ih

/-- An exchange of union operands is never noticed. -/
theorem UnionExchange.equiv (h : UnionExchange e e') : e.equiv e' = true := by
  obtain ⟨l, r, h⟩ := h
  exact h.equiv_iff.2 (equiv_union_swap l r)

/-- An exchange under an ordered operator is noticed, unless the operands were equal. -/
theorem Exchange.equiv_iff_of_ordered (h : Exchange op l r e e') (hop : op ≠ .union) :
    e.equiv e' = true ↔ l.equiv r = true := by
  rw [h.equiv_iff]
  constructor
  · intro hswap
    obtain ⟨_, _, heq, ⟨hl, -⟩ | ⟨hunion, -⟩⟩ := equiv_combine_iff.1 hswap
    · cases heq
      exact hl
    · exact absurd hunion hop
  · exact fun hl => equiv_combine op hl (equiv_symm hl)

/-! ### Any number of exchanges -/

theorem exchanges_combine (op : Operator) (hl : Relation.ReflTransGen UnionExchange l l')
    (hr : Relation.ReflTransGen UnionExchange r r') :
    Relation.ReflTransGen UnionExchange (combine op l r) (combine op l' r') :=
  (hl.lift (combine op · r) fun _ _ ⟨a, b, h⟩ => ⟨a, b, h.inLeft⟩).trans
    (hr.lift (combine op l') fun _ _ ⟨a, b, h⟩ => ⟨a, b, h.inRight⟩)

/-- Equal trees are turned into each other by exchanges: first below the operands, and then of the
operands themselves where the test went crosswise. -/
theorem exchanges_of_equiv (h : e.equiv e' = true) : Relation.ReflTransGen UnionExchange e e' := by
  induction e generalizing e' with
  | address text => rw [equiv_address_iff.1 h]
  | empty => rw [equiv_empty_iff.1 h]
  | read name => rw [equiv_read_iff.1 h]
  | combine op l r ihl ihr =>
      obtain ⟨l', r', rfl, ⟨hl, hr⟩ | ⟨rfl, hl, hr⟩⟩ := equiv_combine_iff.1 h
      · exact exchanges_combine op (ihl hl) (ihr hr)
      · exact (exchanges_combine .union (ihl hl) (ihr hr)).tail ⟨r', l', Exchange.here⟩
  | define name body ih =>
      obtain ⟨body', rfl, hbody⟩ := equiv_define_iff.1 h
      exact (ih hbody).lift (define name) fun _ _ ⟨a, b, h⟩ => ⟨a, b, h.inBody⟩

theorem equiv_of_exchanges (h : Relation.ReflTransGen UnionExchange e e') :
    e.equiv e' = true := by
  induction h with
  | refl => exact equiv_refl e
  | tail _ hexchange ih => exact equiv_trans ih hexchange.equiv

end

/-- **Two expressions are equal exactly if exchanges of union operands, at any depth and any number
of times, turn one into the other.**  So equality is an equivalence that every constructor keeps,
and two expressions that differ by an exchange under any other operator are equal only if the
exchanged operands are. -/
theorem equiv_iff_exchanges :
    (∀ e e' : Expr, e.equiv e' = true ↔ Relation.ReflTransGen UnionExchange e e') ∧
      (Equivalence fun e e' : Expr => e.equiv e' = true) ∧
        (∀ op l l' r r', l.equiv l' = true → r.equiv r' = true →
          (combine op l r).equiv (combine op l' r') = true) ∧
          (∀ name body body', body.equiv body' = true →
            (define name body).equiv (define name body') = true) ∧
            ∀ op l r e e', op ≠ .union → Exchange op l r e e' →
              (e.equiv e' = true ↔ l.equiv r = true) :=
  ⟨fun _ _ => ⟨exchanges_of_equiv, equiv_of_exchanges⟩, equivalence_equiv,
    fun op _ _ _ _ hl hr => equiv_combine op hl hr, fun name _ _ h => equiv_define name h,
    fun _ _ _ _ _ hop h => h.equiv_iff_of_ordered hop⟩

/-- Unions are exchanged at two depths here, with an intersection between them.  Its own operands
stay in their order. -/
example :
    (combine .union (combine .intersection (combine .union (read ⟨"a"⟩) empty) (read ⟨"b"⟩))
        (address "c@d")).equiv
      (combine .union (address "c@d")
        (combine .intersection (combine .union empty (read ⟨"a"⟩)) (read ⟨"b"⟩))) = true ∧
    (combine .union (combine .intersection (read ⟨"a"⟩) (read ⟨"b"⟩)) empty).equiv
      (combine .union empty (combine .intersection (read ⟨"b"⟩) (read ⟨"a"⟩))) = false := by
  decide

/-! ### Hashes -/

/-- An exchange of union operands leaves the writes of a tree as they are. -/
theorem UnionExchange.hashWrites_eq {e e' : Expr} (h : UnionExchange e e')
    (digest : List HashWrite → UInt64) : e.hashWrites digest = e'.hashWrites digest := by
  obtain ⟨l, r, h⟩ := h
  induction h with
  | here => simp [hashWrites, Operator.isUnordered, UInt64.add_comm]
  | inLeft _ ih => simp only [hashWrites, ih]
  | inRight _ ih => simp only [hashWrites, ih]
  | inBody _ ih => simp only [hashWrites, ih]

theorem hashWrites_eq_of_exchanges {e e' : Expr} (h : Relation.ReflTransGen UnionExchange e e')
    (digest : List HashWrite → UInt64) : e.hashWrites digest = e'.hashWrites digest := by
  induction h with
  | refl => rfl
  | tail _ hexchange ih => exact ih.trans (hexchange.hashWrites_eq digest)

/-- **Equal expressions are hashed alike.**  They are the same sequence of writes, whatever gives
the digests of the operands of unions, and so they leave every hasher, from whichever state on, with
the same hash. -/
theorem hashWrites_of_equiv {e e' : Expr} (h : e.equiv e' = true)
    (digest : List HashWrite → UInt64) :
    e.hashWrites digest = e'.hashWrites digest ∧
      ∀ (σ : Type) (hasher : Hasher σ) (state : σ),
        hasher.finish (hasher.feed state (e.hashWrites digest)) =
          hasher.finish (hasher.feed state (e'.hashWrites digest)) := by
  have hwrites := hashWrites_eq_of_exchanges (exchanges_of_equiv h) digest
  exact ⟨hwrites, fun σ hasher state => by rw [hwrites]⟩

/-- A union under a definition and a union around it, both exchanged, beside an intersection. -/
theorem hashWrites_of_equiv_nested :
    (combine .intersection (read ⟨"a"⟩) (combine .union
        (define ⟨"b"⟩ (combine .union (address "c@d") empty)) (read ⟨"e"⟩))).equiv
      (combine .intersection (read ⟨"a"⟩) (combine .union (read ⟨"e"⟩)
        (define ⟨"b"⟩ (combine .union empty (address "c@d"))))) = true ∧
    (combine .intersection (read ⟨"a"⟩) (combine .union
        (define ⟨"b"⟩ (combine .union (address "c@d") empty)) (read ⟨"e"⟩))).digest =
      (combine .intersection (read ⟨"a"⟩) (combine .union (read ⟨"e"⟩)
        (define ⟨"b"⟩ (combine .union empty (address "c@d"))))).digest := by
  refine ⟨by decide, ?_⟩
  exact (hashWrites_of_equiv (by decide) Hasher.multiplying.digest).2 UInt64 Hasher.multiplying
    Hasher.multiplying.start

end Roster.Expr
