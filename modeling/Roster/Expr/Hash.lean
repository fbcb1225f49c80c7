/-
**Hashing expressions.**

A hasher is fed a sequence of writes.  The writes of an expression list its nodes from the root
down, the left operand before the right one; only a union is fed as a single word, the sum of the
digests of its two operands, because its operands have no order.

Main definitions:

* `HashWrite`, `Hasher`: what a hasher is fed, and what a hasher is;
* `Expr.hashWrites`: the writes of an expression, given the digest that is used below unions;
* `Expr.digest`: the hash of an expression under `Hasher.multiplying`.
-/

import Roster.Expr.Basic

set_option relaxedAutoImplicit false
set_option autoImplicit false

namespace Roster

/-- One piece of data that a hasher is fed. -/
inductive HashWrite where
  /-- The kind of a node. -/
  | tag (tag : UInt8)
  /-- An address or a name. -/
  | text (text : String)
  | operator (op : Operator)
  | word (word : UInt64)
deriving DecidableEq

/-- The writes of an expression, where `digest` gives the word that stands for an operand of a
union. -/
def Expr.hashWrites (digest : List HashWrite → UInt64) : Expr → List HashWrite
  | .address text => [.tag 0, .text text]
  | .empty => [.tag 1]
  | .read name => [.tag 2, .text name.text]
  | .combine op left right =>
    let leftWrites := left.hashWrites digest
    let rightWrites := right.hashWrites digest
    if op.isUnordered then
      [.tag 3, .operator op, .word (digest leftWrites + digest rightWrites)]
    else
      .tag 3 :: .operator op :: (leftWrites ++ rightWrites)
  | .define name body => .tag 4 :: .text name.text :: body.hashWrites digest

/-- A hasher with states in `σ`. -/
structure Hasher (σ : Type) where
  start : σ
  write : σ → HashWrite → σ
  finish : σ → UInt64

namespace Hasher

/-- The state after a sequence of writes. -/
def feed {σ : Type} (hasher : Hasher σ) (state : σ) (writes : List HashWrite) : σ :=
  writes.foldl hasher.write state

/-- The digest of a sequence of writes. -/
def digest {σ : Type} (hasher : Hasher σ) (writes : List HashWrite) : UInt64 :=
  hasher.finish (hasher.feed hasher.start writes)

/-- Mixes one byte into a word: exclusive or, then multiplication by a prime. -/
def mixByte (state : UInt64) (byte : UInt8) : UInt64 :=
  (state ^^^ byte.toUInt64) * 1099511628211

/-- Mixes a word into a word, from its lowest byte to its highest. -/
def mixWord (state word : UInt64) : UInt64 :=
  ([0, 8, 16, 24, 32, 40, 48, 56] : List UInt64).foldl
    (fun acc shift => mixByte acc (word >>> shift).toUInt8) state

/-- The hasher that mixes the bytes of every write into a word.  A text ends in a byte that occurs
in no UTF-8 encoding. -/
def multiplying : Hasher UInt64 where
  start := 14695981039346656037
  write state
    | .tag tag => mixByte state tag
    | .text text => mixByte (text.toUTF8.toList.foldl mixByte state) 255
    | .operator op => mixByte state (UInt8.ofNat op.ctorIdx)
    | .word word => mixWord state word
  finish state := state

end Hasher

/-- The hash of an expression. -/
def Expr.digest (e : Expr) : UInt64 :=
  Hasher.multiplying.digest (e.hashWrites Hasher.multiplying.digest)

end Roster
