/-
**The grammar of programs.**

The grammar is written down here without regard to how a source is read.  Its nonterminals are, from
the loosest to the tightest,

```
Par ::= Seq | Par '|' Seq
Seq ::= Def | Seq ';' Def
Def ::= Uni | Name '=' Def
Uni ::= Dif | Uni ',' Dif
Dif ::= Int | Dif '!' Int
Int ::= Pri | Int '*' Pri
Pri ::= Address | Name | '(' Par ')' | (nothing)
```

and each rule has its expression: nothing is the empty list, a group is what it holds.  Five of the
seven lines have the form `A ::= B | A op B`, so they are one pair of rules with the operator as a
parameter.

Main definitions:

* `Nonterminal`, `Derives`: which expression the grammar assigns to which row of tokens;
* `Nonterminal.level`: the position of a nonterminal in the list above;
* `Expr.words`: the names and addresses of an expression, from left to right;
* `Expr.Writable`: the names and addresses of an expression are such as a source can hold.

Main results:

* `Derives.loosen`: what a nonterminal derives, every looser one derives as well;
* `Derives.exists_of_kinds`: only the kinds of tokens decide whether they are derived;
* `Derives.words`: **the words of a derived expression are those of the row**, in the same order.
-/

import Roster.Proofs.Token.Lexemes

set_option relaxedAutoImplicit false
set_option autoImplicit false

namespace Roster

/-! ### Derivations -/

/-- The nonterminals of the grammar. -/
inductive Nonterminal where
  | parallel
  | sequence
  | definition
  | union
  | difference
  | intersection
  | primary
deriving DecidableEq

/-- The nonterminal `A` of the rules `A ::= B | A op B`. -/
def Operator.chain : Operator → Nonterminal
  | parallel => .parallel
  | sequence => .sequence
  | union => .union
  | difference => .difference
  | intersection => .intersection

/-- The nonterminal `B` of the rules `A ::= B | A op B`. -/
def Operator.link : Operator → Nonterminal
  | parallel => .sequence
  | sequence => .definition
  | union => .difference
  | difference => .intersection
  | intersection => .primary

/-- A nonterminal derives a row of tokens, and assigns an expression to it. -/
inductive Derives : Nonterminal → List Token → Expr → Prop
  /-- The rule `A ::= B`. -/
  | link (op : Operator) {row : List Token} {e : Expr} :
      Derives op.link row e → Derives op.chain row e
  /-- The rule `A ::= A op B`. -/
  | chain (op : Operator) {left right : List Token} {sign : Token} {l r : Expr} :
      Derives op.chain left l → sign.kind = .operator op → Derives op.link right r →
        Derives op.chain (left ++ sign :: right) (.combine op l r)
  /-- The rule `Def ::= Uni`. -/
  | union {row : List Token} {e : Expr} : Derives .union row e → Derives .definition row e
  /-- The rule `Def ::= Name '=' Def`. -/
  | definition {name equals : Token} {row : List Token} {body : Expr} :
      name.kind = .name → equals.kind = .equals → Derives .definition row body →
        Derives .definition (name :: equals :: row) (.define ⟨name.text⟩ body)
  | address {word : Token} : word.kind = .address → Derives .primary [word] (.address word.text)
  | name {word : Token} : word.kind = .name → Derives .primary [word] (.read ⟨word.text⟩)
  /-- The rule `Pri ::= '(' Par ')'`. -/
  | group {opening closing : Token} {row : List Token} {e : Expr} :
      opening.kind = .opening → Derives .parallel row e → closing.kind = .closing →
        Derives .primary (opening :: row ++ [closing]) e
  | nothing : Derives .primary [] .empty

/-! ### Levels -/

/-- The position of a nonterminal in the list, where the loosest one comes first. -/
def Nonterminal.level : Nonterminal → Nat
  | parallel => 0
  | sequence => 1
  | definition => 2
  | union => 3
  | difference => 4
  | intersection => 5
  | primary => 6

/-- The tightness of an operator is the place of its rules in the grammar. -/
@[simp] theorem Operator.level_chain (op : Operator) : op.chain.level = op.tightness := by
  cases op <;> rfl

@[simp] theorem Operator.level_link (op : Operator) : op.link.level = op.tightness + 1 := by
  cases op <;> rfl

@[simp] theorem Nonterminal.level_le_primary (n : Nonterminal) :
    n.level ≤ Nonterminal.primary.level := by
  cases n <;> decide

theorem Nonterminal.level_injective {m n : Nonterminal} (h : m.level = n.level) : m = n := by
  cases m <;> cases n <;> first | rfl | cases h

/-- Below each nonterminal that is not the tightest one there is a next one, whose rows it
derives. -/
theorem Derives.exists_next {m n : Nonterminal} (h : m.level < n.level) :
    ∃ next : Nonterminal, next.level = m.level + 1 ∧
      ∀ {row : List Token} {e : Expr}, Derives next row e → Derives m row e := by
  cases m with
  | parallel => exact ⟨.sequence, rfl, Derives.link .parallel⟩
  | sequence => exact ⟨.definition, rfl, Derives.link .sequence⟩
  | definition => exact ⟨.union, rfl, Derives.union⟩
  | union => exact ⟨.difference, rfl, Derives.link .union⟩
  | difference => exact ⟨.intersection, rfl, Derives.link .difference⟩
  | intersection => exact ⟨.primary, rfl, Derives.link .intersection⟩
  | primary => exact absurd n.level_le_primary (Nat.not_le_of_lt h)

/-- What a nonterminal derives, every looser one derives as well. -/
theorem Derives.loosen {m n : Nonterminal} {row : List Token} {e : Expr} (h : Derives n row e)
    (hlevel : m.level ≤ n.level) : Derives m row e := by
  obtain ⟨distance, hdistance⟩ := Nat.exists_eq_add_of_le hlevel
  induction distance generalizing m with
  | zero =>
      obtain rfl : n = m := Nonterminal.level_injective hdistance
      exact h
  | succ distance ih =>
      obtain ⟨next, hnext, hrule⟩ := Derives.exists_next (m := m) (n := n) (by omega)
      exact hrule (ih (by omega) (by omega))

/-! ### Only the kinds of tokens matter -/

/-- Whether a row is derived depends on the kinds of its tokens only. -/
theorem Derives.exists_of_kinds {n : Nonterminal} {row row' : List Token} {e : Expr}
    (h : Derives n row e) (hkinds : row'.map Token.kind = row.map Token.kind) :
    ∃ e', Derives n row' e' := by
  induction h generalizing row' with
  | link op _ ih =>
      obtain ⟨e', h'⟩ := ih hkinds
      exact ⟨e', .link op h'⟩
  | @chain op left right sign l r _ hsign _ ihl ihr =>
      rw [List.map_append, List.map_cons] at hkinds
      obtain ⟨left', rest', rfl, hleft, hrest⟩ := List.map_eq_append_iff.1 hkinds
      obtain ⟨sign', right', rfl, hsign', hright⟩ := List.map_eq_cons_iff.1 hrest
      obtain ⟨l', hl⟩ := ihl hleft
      obtain ⟨r', hr⟩ := ihr hright
      exact ⟨.combine op l' r', .chain op hl (hsign'.trans hsign) hr⟩
  | union _ ih =>
      obtain ⟨e', h'⟩ := ih hkinds
      exact ⟨e', .union h'⟩
  | @definition name equals row body hname hequals _ ih =>
      rw [List.map_cons, List.map_cons] at hkinds
      obtain ⟨name', rest', rfl, hname', hrest⟩ := List.map_eq_cons_iff.1 hkinds
      obtain ⟨equals', row', rfl, hequals', hrow⟩ := List.map_eq_cons_iff.1 hrest
      obtain ⟨body', hbody⟩ := ih hrow
      exact ⟨_, .definition (hname'.trans hname) (hequals'.trans hequals) hbody⟩
  | address hword =>
      obtain ⟨word', rfl, hword'⟩ := List.map_eq_singleton_iff.1 hkinds
      exact ⟨_, .address (hword'.trans hword)⟩
  | name hword =>
      obtain ⟨word', rfl, hword'⟩ := List.map_eq_singleton_iff.1 hkinds
      exact ⟨_, .name (hword'.trans hword)⟩
  | @group opening closing row e hopening _ hclosing ih =>
      rw [List.map_append, List.map_cons] at hkinds
      obtain ⟨front', last', rfl, hfront, hlast⟩ := List.map_eq_append_iff.1 hkinds
      obtain ⟨opening', row', rfl, hopening', hrow⟩ := List.map_eq_cons_iff.1 hfront
      obtain ⟨closing', rfl, hclosing'⟩ := List.map_eq_singleton_iff.1 hlast
      obtain ⟨e', h'⟩ := ih hrow
      exact ⟨e', .group (hopening'.trans hopening) h' (hclosing'.trans hclosing)⟩
  | nothing =>
      obtain rfl := List.map_eq_nil_iff.1 hkinds
      exact ⟨_, .nothing⟩

/-- The mark of the end is no part of a derived row, and neither is text of unknown kind. -/
theorem Derives.kind_ne {n : Nonterminal} {row : List Token} {e : Expr} (h : Derives n row e) :
    ∀ token ∈ row, token.kind ≠ .finish ∧ token.kind ≠ .unknown := by
  induction h with
  | link _ _ ih => exact ih
  | chain op _ hsign _ ihl ihr =>
      exact List.forall_mem_append.2 ⟨ihl, List.forall_mem_cons.2 ⟨by simp [hsign], ihr⟩⟩
  | union _ ih => exact ih
  | definition hname hequals _ ih =>
      exact List.forall_mem_cons.2 ⟨by simp [hname], List.forall_mem_cons.2 ⟨by simp [hequals], ih⟩⟩
  | address hword => simp [hword]
  | name hword => simp [hword]
  | group hopening _ hclosing ih =>
      exact List.forall_mem_append.2
        ⟨List.forall_mem_cons.2 ⟨by simp [hopening], ih⟩, by simp [hclosing]⟩
  | nothing => simp

theorem Derives.kind_ne_finish {n : Nonterminal} {row : List Token} {e : Expr}
    (h : Derives n row e) : ∀ token ∈ row, token.kind ≠ .finish :=
  fun token htoken => (h.kind_ne token htoken).1

/-! ### Words -/

/-- The names and addresses of an expression, from left to right. -/
def Expr.words : Expr → List (TokenKind × String)
  | .address text => [(.address, text)]
  | .empty => []
  | .read name => [(.name, name.text)]
  | .combine _ left right => left.words ++ right.words
  | .define name body => (.name, name.text) :: body.words

/-- Every name and every address of an expression is the text of a name or of an address. -/
def Expr.Writable : Expr → Prop
  | .address text => AddressText text.toList
  | .empty => True
  | .read name => NameText name.text.toList
  | .combine _ left right => left.Writable ∧ right.Writable
  | .define name body => NameText name.text.toList ∧ body.Writable

/-- An expression whose words are lexemes of some text is writable. -/
theorem Expr.writable_of_words {text : List Char} {e : Expr}
    (h : ∀ word ∈ e.words, word ∈ lexemes text) : e.Writable := by
  induction e with
  | address address => exact addressText_of_mem_lexemes (h _ (by simp [words]))
  | empty => trivial
  | read name => exact nameText_of_mem_lexemes (h _ (by simp [words]))
  | combine op left right ihl ihr =>
      exact ⟨ihl fun word hword => h word (List.mem_append_left _ hword),
        ihr fun word hword => h word (List.mem_append_right _ hword)⟩
  | define name body ih =>
      exact ⟨nameText_of_mem_lexemes (h _ List.mem_cons_self),
        ih fun word hword => h word (List.mem_cons_of_mem _ hword)⟩

/-- Whether a token is a name or an address. -/
def Token.isWord (token : Token) : Bool :=
  token.kind = .name || token.kind = .address

/-- **The words of a derived expression are those of the row**, in the same order. -/
theorem Derives.words {n : Nonterminal} {row : List Token} {e : Expr} (h : Derives n row e) :
    (row.filter Token.isWord).map Token.lexeme = e.words := by
  induction h with
  | link op _ ih => exact ih
  | @chain op left right sign l r _ hsign _ ihl ihr =>
      have hword : sign.isWord = false := by simp [Token.isWord, hsign]
      rw [List.filter_append, List.map_append, ihl, List.filter_cons_of_neg (by simp [hword]), ihr]
      rfl
  | union _ ih => exact ih
  | @definition name equals row body hname hequals _ ih =>
      have hword : name.isWord = true := by simp [Token.isWord, hname]
      have hword' : equals.isWord = false := by simp [Token.isWord, hequals]
      rw [List.filter_cons_of_pos hword, List.map_cons, List.filter_cons_of_neg (by simp [hword']),
        ih, Token.lexeme, hname]
      rfl
  | address hword => simp [Token.isWord, Token.lexeme, Expr.words, hword]
  | name hword => simp [Token.isWord, Token.lexeme, Expr.words, hword]
  | @group opening closing row e hopening _ hclosing ih =>
      have hword : opening.isWord = false := by simp [Token.isWord, hopening]
      have hword' : closing.isWord = false := by simp [Token.isWord, hclosing]
      rw [List.filter_append, List.filter_cons_of_neg (by simp [hword]), List.map_append, ih]
      simp [hword']
  | nothing => rfl

end Roster
