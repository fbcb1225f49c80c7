/-
**How the lexemes of a text are spelled.**

The first lexeme of a text is as long as it can be.  So its kind tells its characters, and also how
the rest of the text does not begin.  Most of all this decides whether word characters are a name,
belong to an address or are no token at all: the sign `@` after a word is given up if no domain
follows it.

Main definitions:

* `NameText`, `AddressText`: the texts of names and of addresses;
* `Spelled`: the texts of the tokens of each kind, in front of a rest.

Main result:

* `FirstPiece.spelled`: **the first lexeme of a text is spelled as its kind demands**.
-/

import Roster.Proofs.Token.Pieces

set_option relaxedAutoImplicit false
set_option autoImplicit false

namespace Roster

/-! ### Texts of names and addresses -/

/-- The text of a name: one or more name characters. -/
structure NameText (text : List Char) : Prop where
  nonempty : text ≠ []
  chars : ∀ c ∈ text, isNameChar c = true

/-- The text of an address: one or more word characters, the sign `@`, and one or more name
characters. -/
def AddressText (text : List Char) : Prop :=
  ∃ mailbox domain, text = mailbox ++ '@' :: domain ∧
    (mailbox ≠ [] ∧ ∀ c ∈ mailbox, isWordChar c = true) ∧ NameText domain

/-! ### Texts of tokens -/

/-- The characters that are a token of their own, each with the kind of the token. -/
def signs : List (TokenKind × Char) :=
  [(.operator .union, ','), (.operator .difference, '!'), (.operator .intersection, '*'),
    (.operator .sequence, ';'), (.operator .parallel, '|'), (.equals, '='), (.opening, '('),
    (.closing, ')')]

/-- An address stands at the beginning of a text. -/
def BeginsAddress (text : List Char) : Prop :=
  ∃ address, address <+: text ∧ AddressText address

/-- The text of a token in front of a rest.  No token would be longer with a part of the rest. -/
inductive Spelled (rest : List Char) : TokenKind → List Char → Prop
  | address {word : List Char} : AddressText word → (∀ c ∈ rest.head?, isNameChar c = false) →
      Spelled rest .address word
  | name {word : List Char} : NameText word → (∀ c ∈ rest.head?, isWordChar c = false) →
      ¬ BeginsAddress (word ++ rest) → Spelled rest .name word
  | sign {kind : TokenKind} {c : Char} : (kind, c) ∈ signs → Spelled rest kind [c]
  /-- A character that no token begins with. -/
  | foreign {c : Char} : isBlank c = false → isWordChar c = false →
      (∀ kind, (kind, c) ∉ signs) → Spelled rest .unknown [c]
  /-- A run of word characters that is no name, since it holds a `+`, and begins no address. -/
  | run {word : List Char} : '+' ∈ word → (∀ c ∈ word, isWordChar c = true) →
      (∀ c ∈ rest.head?, isWordChar c = false) → ¬ BeginsAddress (word ++ rest) →
        Spelled rest .unknown word

theorem eq_plus_of_isWordChar {c : Char} (hword : isWordChar c = true)
    (hname : isNameChar c = false) : c = '+' := by
  rw [isWordChar, hname, Bool.false_or] at hword
  exact beq_iff_eq.1 hword

/-- A run of word characters begins no address if no domain follows it. -/
theorem not_beginsAddress {run rest : List Char} (hrun : ∀ c ∈ run, isWordChar c = true)
    (hrest : ∀ c ∈ rest.head?, isWordChar c = false)
    (hnone : ∀ d tail, rest = '@' :: d :: tail → isNameChar d = false) :
    ¬ BeginsAddress (run ++ rest) := by
  rintro ⟨_, ⟨after, happend⟩, mailbox, domain, rfl, ⟨-, hmailbox⟩, hdomain⟩
  have hsign : ∀ c ∈ ('@' :: domain ++ after).head?, isWordChar c = false := by
    rintro c ⟨⟩
    decide
  -- both the run and the mailbox are all word characters up to the first other one
  have hleft := takeWhile_append_of_stop hrun hrest
  have hright := takeWhile_append_of_stop hmailbox hsign
  rw [← List.append_assoc, happend] at hright
  obtain rfl : '@' :: domain ++ after = rest := hright.2.symm.trans hleft.2
  cases domain with
  | nil => exact hdomain.nonempty rfl
  | cons d domain =>
      have hname := hnone d (domain ++ after) rfl
      rw [hdomain.chars d List.mem_cons_self] at hname
      cases hname

/-- A character that is a lexeme of its own is a sign, or of unknown kind. -/
theorem symbolKind_cases (c : Char) :
    (symbolKind c, c) ∈ signs ∨ symbolKind c = .unknown ∧ ∀ kind, (kind, c) ∉ signs := by
  unfold symbolKind
  repeat' split
  all_goals simp_all [signs]

/-- **The first lexeme of a text is spelled as its kind demands.** -/
theorem FirstPiece.spelled {text word rest : List Char} {kind : TokenKind}
    (h : FirstPiece text (.lexeme kind word) rest) : Spelled rest kind word := by
  cases h with
  | @word c run _ hrun hrest hnone =>
      have haddress := not_beginsAddress hrun hrest hnone
      by_cases hname : ∀ d ∈ c :: run, isNameChar d = true
      · rw [wordKind_eq_name_iff.2 hname]
        exact .name ⟨List.cons_ne_nil _ _, hname⟩ hrest haddress
      · have hkind : wordKind (c :: run) = .unknown := by
          rw [wordKind, if_neg (by rwa [List.all_eq_true])]
        simp only [Classical.not_forall, Bool.not_eq_true] at hname
        obtain ⟨d, hd, hname⟩ := hname
        rw [hkind]
        refine .run ?_ hrun hrest haddress
        rwa [← eq_plus_of_isWordChar (hrun d hd) hname]
  | @address c d mailbox domain _ hmailbox hdomain hrest =>
      exact .address ⟨c :: mailbox, d :: domain, rfl, ⟨List.cons_ne_nil _ _, hmailbox⟩,
        List.cons_ne_nil _ _, hdomain⟩ hrest
  | @symbol c _ hblank hword =>
      rcases symbolKind_cases c with hsign | ⟨hkind, hnone⟩
      · exact .sign hsign
      · rw [hkind]
        exact .foreign hblank hword hnone

section

variable {rest word : List Char} {kind : TokenKind}

theorem Spelled.ne_nil (h : Spelled rest kind word) : word ≠ [] := by
  cases h with
  | address haddress =>
      obtain ⟨mailbox, domain, rfl, -⟩ := haddress
      simp
  | name hname => exact hname.nonempty
  | sign => exact List.cons_ne_nil _ _
  | foreign => exact List.cons_ne_nil _ _
  | run hplus => exact List.ne_nil_of_mem hplus

theorem Spelled.kind_ne_finish (h : Spelled rest kind word) : kind ≠ .finish := by
  cases h with
  | sign hsign =>
      rintro rfl
      simp [signs] at hsign
  | address | name | foreign | run => simp

/-- No token holds a blank. -/
theorem Spelled.isBlank_eq_false (h : Spelled rest kind word) : ∀ c ∈ word, isBlank c = false := by
  cases h with
  | address haddress =>
      obtain ⟨mailbox, domain, rfl, ⟨-, hmailbox⟩, hdomain⟩ := haddress
      intro c hc
      rcases List.mem_append.1 hc with hc | hc
      · exact isBlank_of_isWordChar (hmailbox c hc)
      · rcases List.mem_cons.1 hc with rfl | hc
        · decide
        · exact isBlank_of_isWordChar (isWordChar_of_isNameChar (hdomain.chars c hc))
  | name hname =>
      exact fun c hc => isBlank_of_isWordChar (isWordChar_of_isNameChar (hname.chars c hc))
  | @sign _ sign hsign =>
      have hsigns : ∀ entry ∈ signs, isBlank entry.2 = false := by decide
      intro c hc
      rw [List.mem_singleton.1 hc]
      exact hsigns _ hsign
  | foreign hblank =>
      intro c hc
      rwa [List.mem_singleton.1 hc]
  | run _ hword => exact fun c hc => isBlank_of_isWordChar (hword c hc)

theorem Spelled.nameText (h : Spelled rest .name word) : NameText word := by
  cases h with
  | name hname => exact hname
  | sign hsign => simp [signs] at hsign

theorem Spelled.addressText (h : Spelled rest .address word) : AddressText word := by
  cases h with
  | address haddress => exact haddress
  | sign hsign => simp [signs] at hsign

/-- A kind of token that is spelled as a sign has no other spelling. -/
theorem Spelled.eq_sign {c : Char} (hsign : (kind, c) ∈ signs) (h : Spelled rest kind word) :
    word = [c] := by
  have hunique : ∀ entry ∈ signs, ∀ entry' ∈ signs, entry.1 = entry'.1 → entry.2 = entry'.2 := by
    decide
  cases h with
  | @sign _ c' hsign' =>
      have heq : c = c' := hunique _ hsign _ hsign' rfl
      rw [heq]
  | address | name | foreign | run => simp [signs] at hsign

end

end Roster
