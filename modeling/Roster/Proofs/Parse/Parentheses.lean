/-
**An open group begins at the last parenthesis without partner.**

A state of a reading holds the groups that are open.  Which parenthesis the innermost one began with
can be told from the tokens alone, without a reading: every parenthesis of a derived row has its
partner in the row, and the tokens after the parenthesis of an open group are made of derived rows
and of tokens that are no parentheses.

Main definitions:

* `holdsPartner`: whether a parenthesis is closed by the tokens after it;
* `LastOpen`: the last parenthesis without partner;
* `Balanced`: a row in which every parenthesis has its partner.

Main results:

* `Derives.balanced`: derived rows are balanced;
* `Awaits.exists_opening`: what follows the parenthesis of the innermost open group is balanced;
* `Explains.exists_lastOpen`: **a reading that ends in an open group reports the last parenthesis
  without partner**.
-/

import Roster.Proofs.Parse.Acceptance

set_option relaxedAutoImplicit false
set_option autoImplicit false

namespace Roster

/-! ### Parentheses and their partners -/

/-- Whether the tokens after an opening parenthesis hold its partner; `depth` groups are open within
its own. -/
def holdsPartner : Nat → List Token → Bool
  | _, [] => false
  | depth, token :: rest =>
    match token.kind, depth with
    | .opening, depth => holdsPartner (depth + 1) rest
    | .closing, 0 => true
    | .closing, depth + 1 => holdsPartner depth rest
    | _, depth => holdsPartner depth rest

/-- The last parenthesis of a row that has no partner: what follows it holds the partners of all
that are opened there, and none for the parenthesis itself. -/
def LastOpen (row : List Token) (opening : Token) : Prop :=
  ∃ front inner, row = front ++ opening :: inner ∧ opening.kind = .opening ∧
    holdsPartner 0 inner = false ∧
      ∀ other after, other :: after <:+ inner → other.kind = .opening →
        holdsPartner 0 after = true

section

variable {depth : Nat} {token : Token} {row rest : List Token}

@[simp] theorem holdsPartner_opening (h : token.kind = .opening) :
    holdsPartner depth (token :: rest) = holdsPartner (depth + 1) rest := by
  simp [holdsPartner, h]

@[simp] theorem holdsPartner_closing_zero (h : token.kind = .closing) :
    holdsPartner 0 (token :: rest) = true := by
  simp [holdsPartner, h]

@[simp] theorem holdsPartner_closing_succ (h : token.kind = .closing) :
    holdsPartner (depth + 1) (token :: rest) = holdsPartner depth rest := by
  simp [holdsPartner, h]

theorem holdsPartner_of_ne (hopening : token.kind ≠ .opening) (hclosing : token.kind ≠ .closing) :
    holdsPartner depth (token :: rest) = holdsPartner depth rest := by
  cases hkind : token.kind with
  | opening => exact absurd hkind hopening
  | closing => exact absurd hkind hclosing
  | _ => simp [holdsPartner, hkind]

/-- An end of two rows begins in the second one or in the first one. -/
theorem cons_suffix_append {other : Token} {after row' : List Token}
    (h : other :: after <:+ row ++ row') :
    other :: after <:+ row' ∨
      ∃ between, after = between ++ row' ∧ other :: between <:+ row := by
  obtain ⟨before, heq⟩ := h
  rcases List.append_eq_append_iff.1 heq with ⟨between, hrow, hend⟩ | ⟨between, -, hend⟩
  · cases between with
    | nil => exact Or.inl ⟨[], hend⟩
    | cons first between =>
        rw [List.cons_append] at hend
        obtain ⟨rfl, rfl⟩ := List.cons.inj hend
        exact Or.inr ⟨between, rfl, before, hrow.symm⟩
  · exact Or.inl ⟨between, hend.symm⟩

/-- Every parenthesis of a row has its partner in the row, whatever follows. -/
structure Balanced (row : List Token) : Prop where
  skipped : ∀ depth rest, holdsPartner depth (row ++ rest) = holdsPartner depth rest
  closed : ∀ other after, other :: after <:+ row → other.kind = .opening →
    ∀ rest, holdsPartner 0 (after ++ rest) = true

theorem Balanced.nil : Balanced [] :=
  ⟨fun _ _ => rfl, fun other after h => absurd (List.suffix_nil.1 h) (by simp)⟩

theorem Balanced.singleton (h : token.kind ≠ .opening ∧ token.kind ≠ .closing) :
    Balanced [token] := by
  refine ⟨fun _ _ => holdsPartner_of_ne h.1 h.2, fun other after hend hother => ?_⟩
  obtain rfl : other = token := by simpa using hend.subset List.mem_cons_self
  exact absurd hother h.1

theorem Balanced.append {row' : List Token} (h : Balanced row) (h' : Balanced row') :
    Balanced (row ++ row') := by
  refine ⟨fun depth rest => ?_, fun other after hend hother rest => ?_⟩
  · rw [List.append_assoc, h.skipped, h'.skipped]
  · rcases cons_suffix_append hend with hsecond | ⟨between, rfl, hfirst⟩
    · exact h'.closed other after hsecond hother rest
    · rw [List.append_assoc]
      exact h.closed other between hfirst hother (row' ++ rest)

theorem Balanced.group {opening closing : Token} (hopening : opening.kind = .opening)
    (h : Balanced row) (hclosing : closing.kind = .closing) :
    Balanced (opening :: row ++ [closing]) := by
  refine ⟨fun depth rest => ?_, fun other after hend hother rest => ?_⟩
  · rw [List.cons_append, List.cons_append, holdsPartner_opening hopening, List.append_assoc,
      h.skipped, List.singleton_append, holdsPartner_closing_succ hclosing]
  · rcases cons_suffix_append hend with hlast | ⟨between, rfl, hfirst⟩
    · -- the closing parenthesis opens nothing
      obtain rfl : other = closing := by simpa using hlast.subset List.mem_cons_self
      rw [hclosing] at hother
      cases hother
    · rw [List.append_assoc, List.singleton_append]
      rcases List.suffix_cons_iff.1 hfirst with hall | hinner
      · obtain ⟨-, rfl⟩ := List.cons.inj hall
        rw [h.skipped, holdsPartner_closing_zero hclosing]
      · exact h.closed other between hinner hother (closing :: rest)

/-- Every parenthesis of a derived row has its partner there. -/
theorem Derives.balanced {n : Nonterminal} {e : Expr} (h : Derives n row e) : Balanced row := by
  induction h with
  | link _ _ ih => exact ih
  | chain op _ hsign _ ihl ihr =>
      exact ihl.append ((Balanced.singleton (by simp [hsign])).append ihr)
  | union _ ih => exact ih
  | definition hname hequals _ ih =>
      exact (Balanced.singleton (by simp [hname])).append
        ((Balanced.singleton (by simp [hequals])).append ih)
  | address hword => exact Balanced.singleton (by simp [hword])
  | name hword => exact Balanced.singleton (by simp [hword])
  | group hopening _ hclosing ih => exact Balanced.group hopening ih hclosing
  | nothing => exact Balanced.nil

/-- The innermost group that is open begins at the last parenthesis without partner. -/
theorem Awaits.exists_opening {group : OpenGroup} {groups : List OpenGroup}
    {waiting : List Pending} {before : List Token} (h : Awaits (group :: groups) waiting before) :
    ∃ front opening inner, before = front ++ opening :: inner ∧ opening.kind = .opening ∧
      opening.span = group.opened ∧ Balanced inner := by
  generalize hgroups : group :: groups = all at h
  induction h with
  | start => cases hgroups
  | @operand _ waiting before left sign op l _ _ hl hsign ih =>
      obtain ⟨front, opening, inner, rfl, hopening, hspan, hinner⟩ := ih hgroups
      refine ⟨front, opening, inner ++ (left ++ [sign]), by simp, hopening, hspan, ?_⟩
      exact hinner.append (hl.balanced.append (Balanced.singleton (by simp [hsign])))
  | @definition _ waiting before name equals _ _ hname hequals ih =>
      obtain ⟨front, opening, inner, rfl, hopening, hspan, hinner⟩ := ih hgroups
      refine ⟨front, opening, inner ++ ([name] ++ [equals]), by simp, hopening, hspan, ?_⟩
      exact hinner.append ((Balanced.singleton (by simp [hname])).append
        (Balanced.singleton (by simp [hequals])))
  | @group _ waiting before opening _ hopening _ =>
      cases hgroups
      exact ⟨before, opening, [], rfl, hopening, rfl, Balanced.nil⟩

theorem lastOpen_of_balanced {front inner : List Token} {opening : Token}
    (hopening : opening.kind = .opening) (hinner : Balanced inner) :
    LastOpen (front ++ opening :: inner) opening := by
  refine ⟨front, inner, rfl, hopening, ?_, fun other after hend hother => ?_⟩
  · have hskipped := hinner.skipped 0 []
    rwa [List.append_nil] at hskipped
  · have hclosed := hinner.closed other after hend hother []
    rwa [List.append_nil] at hclosed

/-- A reading that ends in an open group has its last parenthesis without partner there. -/
theorem Explains.exists_lastOpen {state : ReadState} {before : List Token} {error : ParseError}
    (h : Explains state before) (hfinish : state.finish = .error error) :
    ∃ opening, LastOpen before opening ∧ error = .unclosed opening.span := by
  cases h with
  | @operand groups waiting before h =>
      cases groups with
      | nil => cases hfinish
      | cons group groups =>
          cases hfinish
          obtain ⟨front, opening, inner, rfl, hopening, hspan, hinner⟩ := h.exists_opening
          exact ⟨opening, lastOpen_of_balanced hopening hinner, by rw [hspan]⟩
  | @operator groups waiting before row e target h he _ =>
      cases groups with
      | nil => cases hfinish
      | cons group groups =>
          cases hfinish
          obtain ⟨front, opening, inner, rfl, hopening, hspan, hinner⟩ := h.exists_opening
          rw [List.append_assoc, List.cons_append]
          exact ⟨opening, lastOpen_of_balanced hopening (hinner.append he.balanced), by rw [hspan]⟩

end

end Roster
