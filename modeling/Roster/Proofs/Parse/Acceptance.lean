/-
**A source is parsed exactly if the grammar derives it.**

A reading keeps what waits for a right operand on a stack, and it never looks at the rules of the
grammar.  That the two agree has two halves.

For the first half a derivation is followed.  The row of a nonterminal is read as its expression, no
matter what waits, as long as what waits is loose enough to leave the row alone and the token after
the row is loose enough to end it.  Inside the row other things may come to wait; they are filled by
the token after the row at the latest, so that this token finds the state that it would have found
if the whole expression had been a single operand.

For the second half a reading is followed.  After each token the state stands for a way to take the
tokens so far apart: a left operand that waits is derived by the nonterminal of its operator, an
operand that has been read is derived by the tightest nonterminal, and each of them is tight enough
for the place where it stands.  One step of a reading preserves this, and at the end nothing waits
any more.

Main definitions:

* `Pending.slot`: the nonterminal of the operand that is missing;
* `TokenKind.Ends`: the kinds of tokens that end a row of a given level;
* `Awaits`, `Explains`: how a state takes the tokens before it apart;
* `beforeEnd`: the tokens before the mark of the end.

Main results:

* `readFrom_derives`: a derived row is read as its expression, in front of a token that ends it;
* `Explains.step`: **one step of a reading**;
* `readProgram_eq_ok_iff`: a list of tokens is read as an expression exactly if it is derived;
* `parse_eq_ok_iff`: **the parser accepts exactly the grammar**, which is unambiguous.
-/

import Roster.Parse.Program
import Roster.Proofs.Parse.Grammar

set_option relaxedAutoImplicit false
set_option autoImplicit false

namespace Roster

variable {waiting : List Pending} {groups : List OpenGroup} {token : Token} {e : Expr}

/-! ### Places for operands -/

namespace Pending

/-- The nonterminal of what waits, once it has been filled. -/
def whole : Pending → Nonterminal
  | operand op _ => op.chain
  | definition _ => .definition

/-- The nonterminal of the operand that is missing. -/
def slot : List Pending → Nonterminal
  | [] => .parallel
  | operand op _ :: _ => op.link
  | definition _ :: _ => .definition

theorem tightness_eq_level (pending : Pending) : pending.tightness = pending.whole.level := by
  cases pending with
  | operand op left => rw [tightness, whole, Operator.level_chain]
  | definition name => rfl

/-- Something that waits does not hold an operator of the place that it leaves open. -/
theorem tightness_lt_of_slot {pending : Pending} {op : Operator}
    (h : (slot (pending :: waiting)).level ≤ op.tightness) : pending.tightness < op.tightness := by
  cases pending with
  | operand other left =>
      rw [slot, Operator.level_link] at h
      exact h
  | definition name =>
      have hle : Nonterminal.definition.level ≤ op.tightness := h
      show definitionTightness < op.tightness
      clear h
      cases op <;> revert hle <;> decide

/-- An operator that belongs to the operand takes nothing of what waits for it. -/
theorem fillWhile_of_slot {op : Operator} (h : (slot waiting).level ≤ op.tightness) (e : Expr) :
    fillWhile op.tightness waiting e = (waiting, e) := by
  cases waiting with
  | nil => rfl
  | cons pending waiting =>
      rw [fillWhile, if_neg (Nat.not_le_of_lt (tightness_lt_of_slot h))]

/-- A definition may begin exactly where the grammar has room for one. -/
theorem admitsDefinition_iff :
    admitsDefinition waiting = true ↔ (slot waiting).level ≤ Nonterminal.definition.level := by
  cases waiting with
  | nil => simp [admitsDefinition, slot, Nonterminal.level]
  | cons pending waiting =>
      cases pending with
      | operand op left => cases op <;> simp [admitsDefinition, slot] <;> decide
      | definition name => simp [admitsDefinition, slot]

/-- Something that is looser than a nonterminal leaves a place that is no tighter. -/
theorem level_slot_le {pending : Pending} {m : Nonterminal} (h : pending.tightness < m.level) :
    (slot (pending :: waiting)).level ≤ m.level := by
  cases pending with
  | operand op left => rw [slot, Operator.level_link]; exact h
  | definition name => exact Nat.le_of_lt h

/-- The loosest tightness takes everything that waits. -/
theorem fillWhile_zero (waiting : List Pending) (e : Expr) :
    fillWhile 0 waiting e = ([], fillAll waiting e) := by
  induction waiting generalizing e with
  | nil => rfl
  | cons pending waiting ih =>
      rw [fillWhile, if_pos (Nat.zero_le _), ih]
      rfl

end Pending

/-! ### Steps -/

theorem readFrom_of_step {state next : ReadState} (hkind : token.kind ≠ .finish)
    (hstep : state.step token = .ok next) (rest : List Token) :
    readFrom state (token :: rest) = readFrom next rest := by
  rw [readFrom, if_neg hkind, hstep]

theorem readFrom_opening (htoken : token.kind = .opening) (rest : List Token) :
    readFrom ⟨waiting, groups, .operand⟩ (token :: rest) =
      readFrom ⟨[], ⟨token.span, waiting⟩ :: groups, .operand⟩ rest := by
  refine readFrom_of_step (by simp [htoken]) ?_ rest
  simp [ReadState.step, htoken]

theorem readFrom_address (htoken : token.kind = .address) (rest : List Token) :
    readFrom ⟨waiting, groups, .operand⟩ (token :: rest) =
      readFrom ⟨waiting, groups, .operator (.address token.text) none⟩ rest := by
  refine readFrom_of_step (by simp [htoken]) ?_ rest
  simp [ReadState.step, htoken]

theorem readFrom_name (htoken : token.kind = .name) (rest : List Token) :
    readFrom ⟨waiting, groups, .operand⟩ (token :: rest) =
      readFrom ⟨waiting, groups, .operator (.read ⟨token.text⟩)
        (if Pending.admitsDefinition waiting then some ⟨token.text⟩ else none)⟩ rest := by
  refine readFrom_of_step (by simp [htoken]) ?_ rest
  simp [ReadState.step, htoken]

theorem readFrom_equals {name : Name} (htoken : token.kind = .equals) (rest : List Token) :
    readFrom ⟨waiting, groups, .operator e (some name)⟩ (token :: rest) =
      readFrom ⟨.definition name :: waiting, groups, .operand⟩ rest := by
  refine readFrom_of_step (by simp [htoken]) ?_ rest
  simp [ReadState.step, ReadState.afterOperand, htoken]

/-- An operator that belongs to the operand waits for its right side. -/
theorem readFrom_sign {op : Operator} {target : Option Name} (htoken : token.kind = .operator op)
    (h : (Pending.slot waiting).level ≤ op.tightness) (rest : List Token) :
    readFrom ⟨waiting, groups, .operator e target⟩ (token :: rest) =
      readFrom ⟨.operand op e :: waiting, groups, .operand⟩ rest := by
  refine readFrom_of_step (by simp [htoken]) ?_ rest
  simp [ReadState.step, ReadState.afterOperand, htoken, Pending.fillWhile_of_slot h]

/-- A group is closed: its content is an operand of what was waiting around it. -/
theorem readFrom_closing {inner : List Pending} {group : OpenGroup} {target : Option Name}
    (htoken : token.kind = .closing) (rest : List Token) :
    readFrom ⟨inner, group :: groups, .operator e target⟩ (token :: rest) =
      readFrom ⟨group.waiting, groups, .operator (Pending.fillAll inner e) none⟩ rest := by
  refine readFrom_of_step (by simp [htoken]) ?_ rest
  simp [ReadState.step, ReadState.afterOperand, htoken]

/-! ### Tokens that end a row -/

/-- The kinds of tokens that end a row of a nonterminal: the end of a group or of the source, and
the operators that are no tighter than the nonterminal. -/
def TokenKind.Ends (n : Nonterminal) : TokenKind → Prop
  | .operator op => op.tightness ≤ n.level
  | .closing | .finish => True
  | .address | .name | .equals | .opening | .unknown => False

theorem TokenKind.Ends.mono {kind : TokenKind} {m n : Nonterminal} (h : kind.Ends m)
    (hlevel : m.level ≤ n.level) : kind.Ends n := by
  cases kind with
  | operator op => exact Nat.le_trans h hlevel
  | closing => trivial
  | finish => trivial
  | address | name | equals | opening | unknown => exact h

/-- In front of a token that ends a row, it makes no difference whether the operand could have been
defined. -/
theorem readFrom_operator {n : Nonterminal} (htoken : token.kind.Ends n) (target : Option Name)
    (rest : List Token) :
    readFrom ⟨waiting, groups, .operator e target⟩ (token :: rest) =
      readFrom ⟨waiting, groups, .operator e none⟩ (token :: rest) := by
  obtain ⟨kind, span, text⟩ := token
  cases kind <;> first | rfl | cases htoken

/-- In front of a token that ends a row, a missing operand is the empty list. -/
theorem readFrom_operand {n : Nonterminal} (htoken : token.kind.Ends n) (rest : List Token) :
    readFrom ⟨waiting, groups, .operand⟩ (token :: rest) =
      readFrom ⟨waiting, groups, .operator .empty none⟩ (token :: rest) := by
  obtain ⟨kind, span, text⟩ := token
  cases kind <;> first | rfl | cases htoken

/-- A token that ends the row of what waits supplies the operand to it. -/
theorem readFrom_fill (pending : Pending) (htoken : token.kind.Ends pending.whole)
    (rest : List Token) :
    readFrom ⟨pending :: waiting, groups, .operator e none⟩ (token :: rest) =
      readFrom ⟨waiting, groups, .operator (pending.fill e) none⟩ (token :: rest) := by
  obtain ⟨kind, span, text⟩ := token
  cases kind with
  | operator op =>
      have hfill : Pending.fillWhile op.tightness (pending :: waiting) e =
          Pending.fillWhile op.tightness waiting (pending.fill e) := by
        rw [Pending.fillWhile, if_pos]
        rw [pending.tightness_eq_level]
        exact htoken
      simp only [readFrom, ReadState.step, ReadState.afterOperand, hfill, reduceCtorEq, if_false]
  | closing => cases groups <;> rfl
  | finish => cases groups <;> rfl
  | address | name | equals | opening | unknown => cases htoken

/-! ### Derived rows are read -/

/-- **Reading a derived row.**  In front of a token that ends it, the row is read as its expression,
if what waits for it is loose enough. -/
theorem readFrom_derives {n : Nonterminal} {row : List Token} (h : Derives n row e)
    (hwaiting : (Pending.slot waiting).level ≤ n.level) (htoken : token.kind.Ends n)
    (rest : List Token) :
    readFrom ⟨waiting, groups, .operand⟩ (row ++ token :: rest) =
      readFrom ⟨waiting, groups, .operator e none⟩ (token :: rest) := by
  induction h generalizing waiting groups token rest with
  | link op _ ih =>
      have hlevel : op.chain.level ≤ op.link.level := by simp
      exact ih (Nat.le_trans hwaiting hlevel) (htoken.mono hlevel) rest
  | @chain op left right sign l r _ hsign _ ihl ihr =>
      have hlevel : op.chain.level ≤ op.link.level := by simp
      have hends : sign.kind.Ends op.chain := by simp [hsign, TokenKind.Ends]
      calc readFrom ⟨waiting, groups, .operand⟩ (left ++ sign :: right ++ token :: rest)
          = readFrom ⟨waiting, groups, .operand⟩ (left ++ sign :: (right ++ token :: rest)) := by
            simp
        _ = readFrom ⟨waiting, groups, .operator l none⟩ (sign :: (right ++ token :: rest)) :=
            ihl hwaiting hends _
        _ = readFrom ⟨.operand op l :: waiting, groups, .operand⟩ (right ++ token :: rest) :=
            readFrom_sign hsign (by simpa using hwaiting) _
        _ = readFrom ⟨.operand op l :: waiting, groups, .operator r none⟩ (token :: rest) :=
            ihr (Nat.le_refl _) (htoken.mono hlevel) rest
        _ = readFrom ⟨waiting, groups, .operator (.combine op l r) none⟩ (token :: rest) :=
            readFrom_fill (.operand op l) htoken rest
  | union _ ih => exact ih (Nat.le_trans hwaiting (by decide)) (htoken.mono (by decide)) rest
  | @definition name equals row body hname hequals _ ih =>
      have hadmits := Pending.admitsDefinition_iff.2 hwaiting
      calc readFrom ⟨waiting, groups, .operand⟩ (name :: equals :: row ++ token :: rest)
          = readFrom ⟨waiting, groups, .operator (.read ⟨name.text⟩) (some ⟨name.text⟩)⟩
              (equals :: (row ++ token :: rest)) := by
            rw [List.cons_append, readFrom_name hname, if_pos hadmits, List.cons_append]
        _ = readFrom ⟨.definition ⟨name.text⟩ :: waiting, groups, .operand⟩
              (row ++ token :: rest) := readFrom_equals hequals _
        _ = readFrom ⟨.definition ⟨name.text⟩ :: waiting, groups, .operator body none⟩
              (token :: rest) := ih (Nat.le_refl _) htoken rest
        _ = readFrom ⟨waiting, groups, .operator (.define ⟨name.text⟩ body) none⟩
              (token :: rest) := readFrom_fill (.definition ⟨name.text⟩) htoken rest
  | address hword => exact readFrom_address hword _
  | name hword => exact (readFrom_name hword _).trans (readFrom_operator htoken _ rest)
  | @group opening closing row e hopening _ hclosing ih =>
      have hends : closing.kind.Ends .parallel := by simp [hclosing, TokenKind.Ends]
      calc readFrom ⟨waiting, groups, .operand⟩ (opening :: row ++ [closing] ++ token :: rest)
          = readFrom ⟨waiting, groups, .operand⟩
              (opening :: (row ++ closing :: token :: rest)) := by simp
        _ = readFrom ⟨[], ⟨opening.span, waiting⟩ :: groups, .operand⟩
              (row ++ closing :: token :: rest) := readFrom_opening hopening _
        _ = readFrom ⟨[], ⟨opening.span, waiting⟩ :: groups, .operator e none⟩
              (closing :: token :: rest) := ih (Nat.le_refl _) hends _
        _ = readFrom ⟨waiting, groups, .operator e none⟩ (token :: rest) :=
            readFrom_closing hclosing _
  | nothing => exact readFrom_operand htoken rest

/-! ### What stands before a state -/

/-- The tokens before a place for an operand, taken apart: which groups are open, and what waits
within the innermost one.  Everything is tight enough for the place where it stands. -/
inductive Awaits : List OpenGroup → List Pending → List Token → Prop
  | start : Awaits [] [] []
  | operand {groups : List OpenGroup} {waiting : List Pending} {before left : List Token}
      {sign : Token} {op : Operator} {l : Expr} :
      Awaits groups waiting before → (Pending.slot waiting).level ≤ op.chain.level →
        Derives op.chain left l → sign.kind = .operator op →
          Awaits groups (.operand op l :: waiting) (before ++ left ++ [sign])
  | definition {groups : List OpenGroup} {waiting : List Pending} {before : List Token}
      {name equals : Token} :
      Awaits groups waiting before →
        (Pending.slot waiting).level ≤ Nonterminal.definition.level → name.kind = .name →
          equals.kind = .equals →
            Awaits groups (.definition ⟨name.text⟩ :: waiting) (before ++ [name, equals])
  | group {groups : List OpenGroup} {waiting : List Pending} {before : List Token}
      {opening : Token} :
      Awaits groups waiting before → opening.kind = .opening →
        Awaits (⟨opening.span, waiting⟩ :: groups) [] (before ++ [opening])

section

variable {before row : List Token} {n : Nonterminal}

/-- An operand that fits is supplied to what waits for it: together they are one row. -/
theorem Awaits.fill {pending : Pending} (h : Awaits groups (pending :: waiting) before)
    (he : Derives n row e) (hlevel : (Pending.slot (pending :: waiting)).level ≤ n.level) :
    ∃ before' row', before ++ row = before' ++ row' ∧ Awaits groups waiting before' ∧
      (Pending.slot waiting).level ≤ pending.whole.level ∧
        Derives pending.whole row' (pending.fill e) := by
  cases h with
  | @operand _ _ before left sign op l hbefore hslot hl hsign =>
      exact ⟨before, left ++ sign :: row, by simp, hbefore, hslot,
        Derives.chain op hl hsign (he.loosen hlevel)⟩
  | @definition _ _ before name equals hbefore hslot hname hequals =>
      exact ⟨before, name :: equals :: row, by simp, hbefore, hslot,
        Derives.definition hname hequals (he.loosen hlevel)⟩

/-- An operand is supplied to all that holds it as tightly as a nonterminal.  What comes of it is
derived by the nonterminal, and is tight enough for the place that is left. -/
theorem Awaits.fillWhile {m : Nonterminal} (h : Awaits groups waiting before)
    (he : Derives n row e) (hslot : (Pending.slot waiting).level ≤ n.level)
    (hlevel : m.level ≤ n.level) :
    ∃ before' row', before ++ row = before' ++ row' ∧
      Awaits groups (Pending.fillWhile m.level waiting e).1 before' ∧
        (Pending.slot (Pending.fillWhile m.level waiting e).1).level ≤ m.level ∧
          Derives m row' (Pending.fillWhile m.level waiting e).2 := by
  induction waiting generalizing before row e n with
  | nil => exact ⟨before, row, rfl, h, Nat.zero_le _, he.loosen hlevel⟩
  | cons pending waiting ih =>
      rw [Pending.fillWhile]
      split
      · rename_i hheld
        rw [pending.tightness_eq_level] at hheld
        obtain ⟨before', row', heq, h', hslot', hfilled⟩ := h.fill he hslot
        rw [heq]
        exact ih h' hfilled hslot' hheld
      · rename_i hheld
        exact ⟨before, row, rfl, h, Pending.level_slot_le (Nat.lt_of_not_le hheld),
          he.loosen hlevel⟩

theorem Awaits.fillAll (h : Awaits groups waiting before) (he : Derives .primary row e) :
    ∃ before' row', before ++ row = before' ++ row' ∧ Awaits groups [] before' ∧
      Derives .parallel row' (Pending.fillAll waiting e) := by
  obtain ⟨before', row', heq, h', -, hfilled⟩ :=
    h.fillWhile (m := .parallel) he (Nonterminal.level_le_primary _) (Nat.zero_le _)
  have hzero : Nonterminal.parallel.level = 0 := rfl
  rw [hzero, Pending.fillWhile_zero] at h' hfilled
  exact ⟨before', row', heq, h', hfilled⟩

/-! ### One step -/

/-- An operand that may be defined is a single name, in a place for a definition. -/
def IsTarget (waiting : List Pending) (row : List Token) (name : Name) : Prop :=
  (Pending.slot waiting).level ≤ Nonterminal.definition.level ∧
    ∃ word : Token, row = [word] ∧ word.kind = .name ∧ name = ⟨word.text⟩

/-- The state of a reading takes the tokens before it apart. -/
inductive Explains : ReadState → List Token → Prop
  | operand {groups : List OpenGroup} {waiting : List Pending} {before : List Token} :
      Awaits groups waiting before → Explains ⟨waiting, groups, .operand⟩ before
  | operator {groups : List OpenGroup} {waiting : List Pending} {before row : List Token}
      {e : Expr} {target : Option Name} :
      Awaits groups waiting before → Derives .primary row e →
        (∀ name ∈ target, IsTarget waiting row name) →
          Explains ⟨waiting, groups, .operator e target⟩ (before ++ row)

/-- A token after an operand. -/
theorem Awaits.afterOperand {position : Position} {target : Option Name} {next : ReadState}
    (h : Awaits groups waiting before) (he : Derives .primary row e)
    (htarget : ∀ name ∈ target, IsTarget waiting row name)
    (hstep : ReadState.afterOperand ⟨waiting, groups, position⟩ e target token = .ok next) :
    Explains next (before ++ row ++ [token]) := by
  unfold ReadState.afterOperand at hstep
  split at hstep
  · rename_i op hkind
    obtain ⟨before', row', heq, h', hslot, hfilled⟩ :=
      h.fillWhile (m := op.chain) he (Nonterminal.level_le_primary _)
        (Nonterminal.level_le_primary _)
    rw [Operator.level_chain] at h' hfilled
    cases hstep
    rw [heq]
    refine Explains.operand (Awaits.operand h' ?_ hfilled hkind)
    rwa [Operator.level_chain] at hslot ⊢
  · rename_i hkind
    cases target with
    | none => cases hstep
    | some name =>
        obtain ⟨hslot, word, rfl, hword, rfl⟩ := htarget name rfl
        cases hstep
        rw [List.append_assoc]
        exact Explains.operand (Awaits.definition h hslot hword hkind)
  · rename_i hkind
    obtain ⟨before', row', heq, h', hfilled⟩ := h.fillAll he
    cases groups with
    | nil => cases hstep
    | cons group groups =>
        cases hstep
        cases h' with
        | @group _ _ before' opening h' hopening =>
            have hrow : before ++ row ++ [token] = before' ++ (opening :: row' ++ [token]) := by
              rw [heq]
              simp
            rw [hrow]
            exact Explains.operator h' (Derives.group hopening hfilled hkind) (by simp)
  all_goals cases hstep

/-- **One step of a reading**: the next state takes one more token apart. -/
theorem Explains.step {state next : ReadState} (h : Explains state before)
    (hstep : state.step token = .ok next) : Explains next (before ++ [token]) := by
  cases h with
  | operator h he htarget => exact h.afterOperand he htarget hstep
  | @operand groups waiting before h =>
      unfold ReadState.step at hstep
      split at hstep
      · rename_i hposition
        cases hposition
      · split at hstep
        · rename_i hkind
          cases hstep
          exact Explains.operator h (Derives.address hkind) (by simp)
        · rename_i hkind
          cases hstep
          refine Explains.operator h (Derives.name hkind) fun name hname => ?_
          obtain ⟨hadmits, rfl⟩ :
              Pending.admitsDefinition waiting = true ∧ ⟨token.text⟩ = name := by
            simpa using hname
          exact ⟨Pending.admitsDefinition_iff.1 hadmits, token, rfl, hkind, rfl⟩
        · rename_i hkind
          cases hstep
          exact Explains.operand (Awaits.group h hkind)
        · split at hstep
          · have hmissing := h.afterOperand Derives.nothing (by simp) hstep
            rwa [List.append_nil] at hmissing
          · cases hstep

/-- At the end of the source nothing is left but the row of a program. -/
theorem Explains.finish {state : ReadState} (h : Explains state before)
    (hfinish : state.finish = .ok e) : Derives .parallel before e := by
  -- with no group open, the row of the whole program is all that stands before the state
  have hprogram : ∀ {waiting : List Pending} {before row : List Token} {e : Expr},
      Awaits [] waiting before → Derives .primary row e →
        Derives .parallel (before ++ row) (Pending.fillAll waiting e) := by
    intro waiting before row e h he
    obtain ⟨before', row', heq, h', hfilled⟩ := h.fillAll he
    cases h'
    rw [heq]
    exact hfilled
  cases h with
  | @operand groups waiting before h =>
      cases groups with
      | cons group groups => cases hfinish
      | nil =>
          cases hfinish
          have hrow := hprogram h Derives.nothing
          rwa [List.append_nil] at hrow
  | @operator groups waiting before row e target h he _ =>
      cases groups with
      | cons group groups => cases hfinish
      | nil =>
          cases hfinish
          exact hprogram h he

end

/-! ### Whole readings -/

/-- The tokens before the first mark of the end. -/
def beforeEnd (tokens : List Token) : List Token :=
  tokens.takeWhile fun token => token.kind != .finish

@[simp] theorem beforeEnd_nil : beforeEnd [] = [] := rfl

theorem beforeEnd_of_finish (htoken : token.kind = .finish) (rest : List Token) :
    beforeEnd (token :: rest) = [] := by
  rw [beforeEnd, List.takeWhile_cons_of_neg (by simp [htoken])]

theorem beforeEnd_of_ne (htoken : token.kind ≠ .finish) (rest : List Token) :
    beforeEnd (token :: rest) = token :: beforeEnd rest := by
  rw [beforeEnd, List.takeWhile_cons_of_pos (by simp [htoken]), beforeEnd]

theorem beforeEnd_append {row : List Token} {mark : Token}
    (hrow : ∀ token ∈ row, token.kind ≠ .finish) (hmark : mark.kind = .finish)
    (rest : List Token) : beforeEnd (row ++ mark :: rest) = row := by
  rw [beforeEnd, List.takeWhile_append_of_pos (by simpa using hrow),
    List.takeWhile_cons_of_neg (by simp [hmark]), List.append_nil]

/-- The tokens before the mark of the end are all but the last one. -/
theorem beforeEnd_append_mark {row : List Token} {mark : Token}
    (hrow : ∀ token ∈ row, token.kind ≠ .finish) (hmark : mark.kind = .finish) :
    beforeEnd (row ++ [mark]) = row :=
  beforeEnd_append hrow hmark []

/-- A reading does the same if the tokens from the first mark of the end on are missing. -/
theorem readFrom_beforeEnd (state : ReadState) (tokens : List Token) :
    (readFrom state (beforeEnd tokens)).1 = (readFrom state tokens).1 ∧
      (readFrom state (beforeEnd tokens)).2 = beforeEnd (readFrom state tokens).2 := by
  induction tokens generalizing state with
  | nil => exact ⟨rfl, rfl⟩
  | cons token rest ih =>
      by_cases htoken : token.kind = .finish
      · rw [beforeEnd_of_finish htoken, readFrom, readFrom, if_pos htoken]
        exact ⟨rfl, (beforeEnd_of_finish htoken rest).symm⟩
      · rw [beforeEnd_of_ne htoken, readFrom, readFrom, if_neg htoken, if_neg htoken]
        cases state.step token with
        | error error => exact ⟨rfl, (beforeEnd_of_ne htoken rest).symm⟩
        | ok next => exact ih next

/-- What follows the first mark of the end is never looked at, and a list of tokens without one is
read as if it had one. -/
theorem readFrom_congr {tokens tokens' : List Token} (h : beforeEnd tokens = beforeEnd tokens')
    (state : ReadState) :
    (readFrom state tokens).1 = (readFrom state tokens').1 ∧
      beforeEnd (readFrom state tokens).2 = beforeEnd (readFrom state tokens').2 := by
  obtain ⟨hresult, hrest⟩ := readFrom_beforeEnd state tokens
  obtain ⟨hresult', hrest'⟩ := readFrom_beforeEnd state tokens'
  rw [h] at hresult hrest
  exact ⟨hresult.symm.trans hresult', hrest.symm.trans hrest'⟩

/-- A reading that ends well has taken apart all tokens before the end. -/
theorem Explains.derives {state : ReadState} {before : List Token} (h : Explains state before)
    {tokens : List Token} (hread : (readFrom state tokens).1 = .ok e) :
    Derives .parallel (before ++ beforeEnd tokens) e := by
  induction tokens generalizing state before with
  | nil =>
      rw [beforeEnd_nil, List.append_nil]
      exact h.finish hread
  | cons token tokens ih =>
      rw [readFrom] at hread
      by_cases htoken : token.kind = .finish
      · rw [if_pos htoken] at hread
        rw [beforeEnd_of_finish htoken, List.append_nil]
        exact h.finish hread
      · rw [if_neg htoken] at hread
        rw [beforeEnd_of_ne htoken, ← List.singleton_append, ← List.append_assoc]
        cases hstep : state.step token with
        | error error =>
            rw [hstep] at hread
            cases hread
        | ok next =>
            rw [hstep] at hread
            exact ih (h.step hstep) hread

/-- A program that is derived is read to its end. -/
theorem readProgram_of_derives {row : List Token} (h : Derives .parallel row e)
    (htoken : token.kind = .finish) (rest : List Token) :
    readProgram (row ++ token :: rest) = (.ok e, token :: rest) := by
  have hends : token.kind.Ends .parallel := by simp [htoken, TokenKind.Ends]
  rw [readProgram, ReadState.start, readFrom_derives h (Nat.le_refl _) hends, readFrom,
    if_pos htoken]
  rfl

/-- **A list of tokens is read as an expression exactly if the grammar derives it.** -/
theorem readProgram_eq_ok_iff {tokens : List Token} :
    (readProgram tokens).1 = .ok e ↔ Derives .parallel (beforeEnd tokens) e := by
  constructor
  · intro h
    exact (Explains.operand Awaits.start).derives h
  · intro h
    have hmark : (⟨.finish, default, ""⟩ : Token).kind = .finish := rfl
    have hsame := beforeEnd_append_mark h.kind_ne_finish hmark
    rw [readProgram, ← (readFrom_congr hsame .start).1, ← readProgram,
      readProgram_of_derives h hmark]

/-- **The grammar is unambiguous**: a row of tokens has one expression at most. -/
theorem Derives.unique {m n : Nonterminal} {row : List Token} {e' : Expr} (h : Derives m row e)
    (h' : Derives n row e') : e = e' := by
  have hmark : (⟨.finish, default, ""⟩ : Token).kind = .finish := rfl
  have hread := readProgram_of_derives (h.loosen (m := .parallel) (Nat.zero_le _)) hmark []
  rw [readProgram_of_derives (h'.loosen (m := .parallel) (Nat.zero_le _)) hmark []] at hread
  cases hread
  rfl

/-! ### Sources -/

/-- The words of a derived expression are lexemes of the source. -/
theorem Derives.mem_lexemes {source : String} (hsize : source.utf8ByteSize ≤ Span.limit)
    {n : Nonterminal} (h : Derives n (beforeEnd (lex source)) e) :
    ∀ word ∈ e.words, word ∈ lexemes source.toList := by
  intro word hword
  rw [← h.words, List.mem_map] at hword
  obtain ⟨token, htoken, rfl⟩ := hword
  obtain ⟨htoken, hisWord⟩ := List.mem_filter.1 htoken
  have hmem : token.lexeme ∈ (lex source).map Token.lexeme :=
    List.mem_map_of_mem ((List.takeWhile_prefix _).subset htoken)
  rw [map_lexeme_lex hsize, List.mem_append, List.mem_singleton] at hmem
  refine hmem.resolve_right fun hmark => ?_
  -- the mark of the end is no word
  have hkind : token.kind = .finish := (Prod.mk.inj hmark).1
  simp [Token.isWord, hkind] at hisWord

/-- **The parser accepts exactly the grammar.**  A source is parsed to the expression that the
grammar assigns to its tokens, and not parsed if there is none.  No row of tokens has more than one
expression.  The names and addresses of the expression are those of the source, in the same order,
and so are spelled as the grammar demands. -/
theorem parse_eq_ok_iff {source : String} (hsize : source.utf8ByteSize ≤ Span.limit) :
    (∀ e, parse source = .ok e ↔ Derives .parallel (beforeEnd (lex source)) e) ∧
      (∀ n row e e', Derives n row e → Derives n row e' → e = e') ∧
        ∀ e, parse source = .ok e →
          ((beforeEnd (lex source)).filter Token.isWord).map Token.lexeme = e.words ∧
            e.Writable := by
  refine ⟨fun e => readProgram_eq_ok_iff, fun n row e e' h h' => h.unique h', fun e h => ?_⟩
  have hderives := readProgram_eq_ok_iff.1 h
  exact ⟨hderives.words, Expr.writable_of_words (hderives.mem_lexemes hsize)⟩

/-- A definition whose body ends in an empty operand, and a group with an empty side. -/
theorem parse_eq_ok_iff_definition :
    "a = b@c, ;(d|)".utf8ByteSize ≤ Span.limit ∧
      Derives .parallel (beforeEnd (lex "a = b@c, ;(d|)"))
        (.combine .sequence (.define ⟨"a"⟩ (.combine .union (.address "b@c") .empty))
          (.combine .parallel (.read ⟨"d"⟩) .empty)) := by
  have hsize : "a = b@c, ;(d|)".utf8ByteSize ≤ Span.limit := by decide
  have hresult : (parse "a = b@c, ;(d|)").toOption =
      some (.combine .sequence (.define ⟨"a"⟩ (.combine .union (.address "b@c") .empty))
        (.combine .parallel (.read ⟨"d"⟩) .empty)) := by
    decide +kernel
  refine ⟨hsize, ((parse_eq_ok_iff hsize).1 _).1 ?_⟩
  cases hparse : parse "a = b@c, ;(d|)" with
  | error error =>
      rw [hparse] at hresult
      cases hresult
  | ok e =>
      rw [hparse] at hresult
      cases hresult
      rfl

/-- No definition begins after the sign of a union. -/
example : (parse "a, b = c").toOption = none := by
  decide +kernel

end Roster
