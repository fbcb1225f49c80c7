/-
**Any row of tokens is read safely, one program after the other.**

A row of tokens need not come from a source.  It may hold any number of marks of the end, anywhere,
or none at all, and a reading may be begun wherever an earlier one has stopped, also behind an
error.  What a reading does then is best seen on a cursor that moves over the row.  In each step
either the cursor passes a token, or a call ends and the next one begins where the cursor stands.

The cursor only moves forward, and it passes no mark of the end.  So there are at most as many steps
that move it as there are tokens before the first mark, in all calls together, and every call comes
to its end.  What stands behind the first mark is never looked at.  Once a call ends well the cursor
is at the mark for good, and all that is found there is a missing operand.

Main definitions:

* `leftAfter`: the tokens that are left after several calls;
* `Reader`, `Reader.next`, `Reader.after`: a cursor that moves over a row of tokens, and the answers
  of the calls so far.

Main results:

* `Reader.next_cases`: **what one step does**;
* `Reader.tracks_after`: what all steps keep;
* `Reader.exists_after`: **every call ends**, with the answer of the reading;
* `readPrograms_congr`: the answers depend on the tokens before the first mark only;
* `readers_stay_before_end`: **any row of tokens is read safely**.
-/

import Mathlib.Data.List.TakeWhile
import Mathlib.Logic.Function.Iterate
import Roster.Proofs.Parse.Acceptance

set_option relaxedAutoImplicit false
set_option autoImplicit false

namespace Roster

variable {tokens tokens' : List Token}

/-! ### Readings in a row -/

/-- The tokens that are left after `count` readings, each from where the one before it stopped. -/
def leftAfter : Nat → List Token → List Token
  | 0, tokens => tokens
  | count + 1, tokens => leftAfter count (readProgram tokens).2

theorem readPrograms_cons (count : Nat) (tokens : List Token) :
    readPrograms (count + 1) tokens =
      (readProgram tokens).1 :: readPrograms count (readProgram tokens).2 := rfl

@[simp] theorem length_readPrograms (count : Nat) (tokens : List Token) :
    (readPrograms count tokens).length = count := by
  induction count generalizing tokens with
  | zero => rfl
  | succ count ih => rw [readPrograms_cons, List.length_cons, ih]

theorem leftAfter_succ (count : Nat) (tokens : List Token) :
    leftAfter (count + 1) tokens = (readProgram (leftAfter count tokens)).2 := by
  induction count generalizing tokens with
  | zero => rfl
  | succ count ih => rw [leftAfter, ih, leftAfter]

theorem readPrograms_succ (count : Nat) (tokens : List Token) :
    readPrograms (count + 1) tokens =
      readPrograms count tokens ++ [(readProgram (leftAfter count tokens)).1] := by
  induction count generalizing tokens with
  | zero => rfl
  | succ count ih => rw [readPrograms_cons, ih, readPrograms_cons, leftAfter, List.cons_append]

/-! ### A cursor -/

theorem drop_eq_cons {token : Token} {position : Nat} (h : tokens[position]? = some token) :
    tokens.drop position = token :: tokens.drop (position + 1) := by
  obtain ⟨hposition, rfl⟩ := List.getElem?_eq_some_iff.1 h
  exact List.drop_eq_getElem_cons hposition

/-- A row of tokens is read, one program after the other: the answers of the calls that have ended,
the state of the call under way, and how many tokens the cursor has passed. -/
structure Reader where
  answers : List (Except ParseError Expr)
  state : ReadState
  cursor : Nat

namespace Reader

/-- Nothing has been read. -/
def start : Reader := ⟨[], .start, 0⟩

/-- The call under way ends with an answer, and the next one begins where the cursor stands. -/
def answer (reader : Reader) (result : Except ParseError Expr) : Reader :=
  ⟨reader.answers ++ [result], .start, reader.cursor⟩

/-- One step: the cursor passes the current token if it can be read, and otherwise the call ends.
It also ends at a mark of the end and behind the last token. -/
def next (tokens : List Token) (reader : Reader) : Reader :=
  match tokens[reader.cursor]? with
  | none => reader.answer reader.state.finish
  | some token =>
    if token.kind = .finish then
      reader.answer reader.state.finish
    else
      match reader.state.step token with
      | .ok state => ⟨reader.answers, state, reader.cursor + 1⟩
      | .error error => reader.answer (.error error)

/-- The reader after a number of steps. -/
def after (tokens : List Token) (steps : Nat) : Reader := (next tokens)^[steps] start

theorem after_succ (tokens : List Token) (steps : Nat) :
    after tokens (steps + 1) = next tokens (after tokens steps) :=
  Function.iterate_succ_apply' _ _ _

/-- What one step does.  Either it passes a token and the reading goes on behind it, or the call
ends with the answer of the reading, which leaves all tokens from the cursor on. -/
inductive Moves (tokens : List Token) (reader : Reader) : Reader → Prop
  | pass {token : Token} {state : ReadState} : tokens[reader.cursor]? = some token →
      token.kind ≠ .finish → reader.state.step token = .ok state →
        Moves tokens reader ⟨reader.answers, state, reader.cursor + 1⟩
  | answer {result : Except ParseError Expr} :
      readFrom reader.state (tokens.drop reader.cursor) = (result, tokens.drop reader.cursor) →
        Moves tokens reader (reader.answer result)

/-- **What one step does.** -/
theorem next_cases (tokens : List Token) (reader : Reader) :
    Moves tokens reader (next tokens reader) := by
  rw [next]
  cases htoken : tokens[reader.cursor]? with
  | none =>
      refine .answer ?_
      rw [List.drop_eq_nil_of_le (List.getElem?_eq_none_iff.1 htoken), readFrom]
  | some token =>
      have hdrop := drop_eq_cons htoken
      by_cases hkind : token.kind = .finish
      · simp only [if_pos hkind]
        refine .answer ?_
        rw [hdrop, readFrom, if_pos hkind]
      · simp only [if_neg hkind]
        cases hstep : reader.state.step token with
        | ok state => exact .pass htoken hkind hstep
        | error error =>
            refine .answer ?_
            rw [hdrop, readFrom, if_neg hkind, hstep]

end Reader

/-! ### Tokens before the first mark -/

/-- The token behind those before the first mark is a mark. -/
theorem kind_eq_finish_of_getElem? {token : Token}
    (h : tokens[(beforeEnd tokens).length]? = some token) : token.kind = .finish := by
  induction tokens with
  | nil => cases h
  | cons first tokens ih =>
      by_cases hfirst : first.kind = .finish
      · rw [beforeEnd_of_finish hfirst] at h
        cases h
        exact hfirst
      · rw [beforeEnd_of_ne hfirst, List.length_cons, List.getElem?_cons_succ] at h
        exact ih h

theorem beforeEnd_of_forall_ne (h : ∀ token ∈ tokens, token.kind ≠ .finish) :
    beforeEnd tokens = tokens :=
  List.takeWhile_eq_self_iff.2 (by simpa using h)

/-- **The answers depend on the tokens before the first mark only.** -/
theorem readPrograms_congr (h : beforeEnd tokens = beforeEnd tokens') (count : Nat) :
    readPrograms count tokens = readPrograms count tokens' := by
  induction count generalizing tokens tokens' with
  | zero => rfl
  | succ count ih =>
      obtain ⟨hresult, hrest⟩ := readFrom_congr h .start
      rw [readPrograms_cons, readPrograms_cons, readProgram, readProgram, hresult, ih hrest]

/-! ### A call that ends well -/

/-- A reading that ends well stops at a mark of the end or behind the last token. -/
theorem beforeEnd_of_readFrom_eq_ok {state : ReadState} {e : Expr}
    (h : (readFrom state tokens).1 = .ok e) : beforeEnd (readFrom state tokens).2 = [] := by
  induction tokens generalizing state with
  | nil => rfl
  | cons token rest ih =>
      rw [readFrom] at h ⊢
      by_cases htoken : token.kind = .finish
      · rw [if_pos htoken]
        exact beforeEnd_of_finish htoken rest
      · rw [if_neg htoken] at h ⊢
        cases hstep : state.step token with
        | error error =>
            rw [hstep] at h
            cases h
        | ok next =>
            rw [hstep] at h
            exact ih h

/-- With no token before the first mark there is nothing but missing operands. -/
theorem eq_empty_of_mem_readPrograms (h : beforeEnd tokens = []) (count : Nat) :
    ∀ answer ∈ readPrograms count tokens, answer = .ok .empty := by
  rw [@readPrograms_congr tokens [] h]
  induction count with
  | zero => exact fun _ hanswer => absurd hanswer List.not_mem_nil
  | succ count ih => exact List.forall_mem_cons.2 ⟨rfl, ih⟩

/-- Once a call ends well, all later calls find nothing but missing operands. -/
theorem eq_empty_of_readPrograms {count : Nat} {before after : List (Except ParseError Expr)}
    {e : Expr} (h : readPrograms count tokens = before ++ .ok e :: after) :
    ∀ answer ∈ after, answer = .ok .empty := by
  induction before generalizing count tokens with
  | nil =>
      cases count with
      | zero => cases h
      | succ count =>
          obtain ⟨hresult, hrest⟩ := List.cons.inj h
          rw [← hrest]
          exact eq_empty_of_mem_readPrograms (beforeEnd_of_readFrom_eq_ok hresult) count
  | cons answer before ih =>
      cases count with
      | zero => cases h
      | succ count => exact ih (List.cons.inj h).2

/-! ### Steps -/

namespace Reader

variable {reader later : Reader}

/-- The cursor never moves back. -/
theorem Moves.cursor_le (h : Moves tokens reader later) : reader.cursor ≤ later.cursor := by
  cases h with
  | pass => exact Nat.le_succ _
  | answer => exact Nat.le_refl _

/-- A reader after a number of steps: each of them has moved the cursor or ended a call, and the
cursor has passed no mark of the end. -/
structure Tracks (tokens : List Token) (steps : Nat) (reader : Reader) : Prop where
  steps_eq : reader.cursor + reader.answers.length = steps
  cursor_le : reader.cursor ≤ (beforeEnd tokens).length

/-- One step keeps track. -/
theorem Moves.tracks {steps : Nat} (h : Moves tokens reader later)
    (htracks : Tracks tokens steps reader) : Tracks tokens (steps + 1) later := by
  obtain ⟨hsteps, hcursor⟩ := htracks
  cases h with
  | @pass token state htoken hkind _ =>
      have hne : reader.cursor ≠ (beforeEnd tokens).length := by
        intro heq
        rw [heq] at htoken
        exact hkind (kind_eq_finish_of_getElem? htoken)
      refine ⟨?_, Nat.lt_of_le_of_ne hcursor hne⟩
      show reader.cursor + 1 + reader.answers.length = steps + 1
      omega
  | @answer result _ =>
      refine ⟨?_, hcursor⟩
      rw [← hsteps, Reader.answer, List.length_append]
      rfl

/-- All steps keep track. -/
theorem tracks_after (tokens : List Token) (steps : Nat) :
    Tracks tokens steps (after tokens steps) := by
  induction steps with
  | zero => exact ⟨rfl, Nat.zero_le _⟩
  | succ steps ih =>
      rw [after_succ]
      exact (next_cases tokens _).tracks ih

/-- The call under way ends: its answer is that of the reading from the cursor on, and what the
reading leaves is what the cursor has not passed. -/
theorem exists_iterate_next (tokens : List Token) (reader : Reader) :
    ∃ steps cursor, (next tokens)^[steps] reader =
        ⟨reader.answers ++ [(readFrom reader.state (tokens.drop reader.cursor)).1], .start,
          cursor⟩ ∧
      tokens.drop cursor = (readFrom reader.state (tokens.drop reader.cursor)).2 := by
  induction hleft : tokens.length - reader.cursor using Nat.strongRecOn generalizing reader with
  | ind left ih =>
      have hmoves := next_cases tokens reader
      generalize hnext : next tokens reader = later at hmoves
      cases hmoves with
      | @pass token state htoken hkind hstep =>
          have hlt : reader.cursor < tokens.length := (List.getElem?_eq_some_iff.1 htoken).1
          have hread : readFrom reader.state (tokens.drop reader.cursor) =
              readFrom state (tokens.drop (reader.cursor + 1)) := by
            rw [drop_eq_cons htoken, readFrom_of_step hkind hstep]
          obtain ⟨steps, cursor, hsteps, hrest⟩ :=
            ih (tokens.length - (reader.cursor + 1)) (by omega)
              ⟨reader.answers, state, reader.cursor + 1⟩ rfl
          refine ⟨steps + 1, cursor, ?_, ?_⟩
          · rw [Function.iterate_succ_apply, hnext, hsteps, hread]
          · rw [hrest, hread]
      | answer hresult =>
          refine ⟨1, reader.cursor, ?_, ?_⟩
          · rw [Function.iterate_one, hnext, hresult, Reader.answer]
          · rw [hresult]

/-- **Every call ends.**  After some steps `count` calls have ended, with the answers of as many
readings in a row, and the cursor has not passed what these leave. -/
theorem exists_after (tokens : List Token) (count : Nat) :
    ∃ steps cursor, after tokens steps = ⟨readPrograms count tokens, .start, cursor⟩ ∧
      tokens.drop cursor = leftAfter count tokens := by
  induction count with
  | zero => exact ⟨0, 0, rfl, rfl⟩
  | succ count ih =>
      obtain ⟨steps, cursor, hsteps, hleft⟩ := ih
      obtain ⟨more, cursor', hmore, hleft'⟩ := exists_iterate_next tokens (after tokens steps)
      refine ⟨more + steps, cursor', ?_, ?_⟩
      · rw [after, Function.iterate_add_apply, ← after, hmore, hsteps, hleft, readPrograms_succ,
          readProgram]
      · rw [hleft', hsteps, hleft, leftAfter_succ, readProgram]

end Reader

/-! ### Any row of tokens -/

/-- **Any row of tokens is read safely, one program after the other**, whatever the kinds, texts and
places of the tokens are.  Any number of calls come to their ends, after at most one step for each
call and each token before the first mark of the end; the cursor has then passed what the readings
do not leave.  It never moves back, and it never passes the first mark of the end, nor the end of
the row if there is none.  The answers stay the same if the row is cut behind its first mark, or if
a mark is put behind a row that has none.  Once a call ends well, all later calls find the empty
list. -/
theorem readers_stay_before_end (tokens : List Token) (count : Nat) :
    ((readPrograms count tokens).length = count ∧
        ∃ steps cursor, steps ≤ count + (beforeEnd tokens).length ∧
          Reader.after tokens steps = ⟨readPrograms count tokens, .start, cursor⟩ ∧
            tokens.drop cursor = leftAfter count tokens) ∧
      (∀ steps, (Reader.after tokens steps).cursor ≤ (Reader.after tokens (steps + 1)).cursor ∧
        (Reader.after tokens steps).cursor ≤ (beforeEnd tokens).length) ∧
      (∀ before mark after, tokens = before ++ mark :: after →
        (∀ token ∈ before, token.kind ≠ .finish) → mark.kind = .finish →
          readPrograms count tokens = readPrograms count (before ++ [mark])) ∧
      ((∀ token ∈ tokens, token.kind ≠ .finish) → ∀ mark : Token, mark.kind = .finish →
        readPrograms count tokens = readPrograms count (tokens ++ [mark])) ∧
      ∀ before e after, readPrograms count tokens = before ++ .ok e :: after →
        ∀ answer ∈ after, answer = .ok .empty := by
  refine ⟨⟨length_readPrograms count tokens, ?_⟩, fun steps => ⟨?_, ?_⟩, ?_, ?_, ?_⟩
  · obtain ⟨steps, cursor, hsteps, hleft⟩ := Reader.exists_after tokens count
    refine ⟨steps, cursor, ?_, hsteps, hleft⟩
    obtain ⟨heq, hle⟩ := Reader.tracks_after tokens steps
    rw [hsteps] at heq hle
    rw [length_readPrograms] at heq
    omega
  · rw [Reader.after_succ]
    exact (Reader.next_cases tokens _).cursor_le
  · exact (Reader.tracks_after tokens steps).cursor_le
  · rintro before mark after rfl hbefore hmark
    refine readPrograms_congr ?_ count
    rw [beforeEnd_append hbefore hmark, beforeEnd_append hbefore hmark]
  · intro htokens mark hmark
    refine readPrograms_congr ?_ count
    rw [beforeEnd_of_forall_ne htokens, beforeEnd_append htokens hmark]
  · exact fun before e after => eq_empty_of_readPrograms

/-- Two names in a row, and more tokens behind a mark of the end.  The first call stops in front of
the second name, the second call reads it, and the third one finds nothing. -/
theorem readers_stay_before_end_two_marks :
    ∃ first second mark closing : Token,
      (first.kind = .name ∧ second.kind = .name ∧ mark.kind = .finish ∧ closing.kind = .closing) ∧
      readPrograms 3 [first, second, mark, closing, mark] =
        [.error (.misplaced .name .operatorOrEnd second.span), .ok (.read ⟨second.text⟩),
          .ok .empty] ∧
      (∃ steps cursor, steps ≤ 3 + 2 ∧
        Reader.after [first, second, mark, closing, mark] steps =
          ⟨readPrograms 3 [first, second, mark, closing, mark], .start, cursor⟩) ∧
      readPrograms 3 [first, second, mark, closing, mark] = readPrograms 3 [first, second, mark] ∧
        readPrograms 3 [first, second] = readPrograms 3 [first, second, mark] := by
  let first : Token := ⟨.name, ⟨7, 3⟩, "a"⟩
  let second : Token := ⟨.name, ⟨0, 1⟩, "b"⟩
  let mark : Token := ⟨.finish, ⟨9, 9⟩, ""⟩
  let closing : Token := ⟨.closing, ⟨1, 2⟩, ")"⟩
  have hnames : ∀ token ∈ [first, second], token.kind ≠ .finish := by decide
  obtain ⟨⟨-, steps, cursor, hle, hsteps, -⟩, -, hcut, -, -⟩ :=
    readers_stay_before_end [first, second, mark, closing, mark] 3
  obtain ⟨-, -, -, hmark, -⟩ := readers_stay_before_end [first, second] 3
  exact ⟨first, second, mark, closing, ⟨rfl, rfl, rfl, rfl⟩, rfl, ⟨steps, cursor, hle, hsteps⟩,
    hcut [first, second] mark [closing, mark] rfl hnames rfl, hmark hnames mark rfl⟩

end Roster
