/-
**A source that is no program is refused at the first token that cannot be right.**

A reading takes one step for each token.  After every step there is a way to go on: with every open
group closed, and nothing else added, what has been read so far is a program, since a missing
operand is the empty list.  So a reading never runs on after a mistake.  Nor does it stop too early:
whether a row of tokens is derived depends on their kinds only, and if some program went on with the
kind of the refused token, that token could be read as well.

What remains is the end of a source with a group still open, and there the error points at the last
parenthesis without partner.

Main definitions:

* `BeginsProgram`: some program begins with tokens of the given kinds;
* `Refusal`: which error is right for which token;
* `RefusedAt`, `LeftOpenAt`: the two ways for a source to be no program.

Main results:

* `beginsProgram_iff`: the beginnings of programs are those of derived rows;
* `beginsProgram_of_run`, `not_beginsProgram_of_step`: **a reading goes on as long as there is a way
  to go on**, and no longer;
* `refusal_of_step`: the error of a step is the one for its token;
* `refused_at_first_misfit`: **where and why a source is refused**.
-/

import Mathlib.Control.Monad.Basic
import Roster.Proofs.Parse.Parentheses
import Roster.Proofs.Parse.RoundTrip

set_option relaxedAutoImplicit false
set_option autoImplicit false

namespace Roster

/-! ### Beginnings of programs -/

/-- Some program begins with tokens of the given kinds. -/
def BeginsProgram (kinds : List TokenKind) : Prop :=
  ∃ program e, parse program = .ok e ∧ kinds <+: (lex program).map Token.kind

/-- A text for each kind of token. -/
def TokenKind.sample : TokenKind → List Char
  | address => ['a', '@', 'a']
  | name => ['a']
  | operator op => [op.sign]
  | equals => ['=']
  | opening => ['(']
  | closing => [')']
  | unknown => ['?']
  | finish => []

/-- Texts of tokens of the given kinds, with blanks between them. -/
def samples (kinds : List TokenKind) : List Char :=
  kinds.flatMap fun kind => kind.sample ++ [' ']

theorem lexemes_sample {kind : TokenKind} (hkind : kind ≠ .finish) (rest : List Char) :
    lexemes (kind.sample ++ ' ' :: rest) = (kind, String.ofList kind.sample) :: lexemes rest := by
  have hdetached : Detached (' ' :: rest) := detached_cons.2 (by decide)
  have hname : NameText ['a'] := ⟨List.cons_ne_nil _ _, List.all_eq_true.1 rfl⟩
  have hmailbox : ∀ c ∈ ['a'], isWordChar c = true := List.all_eq_true.1 rfl
  rw [← lexemes_space rest]
  cases kind with
  | address => exact lexemes_address ⟨['a'], ['a'], rfl, ⟨hname.1, hmailbox⟩, hname⟩ hdetached
  | name => exact lexemes_name hname hdetached
  | operator op => exact lexemes_sign op _
  | equals => exact lexemes_symbol (by decide) (by decide) _
  | opening => exact lexemes_opening _
  | closing => exact lexemes_closing _
  | unknown => exact lexemes_symbol (by decide) (by decide) _
  | finish => exact absurd rfl hkind

theorem map_fst_lexemes_samples {kinds : List TokenKind} (h : ∀ kind ∈ kinds, kind ≠ .finish) :
    (lexemes (samples kinds)).map Prod.fst = kinds := by
  induction kinds with
  | nil => rw [samples, List.flatMap_nil, lexemes_nil, List.map_nil]
  | cons kind kinds ih =>
      obtain ⟨hkind, hkinds⟩ := List.forall_mem_cons.1 h
      rw [samples, List.flatMap_cons, List.append_assoc, List.singleton_append,
        lexemes_sample hkind, List.map_cons, ← samples, ih hkinds]

theorem parse_eq_ok_iff_derives {program : String} {row : List Token} {mark : Token} {e : Expr}
    (hlex : lex program = row ++ [mark]) (hrow : ∀ token ∈ row, token.kind ≠ .finish)
    (hmark : mark.kind = .finish) : parse program = .ok e ↔ Derives .parallel row e := by
  rw [parse, readProgram_eq_ok_iff, hlex, beforeEnd_append_mark hrow hmark]

/-- The kinds that a program begins with are those that a derived row begins with. -/
theorem beginsProgram_iff {kinds : List TokenKind} (h : ∀ kind ∈ kinds, kind ≠ .finish) :
    BeginsProgram kinds ↔ ∃ row e, Derives .parallel row e ∧ kinds <+: row.map Token.kind := by
  constructor
  · rintro ⟨program, e, hparse, hprefix⟩
    obtain ⟨row, mark, hlex, hmark, hrow, -⟩ := exists_lex_eq program
    refine ⟨row, e, (parse_eq_ok_iff_derives hlex hrow hmark).1 hparse, ?_⟩
    rw [hlex, List.map_append, List.map_singleton, hmark] at hprefix
    refine (List.prefix_concat_iff.1 hprefix).resolve_left ?_
    rintro rfl
    exact h .finish (by simp) rfl
  · rintro ⟨row, e, hderives, hprefix⟩
    have hrow : ∀ kind ∈ row.map Token.kind, kind ≠ .finish := by
      simpa using hderives.kind_ne_finish
    obtain ⟨row', mark, hlex, hmark, hrow', hkinds⟩ :=
      exists_lex_eq (String.ofList (samples (row.map Token.kind)))
    rw [String.toList_ofList, map_fst_lexemes_samples hrow] at hkinds
    obtain ⟨e', hderives'⟩ := hderives.exists_of_kinds hkinds
    refine ⟨_, e', (parse_eq_ok_iff_derives hlex hrow' hmark).2 hderives', ?_⟩
    rw [hlex, List.map_append, hkinds]
    exact hprefix.trans (List.prefix_append _ _)

/-! ### Runs of a reading -/

/-- The state after a row of tokens. -/
def ReadState.run (state : ReadState) (row : List Token) : Except ParseError ReadState :=
  row.foldlM ReadState.step state

section

variable {state next : ReadState} {before row : List Token} {token : Token} {error : ParseError}

theorem run_of_step (hstep : state.step token = .ok next) (row : List Token) :
    state.run (token :: row) = next.run row := by
  rw [ReadState.run, List.foldlM_cons, hstep]
  rfl

theorem run_of_step_error (hstep : state.step token = .error error) (row : List Token) :
    state.run (token :: row) = .error error := by
  rw [ReadState.run, List.foldlM_cons, hstep]
  rfl

theorem run_append_of_ok (hrun : state.run before = .ok next) (row : List Token) :
    state.run (before ++ row) = next.run row := by
  rw [ReadState.run] at hrun ⊢
  rw [List.foldlM_append, hrun]
  rfl

theorem run_append_of_error (hrun : state.run before = .error error) (row : List Token) :
    state.run (before ++ row) = .error error := by
  rw [ReadState.run] at hrun ⊢
  rw [List.foldlM_append, hrun]
  rfl

/-- The result of a reading is that of its run up to the mark of the end. -/
theorem fst_readFrom (state : ReadState) (tokens : List Token) :
    (readFrom state tokens).1 = state.run (beforeEnd tokens) >>= ReadState.finish := by
  induction tokens generalizing state with
  | nil => rfl
  | cons token rest ih =>
      rw [readFrom]
      by_cases htoken : token.kind = .finish
      · rw [if_pos htoken, beforeEnd_of_finish htoken]
        rfl
      · rw [if_neg htoken, beforeEnd_of_ne htoken]
        cases hstep : state.step token with
        | error error =>
            rw [run_of_step_error hstep]
            rfl
        | ok next =>
            rw [run_of_step hstep]
            exact ih next

/-- A run that fails has a first step that does. -/
theorem exists_step_eq_error (h : state.run row = .error error) :
    ∃ before token after next, row = before ++ token :: after ∧
      state.run before = .ok next ∧ next.step token = .error error := by
  induction row generalizing state with
  | nil => cases h
  | cons token row ih =>
      cases hstep : state.step token with
      | error error' =>
          rw [run_of_step_error hstep] at h
          cases h
          exact ⟨[], token, row, state, rfl, rfl, hstep⟩
      | ok next =>
          rw [run_of_step hstep] at h
          obtain ⟨before, refused, after, last, rfl, hrun, hrefused⟩ := ih h
          exact ⟨token :: before, refused, after, last, rfl, (run_of_step hstep before).trans hrun,
            hrefused⟩

/-- What a state takes apart grows with each step of a run. -/
theorem Explains.run (h : Explains state before) (hrun : state.run row = .ok next) :
    Explains next (before ++ row) := by
  induction row generalizing state before with
  | nil =>
      cases hrun
      rwa [List.append_nil]
  | cons token row ih =>
      cases hstep : state.step token with
      | error error =>
          rw [run_of_step_error hstep] at hrun
          cases hrun
      | ok next' =>
          rw [run_of_step hstep] at hrun
          rw [← List.singleton_append, ← List.append_assoc]
          exact ih (h.step hstep) hrun

/-- The state after some tokens takes them apart. -/
theorem explains_of_run (hrun : ReadState.start.run before = .ok state) : Explains state before :=
  (Explains.operand Awaits.start).run hrun

/-! ### A way to go on -/

/-- A closing parenthesis is right wherever a group is open. -/
theorem step_closing (waiting : List Pending) (group : OpenGroup) (groups : List OpenGroup)
    (position : Position) (htoken : token.kind = .closing) :
    ∃ e, ReadState.step ⟨waiting, group :: groups, position⟩ token =
      .ok ⟨group.waiting, groups, .operator e none⟩ := by
  cases position with
  | operand =>
      refine ⟨Pending.fillAll waiting .empty, ?_⟩
      simp [ReadState.step, ReadState.afterOperand, htoken, TokenKind.mayFollowOperand]
  | operator e target =>
      refine ⟨Pending.fillAll waiting e, ?_⟩
      simp [ReadState.step, ReadState.afterOperand, htoken]

/-- Closing all groups that are open makes a program of what has been read. -/
theorem exists_finish_eq_ok (state : ReadState) :
    ∃ row next e, state.run row = .ok next ∧ next.finish = .ok e := by
  obtain ⟨waiting, groups, position⟩ := state
  induction groups generalizing waiting position with
  | nil =>
      cases position with
      | operand => exact ⟨[], _, _, rfl, rfl⟩
      | operator e target => exact ⟨[], _, _, rfl, rfl⟩
  | cons group groups ih =>
      have hclosing : (⟨.closing, default, ")"⟩ : Token).kind = .closing := rfl
      obtain ⟨inner, hstep⟩ := step_closing waiting group groups position hclosing
      obtain ⟨row, next, e, hrun, hfinish⟩ := ih group.waiting (.operator inner none)
      exact ⟨⟨.closing, default, ")"⟩ :: row, next, e, (run_of_step hstep row).trans hrun, hfinish⟩

/-- **What has been read begins a program.** -/
theorem beginsProgram_of_run (hbefore : ∀ token ∈ before, token.kind ≠ .finish)
    (hrun : ReadState.start.run before = .ok state) : BeginsProgram (before.map Token.kind) := by
  obtain ⟨row, next, e, hrow, hfinish⟩ := exists_finish_eq_ok state
  have hexplains := explains_of_run ((run_append_of_ok hrun row).trans hrow)
  refine (beginsProgram_iff (by simpa using hbefore)).2
    ⟨before ++ row, e, hexplains.finish hfinish, ?_⟩
  rw [List.map_append]
  exact List.prefix_append _ _

/-- **A token that is refused does not go on with any program**, whatever its text. -/
theorem not_beginsProgram_of_step (hbefore : ∀ token ∈ before, token.kind ≠ .finish)
    (htoken : token.kind ≠ .finish) (hrun : ReadState.start.run before = .ok state)
    (hstep : state.step token = .error error) :
    ¬ BeginsProgram (before.map Token.kind ++ [token.kind]) := by
  have hkinds : ∀ kind ∈ before.map Token.kind ++ [token.kind], kind ≠ .finish := by
    simpa [or_imp, forall_and, htoken] using hbefore
  rw [beginsProgram_iff hkinds]
  rintro ⟨row, e, hderives, rest, hrest⟩
  -- the tokens read so far and the refused one can take the place of the first ones of the program
  obtain ⟨front, after, rfl, hfront, -⟩ := List.map_eq_append_iff.1 hrest.symm
  have hrow : (before ++ token :: after).map Token.kind = (front ++ after).map Token.kind := by
    rw [List.map_append, List.map_append, hfront, List.map_cons, List.append_assoc,
      List.singleton_append]
  obtain ⟨e', hderives'⟩ := hderives.exists_of_kinds hrow
  have hmark : (⟨.finish, default, ""⟩ : Token).kind = .finish := rfl
  have hread := congrArg Prod.fst (readProgram_of_derives hderives' hmark [])
  rw [readProgram, fst_readFrom, beforeEnd_append_mark hderives'.kind_ne_finish hmark,
    run_append_of_ok hrun, run_of_step_error hstep] at hread
  cases hread

/-! ### Which error it is -/

/-- The kinds of tokens that complete an operand. -/
def TokenKind.completesOperand : TokenKind → Bool
  | address | name | closing => true
  | operator _ | equals | opening | unknown | finish => false

/-- The last of the tokens is an address, a name or a closing parenthesis. -/
def FollowsOperand (before : List Token) : Prop :=
  ∃ last ∈ before.getLast?, last.kind.completesOperand = true

/-- The error for a token that cannot stand behind the tokens before it. -/
inductive Refusal (before : List Token) (token : Token) : ParseError → Prop
  | unrecognised :
      token.kind = .unknown → Refusal before token (.unrecognised token.text token.span)
  | undefinable :
      token.kind = .equals → FollowsOperand before →
        Refusal before token (.undefinable token.span)
  | misplaced (expected : Expectation) :
      token.kind ≠ .unknown → ¬ (token.kind = .equals ∧ FollowsOperand before) →
        Refusal before token (.misplaced token.kind expected token.span)

/-- The place of an error is that of its token. -/
theorem Refusal.span_eq (h : Refusal before token error) : error.span = token.span := by
  cases h <;> rfl

theorem Refusal.ne_unclosed (h : Refusal before token error) (opened : Span) :
    error ≠ .unclosed opened := by
  cases h <;> simp

/-- What comes of one more token.  It is read, and then an operator comes next if the token
completes an operand, and an operand otherwise; or it is an equals sign behind an operand that
cannot be defined; or it does not fit in another way. -/
inductive Outcome (state : ReadState) (token : Token) : Except ParseError ReadState → Prop
  | read {next : ReadState} :
      (next.position = .operand ↔ token.kind.completesOperand = false) →
        Outcome state token (.ok next)
  | undefinable :
      token.kind = .equals ∧ state.position ≠ .operand →
        Outcome state token (.error (.undefinable token.span))
  | misplaced (expected : Expectation) :
      ¬ (token.kind = .equals ∧ state.position ≠ .operand) →
        Outcome state token (.error (.ofToken token expected))

/-- What comes of a token behind an operand, which is no equals sign if the operand is missing. -/
theorem outcome_afterOperand (state : ReadState) (e : Expr) (target : Option Name) (token : Token)
    (hmissing : state.position = .operand → token.kind ≠ .equals) :
    Outcome state token (state.afterOperand e target token) := by
  unfold ReadState.afterOperand
  split
  · rename_i op hkind
    exact .read (by simp [hkind, TokenKind.completesOperand])
  · rename_i hkind
    cases target with
    | none => exact .undefinable ⟨hkind, fun hposition => hmissing hposition hkind⟩
    | some name => exact .read (by simp [hkind, TokenKind.completesOperand])
  · rename_i hkind
    split
    · exact .misplaced _ (by simp [hkind])
    · exact .read (by simp [hkind, TokenKind.completesOperand])
  all_goals
    rename_i hkind
    exact .misplaced _ (by simp [hkind])

theorem outcome_step (state : ReadState) (token : Token) :
    Outcome state token (state.step token) := by
  unfold ReadState.step
  split
  · rename_i hposition
    exact outcome_afterOperand _ _ _ _ (by simp [hposition])
  · rename_i hposition
    split
    · rename_i hkind
      exact .read (by simp [hkind, TokenKind.completesOperand])
    · rename_i hkind
      exact .read (by simp [hkind, TokenKind.completesOperand])
    · rename_i hkind
      exact .read (by simp [hkind, TokenKind.completesOperand])
    · split
      · rename_i hfollows
        refine outcome_afterOperand _ _ _ _ fun _ hkind => ?_
        rw [hkind] at hfollows
        cases hfollows
      · exact .misplaced _ fun h => h.2 hposition

/-- After a run an operand comes next unless the tokens before it complete one. -/
theorem position_of_run (hrun : ReadState.start.run before = .ok state) :
    state.position = .operand ↔ ¬ FollowsOperand before := by
  rcases List.eq_nil_or_concat before with rfl | ⟨front, last, rfl⟩
  · cases hrun
    simp [FollowsOperand, ReadState.start]
  · rw [List.concat_eq_append] at hrun
    cases hfront : ReadState.start.run front with
    | error error =>
        rw [run_append_of_error hfront] at hrun
        cases hrun
    | ok next =>
        rw [run_append_of_ok hfront] at hrun
        cases hstep : next.step last with
        | error error =>
            rw [run_of_step_error hstep] at hrun
            cases hrun
        | ok next' =>
            rw [run_of_step hstep] at hrun
            cases hrun
            have houtcome := outcome_step next last
            rw [hstep] at houtcome
            cases houtcome with
            | read hposition => simp [hposition, FollowsOperand]

/-- The error of a step is the one for its token. -/
theorem refusal_of_step (hrun : ReadState.start.run before = .ok state)
    (hstep : state.step token = .error error) : Refusal before token error := by
  have hposition : state.position ≠ .operand ↔ FollowsOperand before := by
    rw [Ne, position_of_run hrun, Classical.not_not]
  have houtcome := outcome_step state token
  rw [hstep] at houtcome
  cases houtcome with
  | undefinable h =>
      rw [hposition] at h
      exact .undefinable h.1 h.2
  | misplaced expected h =>
      rw [hposition] at h
      rw [ParseError.ofToken]
      split
      · rename_i hkind
        exact .unrecognised hkind
      · rename_i hkind
        exact .misplaced expected hkind h

end

/-! ### Sources -/

/-- A source is refused at a token: what stands before it begins some program, and with the token no
program begins. -/
structure RefusedAt (source : String) (before : List Token) (token : Token) (error : ParseError) :
    Prop where
  tokens : ∃ after, lex source = before ++ token :: after
  text_eq : token.text = token.span.textIn source
  span_eq : error.span = token.span
  begins : BeginsProgram (before.map Token.kind)
  not_begins : ¬ BeginsProgram (before.map Token.kind ++ [token.kind])
  refusal : Refusal before token error

/-- A source ends in an open group: its tokens, up to the mark of the end, begin some program, and
`opening` is the last parenthesis without partner. -/
structure LeftOpenAt (source : String) (row : List Token) (opening : Token) : Prop where
  tokens : ∃ mark, lex source = row ++ [mark] ∧ mark.kind = .finish
  begins : BeginsProgram (row.map Token.kind)
  lastOpen : LastOpen row opening

section

variable {source : String} {row : List Token} {mark : Token} {error : ParseError}

/-- A source whose reading stops at a token is refused there. -/
theorem exists_refusedAt (hlex : lex source = row ++ [mark])
    (hrow : ∀ token ∈ row, token.kind ≠ .finish)
    (hrun : ReadState.start.run row = .error error) :
    ∃ before token, RefusedAt source before token error := by
  obtain ⟨before, token, after, state, rfl, hbefore, hstep⟩ := exists_step_eq_error hrun
  have hkinds : ∀ other ∈ before, other.kind ≠ .finish := fun other hother =>
    hrow other (List.mem_append_left _ hother)
  have hkind : token.kind ≠ .finish := hrow token (by simp)
  have hmem : token ∈ lex source := by simp [hlex]
  have hrefusal := refusal_of_step hbefore hstep
  refine ⟨before, token, ?_⟩
  exact {
    tokens := ⟨after ++ [mark], by rw [hlex, List.append_assoc, List.cons_append]⟩
    text_eq := congrArg Token.text (lex_eq_ofSpan hmem)
    span_eq := hrefusal.span_eq
    begins := beginsProgram_of_run hkinds hbefore
    not_begins := not_beginsProgram_of_step hkinds hkind hbefore hstep
    refusal := hrefusal }

/-- A source that is read to its end without being a program has a group left open. -/
theorem exists_leftOpenAt {state : ReadState} (hlex : lex source = row ++ [mark])
    (hmark : mark.kind = .finish) (hrow : ∀ token ∈ row, token.kind ≠ .finish)
    (hrun : ReadState.start.run row = .ok state) (hfinish : state.finish = .error error) :
    ∃ opening, LeftOpenAt source row opening ∧ error = .unclosed opening.span := by
  obtain ⟨opening, hlast, herror⟩ := (explains_of_run hrun).exists_lastOpen hfinish
  exact ⟨opening, ⟨⟨mark, hlex, hmark⟩, beginsProgram_of_run hrow hrun, hlast⟩, herror⟩

end

/-- **A source that is no program is refused at the first token that cannot be right**, and the
kind of the token, together with the one before it, decides which error it is.  If there is no such
token, a group is left open, and the error points at the last parenthesis without partner. -/
theorem refused_at_first_misfit {source : String} {error : ParseError}
    (h : parse source = .error error) :
    ((∀ opened, error ≠ .unclosed opened) → ∃ before token, RefusedAt source before token error) ∧
      ∀ opened, error = .unclosed opened →
        ∃ row opening, LeftOpenAt source row opening ∧ opened = opening.span := by
  obtain ⟨row, mark, hlex, hmark, hrow, -⟩ := exists_lex_eq source
  have hread : ReadState.start.run row >>= ReadState.finish = .error error := by
    rw [← h, parse, readProgram, fst_readFrom, hlex, beforeEnd_append_mark hrow hmark]
  cases hrun : ReadState.start.run row with
  | error refused =>
      rw [hrun] at hread
      cases hread
      obtain ⟨before, token, hrefused⟩ := exists_refusedAt hlex hrow hrun
      exact ⟨fun _ => ⟨before, token, hrefused⟩,
        fun opened hopened => absurd hopened (hrefused.refusal.ne_unclosed opened)⟩
  | ok state =>
      rw [hrun] at hread
      obtain ⟨opening, hopen, rfl⟩ := exists_leftOpenAt hlex hmark hrow hrun hread
      refine ⟨fun hne => absurd rfl (hne _), fun opened hopened => ⟨row, opening, hopen, ?_⟩⟩
      cases hopened
      rfl

/-- A definition inside a union is refused at its equals sign.  A group that is left open is
reported at its own parenthesis, although another one has been opened and closed since. -/
theorem refused_at_first_misfit_group :
    (parse "(a, b = c" = .error (.undefinable ⟨6, 7⟩) ∧
        ∃ before token, RefusedAt "(a, b = c" before token (.undefinable ⟨6, 7⟩)) ∧
      parse "(a; (b), c" = .error (.unclosed ⟨0, 1⟩) ∧
        ∃ row opening, LeftOpenAt "(a; (b), c" row opening ∧ ⟨0, 1⟩ = opening.span := by
  have hunion : parse "(a, b = c" = .error (.undefinable ⟨6, 7⟩) := by decide +kernel
  have hopen : parse "(a; (b), c" = .error (.unclosed ⟨0, 1⟩) := by decide +kernel
  exact ⟨⟨hunion, (refused_at_first_misfit hunion).1 (by simp)⟩, hopen,
    (refused_at_first_misfit hopen).2 ⟨0, 1⟩ rfl⟩

end Roster
