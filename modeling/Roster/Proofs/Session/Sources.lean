/-
**What sources leave in a session.**

A session begins with an empty environment and only ever changes by evaluating the expressions of
the sources that it is given.  What holds of the expressions of all sources, and is kept by an
evaluation, therefore holds of the environment that sources leave, whether or not some of them fail.

The names and addresses of an expression are spelled as the grammar demands, since they were cut out
of a source.  An expression holds a composition only if its source holds the sign of one.

Main definitions:

* `Session.evalSources`: a session after several sources.

Main results:

* `Session.evalSources_preserves`: **what each evaluation keeps, a session keeps**;
* `Session.writable_evalSources`, `Session.complete_evalSources`: names and addresses in a session
  are well spelled, and every name in a binding is bound;
* `Session.parallelFree_evalSources`: without the sign of a composition in the sources there are no
  compositions in the session, and no loops.
-/

import Roster.Proofs.Evaluation.Acyclic
import Roster.Proofs.Evaluation.Complete
import Roster.Proofs.Evaluation.Hereditary
import Roster.Proofs.Session.SavedLines

set_option relaxedAutoImplicit false
set_option autoImplicit false

namespace Roster

open View

/-! ### The expression of a source -/

/-- The names and addresses of the expression of a source are well spelled. -/
theorem writable_of_parse {source : String} (hsize : source.utf8ByteSize ≤ Span.limit) {e : Expr}
    (h : parse source = .ok e) : e.Writable :=
  Expr.writable_of_words ((readProgram_eq_ok_iff.1 h).mem_lexemes hsize)

theorem parse_empty : parse "" = .ok .empty := by
  decide +kernel

/-- A row without the sign of a composition derives expressions without compositions. -/
theorem Derives.parallelFree {n : Nonterminal} {row : List Token} {e : Expr} (h : Derives n row e)
    (hrow : ∀ token ∈ row, token.kind ≠ .operator .parallel) : e.ParallelFree := by
  induction h with
  | link op _ ih => exact ih hrow
  | @chain op left right sign l r _ hsign _ ihl ihr =>
      refine ⟨?_, ihl fun token htoken => hrow token (by simp [htoken]),
        ihr fun token htoken => hrow token (by simp [htoken])⟩
      rintro rfl
      exact hrow sign (by simp) hsign
  | union _ ih => exact ih hrow
  | definition _ _ _ ih => exact ih fun token htoken => hrow token (by simp [htoken])
  | address _ => trivial
  | name _ => trivial
  | group _ _ _ ih => exact ih fun token htoken => hrow token (by simp [htoken])
  | nothing => trivial

/-- A source without the sign of a composition has an expression without compositions. -/
theorem parallelFree_of_parse {source : String} (hsize : source.utf8ByteSize ≤ Span.limit)
    (hbar : '|' ∉ source.toList) {e : Expr} (h : parse source = .ok e) : e.ParallelFree := by
  refine (readProgram_eq_ok_iff.1 h).parallelFree fun token htoken hkind => hbar ?_
  have hmem : token.lexeme ∈ (lex source).map Token.lexeme :=
    List.mem_map_of_mem ((List.takeWhile_prefix _).subset htoken)
  rw [map_lexeme_lex hsize, List.mem_append, List.mem_singleton, Token.lexeme, hkind] at hmem
  obtain ⟨rest, hsuffix, hspelled⟩ :=
    exists_spelled_of_mem_lexemes (hmem.resolve_right (by simp))
  have hsign : (TokenKind.operator .parallel, '|') ∈ signs := by decide
  rw [hspelled.eq_sign hsign] at hsuffix
  exact hsuffix.subset List.mem_cons_self

/-! ### Sessions -/

/-- An evaluation in an environment leaves an environment. -/
theorem exists_evaluate_base (budget : ℕ) (e : Expr) (env : Environment) :
    ∃ after, (evaluate budget e (.base env)).2 = .base after := by
  obtain ⟨touched, writes, hafter, -⟩ :=
    evaluate_effect budget (closed_univ (.base env)) e.within_univ
  exact ⟨env ∪ writes, hafter⟩

namespace Session

section

variable {session : Session} {e : Expr} {after : Environment}

theorem evalExpr_of_ok {addresses : AddressSet}
    (h : evaluate session.settings.readBudget e (.base session.environment) =
      (.ok addresses, .base after)) :
    session.evalExpr e = (.ok addresses, { session with environment := after }) := by
  rw [evalExpr, h]
  rfl

theorem evalExpr_of_error {stop : Stop}
    (h : evaluate session.settings.readBudget e (.base session.environment) =
      (.error stop, .base after)) :
    session.evalExpr e = (.error (.ofStop stop), { session with environment := after }) := by
  rw [evalExpr, h]
  rfl

end

/-- A source without text does nothing. -/
theorem evalSource_empty (session : Session) : session.evalSource "" = (.ok ∅, session) := by
  rw [evalSource_of_parse parse_empty]
  exact evalExpr_of_ok (evaluate_empty _ _)

/-- An evaluation in a session ends well, or stops; what it leaves is what the evaluation leaves. -/
theorem evalExpr_cases (session : Session) (e : Expr) :
    (∃ addresses after, evaluate session.settings.readBudget e (.base session.environment) =
        (.ok addresses, .base after) ∧
      session.evalExpr e = (.ok addresses, { session with environment := after })) ∨
    ∃ stop after, evaluate session.settings.readBudget e (.base session.environment) =
        (.error stop, .base after) ∧
      session.evalExpr e = (.error (.ofStop stop), { session with environment := after }) := by
  obtain ⟨after, hafter⟩ :=
    exists_evaluate_base session.settings.readBudget e session.environment
  cases hrun : evaluate session.settings.readBudget e (.base session.environment) with
  | mk result view =>
      rw [hrun] at hafter
      obtain rfl : view = .base after := hafter
      cases result with
      | ok addresses => exact Or.inl ⟨addresses, after, rfl, evalExpr_of_ok hrun⟩
      | error stop => exact Or.inr ⟨stop, after, rfl, evalExpr_of_error hrun⟩

/-- What an evaluation in a session leaves is the view that the evaluation leaves. -/
theorem base_evalExpr (session : Session) (e : Expr) :
    View.base (session.evalExpr e).2.environment =
      (evaluate session.settings.readBudget e (.base session.environment)).2 := by
  obtain ⟨addresses, after, hrun, heval⟩ | ⟨stop, after, hrun, heval⟩ := session.evalExpr_cases e
  · rw [heval, hrun]
  · rw [heval, hrun]

/-- The session after sources that are evaluated one after the other.  A source that fails leaves
what it has bound, and the next one goes on from there. -/
def evalSources : Session → List String → Session
  | session, [] => session
  | session, source :: rest => (session.evalSource source).2.evalSources rest

/-- The settings of a session stay as they are. -/
theorem settings_evalSources (session : Session) (sources : List String) :
    (session.evalSources sources).settings = session.settings := by
  induction sources generalizing session with
  | nil => rfl
  | cons source rest ih =>
      rw [evalSources, ih, evalSource]
      split
      · rename_i e he
        obtain ⟨_, _, -, heval⟩ | ⟨_, _, -, heval⟩ := session.evalExpr_cases e <;> rw [heval]
      · rfl

/-- **What each evaluation keeps, a session keeps.** -/
theorem evalSources_preserves {P : View → Prop} {sources : List String}
    (hstep : ∀ source ∈ sources, ∀ e, parse source = .ok e → ∀ budget view, P view →
      P (evaluate budget e view).2) {session : Session} (hsession : P (.base session.environment)) :
    P (.base (session.evalSources sources).environment) := by
  induction sources generalizing session with
  | nil => exact hsession
  | cons source rest ih =>
      refine ih (fun other hother => hstep other (List.mem_cons_of_mem _ hother)) ?_
      unfold evalSource
      split
      · rename_i e he
        rw [base_evalExpr]
        exact hstep source List.mem_cons_self e he _ _ hsession
      · exact hsession

end Session

/-! ### What holds in every session -/

theorem Expr.Writable.substitute {target : Name} {e replacement : Expr} (he : e.Writable)
    (hreplacement : replacement.Writable) : (e.substitute target replacement).Writable := by
  induction e with
  | address text => exact he
  | empty => trivial
  | read name =>
      rw [Expr.substitute]
      split
      · exact hreplacement
      · exact he
  | combine op left right ihl ihr => exact ⟨ihl he.1, ihr he.2⟩
  | define name body ih => exact ⟨he.1, ih he.2⟩

theorem hereditary_writable : Hereditary Expr.Writable WritableBinding where
  read h := ⟨h, trivial⟩
  bound _ h := h.writable
  operands h := h
  body h := h.2
  define h := ⟨h.1, trivial⟩
  snapshot h hformer := ⟨h.1, Expr.Writable.substitute h.2 hformer.writable⟩

namespace Session

variable {session : Session} {sources : List String}

/-- All names and addresses that sources leave in a session are well spelled. -/
theorem writable_evalSources (hsession : session.environment = ∅)
    (hsize : ∀ source ∈ sources, source.utf8ByteSize ≤ Span.limit) :
    (View.base (session.evalSources sources).environment).All WritableBinding := by
  refine evalSources_preserves (fun source hsource e he budget view hview => ?_) ?_
  · exact hereditary_writable.all_evaluate budget e view hview
      (writable_of_parse (hsize source hsource) he)
  · rw [hsession]
    exact View.All.empty

/-- The lines that are saved can be parsed, unless they are too long. -/
theorem savable_evalSources (hsession : session.environment = ∅)
    (hsize : ∀ source ∈ sources, source.utf8ByteSize ≤ Span.limit)
    (hlines : ∀ entry ∈ (session.evalSources sources).environment.toList,
      (definitionLine entry.1 entry.2).utf8ByteSize ≤ Span.limit) :
    ∀ entry ∈ (session.evalSources sources).environment.toList,
      SavableBinding entry.1 entry.2 := by
  intro entry hentry
  exact ⟨writable_evalSources hsession hsize entry.1 entry.2
    (Std.ExtTreeMap.mem_toList_iff_getElem?_eq_some.1 hentry), hlines entry hentry⟩

/-- Every name in a binding that sources leave is bound. -/
theorem complete_evalSources (hsession : session.environment = ∅) (sources : List String) :
    (View.base (session.evalSources sources).environment).Complete := by
  refine evalSources_preserves (fun source _ e _ budget view hview => ?_) ?_
  · exact (evaluate_complete budget e view hview).1
  · rw [hsession]
    exact complete_empty

/-- Sources without the sign of a composition leave no composition, and no loops. -/
theorem parallelFree_evalSources (hsession : session.environment = ∅)
    (hsize : ∀ source ∈ sources, source.utf8ByteSize ≤ Span.limit)
    (hbar : ∀ source ∈ sources, '|' ∉ source.toList) :
    (View.base (session.evalSources sources).environment).ParallelFree ∧
      (View.base (session.evalSources sources).environment).Acyclic := by
  refine evalSources_preserves (P := fun view => view.ParallelFree ∧ view.Acyclic)
    (fun source hsource e he budget view hview => ?_) ?_
  · have hfree := parallelFree_of_parse (hsize source hsource) (hbar source hsource) he
    exact ⟨hereditary_parallelFree.all_evaluate budget e view hview.1 hfree,
      CleanRun.acyclic budget e view hview.2 (CleanRun.of_parallelFree hview.1 hfree)⟩
  · rw [hsession]
    exact ⟨View.All.empty, acyclic_empty⟩

end Session

end Roster
