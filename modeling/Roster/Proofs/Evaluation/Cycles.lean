/-
**A cycle that is reported is there.**

Without compositions an evaluation can only fail at the check of a definition, and what it leaves is
the view in which the check was made.  So the error that is reported can be held against this view:
the list that it blames should be another one than the list to be defined, and what is bound to it
should lead back.

The first check is made of the body as it is written, and passes over the reads of the name itself.
The second one is made of the snapshot, in which such reads are replaced by what was bound to the
name before.  It would report the name itself if the former binding had read it.  But in a view
without loops no list reads itself, and a snapshot takes this over from the former binding, so that
it holds of whatever is bound in the course of the evaluation.

Compositions need only be absent from what the evaluation can read.  As this is settled before it
begins, their absence is kept for a set of names that is given from the start.

Main definitions:

* `View.Sequential`: an expression leads to no composition;
* `SequentialWithin`, `SequentialBinding`: what an evaluation keeps of it, together with the fact
  that no list reads itself.

Main results:

* `hereditary_sequential`: this is kept;
* `FailedCheckIn.exists_via`: **what a failed check blames**;
* `evaluate_fails_at_cycles`: **an evaluation without compositions fails at cycles only**, and each
  cycle that it reports is there.
-/

import Roster.Proofs.Evaluation.Hereditary
import Roster.Proofs.Evaluation.Termination

set_option relaxedAutoImplicit false
set_option autoImplicit false

namespace Roster

open View Relation

/-! ### What is kept -/

/-- No composition stands in an expression, nor in what is bound to the names that it leads to. -/
structure View.Sequential (view : View) (e : Expr) : Prop where
  text : e.ParallelFree
  bindings : ∀ name, view.Reaches e name → ∀ b, view.lookup name = some b → b.ParallelFree

/-- An expression without compositions that reads only names in `readable`. -/
structure SequentialWithin (readable : Set Name) (e : Expr) : Prop where
  parallelFree : e.ParallelFree
  reads : ∀ name ∈ e.reads, name ∈ readable

/-- An expression that may be bound to a name: it does not read the name itself, and if the name may
be read, there are no compositions in it.  Nothing more is said of what is bound to other names. -/
structure SequentialBinding (readable : Set Name) (name : Name) (e : Expr) : Prop where
  not_mem_reads : name ∉ e.reads
  sequential : name ∈ readable → SequentialWithin readable e

section

variable {readable : Set Name} {name : Name} {view : View} {e body former : Expr}

theorem SequentialBinding.empty : SequentialBinding readable name .empty :=
  ⟨List.not_mem_nil, fun _ => ⟨trivial, fun _ hname => absurd hname List.not_mem_nil⟩⟩

/-- A snapshot reads its name only if the former binding did. -/
theorem SequentialBinding.substitute (hbody : SequentialWithin readable body)
    (hformer : SequentialBinding readable name former) :
    SequentialBinding readable name (body.substitute name former) := by
  refine ⟨fun hname => ?_, fun hreadable => ⟨?_, fun other hother => ?_⟩⟩
  · rcases Expr.mem_reads_substitute.1 hname with ⟨-, hne⟩ | ⟨-, hname⟩
    · exact hne rfl
    · exact hformer.not_mem_reads hname
  · exact hbody.parallelFree.substitute (hformer.sequential hreadable).parallelFree
  · rcases Expr.mem_reads_substitute.1 hother with ⟨hother, -⟩ | ⟨-, hother⟩
    · exact hbody.reads other hother
    · exact (hformer.sequential hreadable).reads other hother

/-- The absence of compositions, and of lists that read themselves, is kept. -/
theorem hereditary_sequential (readable : Set Name) :
    Hereditary (SequentialWithin readable) (SequentialBinding readable) where
  read _ := SequentialBinding.empty
  bound hread he := he.sequential (hread.reads _ List.mem_cons_self)
  operands he :=
    have hreads := List.forall_mem_append.1 he.reads
    ⟨⟨he.parallelFree.2.1, hreads.1⟩, he.parallelFree.2.2, hreads.2⟩
  body he := ⟨he.parallelFree, he.reads⟩
  define _ := SequentialBinding.empty
  snapshot he hformer := hformer.substitute ⟨he.parallelFree, he.reads⟩

theorem SequentialWithin.ne_parallel (left right : Expr) :
    ¬ SequentialWithin readable (.combine .parallel left right) :=
  fun h => h.parallelFree.1 rfl

theorem View.Sequential.within (h : view.Sequential e) : SequentialWithin (view.Reaches e) e :=
  ⟨h.text, fun _ => Reaches.direct⟩

/-- What is kept holds at the beginning, where no list reads itself as there are no loops. -/
theorem View.Sequential.all (h : view.Sequential e) (hview : view.Acyclic) :
    view.All (SequentialBinding (view.Reaches e)) := by
  intro name b hb
  refine ⟨fun hname => hview name (TransGen.single ⟨b, hb, hname⟩), fun hname => ?_⟩
  exact ⟨h.bindings name hname b hb, (view.closed_reaches e name hname b hb).reads⟩

end

/-! ### What is reported -/

section

variable {evaluable : Expr → Prop} {bindable : Name → Expr → Prop} {view : View}

/-- **What a failed check blames**, if no binding reads its own name: a list other than the one to
be defined, whose binding leads to that one or defines it on the way. -/
theorem FailedCheckIn.exists_via {error : EvalError}
    (hbindable : ∀ name e, bindable name e → name ∉ e.reads)
    (h : FailedCheckIn evaluable bindable error view) :
    ∃ target via b, error = .cycle target via ∧ via ≠ target ∧ view.lookup via = some b ∧
      target ∈ view.reached b := by
  cases h with
  | @first name body _ _ hsnapshot =>
      obtain ⟨_, via, _, -, -, hne, hreached, rfl⟩ := snapshot_eq_error_iff.1 hsnapshot
      obtain ⟨b, hb, hback⟩ := exists_lookup_of_mem_reached_meaning hreached
      exact ⟨name, via, b, rfl, hne, hb, hback⟩
  | @second name snapshot _ hbind hallow =>
      obtain ⟨via, hvia, hcases, rfl⟩ := exists_of_allowBinding_eq_error hallow
      have hne : via ≠ name := by
        rintro rfl
        exact hbindable via snapshot hbind hvia
      obtain ⟨b, hb, hback⟩ := exists_lookup_of_mem_reached_meaning (hcases.resolve_left hne)
      exact ⟨name, via, b, rfl, hne, hb, hback⟩

variable {e : Expr} {budget : ℕ}

/-- **An evaluation without compositions fails at cycles only**, in a view without loops.  Each
cycle that is reported is there in the view that the evaluation leaves: the list that is blamed is
another one than the list to be defined, it is bound, and its binding leads to the list to be
defined or defines it on the way.  So no list is ever blamed for a read of itself.  A budget as
large as the number of names that the expression depends on is not exhausted. -/
theorem evaluate_fails_at_cycles (hview : view.Acyclic) (he : view.Sequential e) (budget : ℕ) :
    (∀ error after, evaluate budget e view = (.error (.failed error), after) →
      ∃ target via b, error = .cycle target via ∧ via ≠ target ∧ after.lookup via = some b ∧
        target ∈ after.reached b) ∧
    (∀ name, (evaluate budget e view).1 ≠ .error (.failed (.cycle name name))) ∧
    ((view.reached e).size ≤ budget → (evaluate budget e view).1 ≠ .error .exhausted) := by
  have hkept := hereditary_sequential (view.Reaches e)
  have hvia : ∀ error after, evaluate budget e view = (.error (.failed error), after) →
      ∃ target via b, error = .cycle target via ∧ via ≠ target ∧ after.lookup via = some b ∧
        target ∈ after.reached b := by
    intro error after hrun
    have hfailed := hkept.of_failed SequentialWithin.ne_parallel budget e view (he.all hview)
      he.within (congrArg Prod.fst hrun)
    rw [hrun] at hfailed
    exact hfailed.exists_via fun _ _ hbind => hbind.not_mem_reads
  refine ⟨hvia, fun name hrun => ?_, fun hbudget => ?_⟩
  · obtain ⟨target, via, b, herror, hne, -⟩ := hvia _ _ (Prod.ext hrun rfl)
    cases herror
    exact hne rfl
  · exact (hkept.cleanRun SequentialWithin.ne_parallel (he.all hview) he.within).not_exhausted
      hview hbudget

/-- The body of `a` defines `b` to read `a`, and the snapshot of `a` still reads `b`. -/
theorem evaluate_fails_at_cycles_nested :
    (base ∅).Acyclic ∧
      (base ∅).Sequential (.define ⟨"a"⟩ (.combine .union (.define ⟨"b"⟩ (.read ⟨"a"⟩))
        (.read ⟨"b"⟩))) ∧
      (∃ target via b after, evaluate 2 (.define ⟨"a"⟩ (.combine .union
          (.define ⟨"b"⟩ (.read ⟨"a"⟩)) (.read ⟨"b"⟩))) (base ∅) =
            (.error (.failed (.cycle target via)), after) ∧
        via ≠ target ∧ after.lookup via = some b ∧ target ∈ after.reached b) ∧
      (evaluate 2 (.define ⟨"a"⟩ (.combine .union (.define ⟨"b"⟩ (.read ⟨"a"⟩))
        (.read ⟨"b"⟩))) (base ∅)).1 ≠ .error .exhausted := by
  have he : (base ∅).Sequential (.define ⟨"a"⟩ (.combine .union (.define ⟨"b"⟩ (.read ⟨"a"⟩))
      (.read ⟨"b"⟩))) :=
    ⟨⟨by decide, trivial, trivial⟩, fun name _ b hb => by simp at hb⟩
  obtain ⟨hvia, -, hends⟩ := evaluate_fails_at_cycles acyclic_empty he 2
  obtain ⟨target, via, b, herror, hback⟩ := hvia _ _ rfl
  cases herror
  exact ⟨acyclic_empty, he, ⟨_, _, b, _, rfl, hback⟩, hends (by decide +kernel)⟩

end

end Roster
