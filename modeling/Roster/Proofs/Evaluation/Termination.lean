/-
**Evaluation ends.**

The read of a list evaluates an expression that is found in a view, and the view changes all the
while, so neither expressions nor views become smaller.  What becomes smaller is the set of names
that can still be read.  In a view without loops, what is bound to a name does not lead back to the
name.  So while a list is being read, its own name is out of reach, and by the invariant of the
previous module this stays so whatever is bound in the meantime.  Hence a budget for as many reads
within one another as there are names in reach is enough.

Main results:

* `CleanRun.not_exhausted_within`, `CleanRun.not_exhausted`: a budget that a clean run does not
  exhaust;
* `evaluate_ends`: **a clean run in a view without loops ends**, and larger budgets change nothing.
-/

import Mathlib.Data.Finset.Card
import Mathlib.Data.Finset.Dedup
import Roster.Proofs.Evaluation.Acyclic

set_option relaxedAutoImplicit false
set_option autoImplicit false

namespace Roster

open View

section

variable {view : View} {e : Expr}

/-- While what is bound to a name is being read, the names in reach are fewer: they are closed
again, and the name itself is no longer among them. -/
theorem View.Acyclic.exists_fewer (hview : view.Acyclic) {names : Finset Name}
    (hclosed : view.Closed names Set.univ) {name : Name} (hname : name ∈ names)
    (he : view.lookup name = some e) :
    ∃ fewer : Finset Name, fewer.card < names.card ∧ view.Closed fewer Set.univ ∧
      ∀ other ∈ e.reads, other ∈ fewer := by
  classical
  have hreads : ∀ other ∈ e.reads, other ∈ names := fun other hother =>
    (hclosed name hname e he).reads other hother
  refine ⟨names.filter (view.Reaches e), ?_, ?_, ?_⟩
  · refine Finset.card_lt_card (Finset.filter_ssubset.2 ⟨name, hname, ?_⟩)
    exact hview.not_reaches_self he
  · intro via hvia b hb
    obtain ⟨hmem, hreaches⟩ := Finset.mem_filter.1 hvia
    refine ⟨fun other hother => Finset.mem_coe.2 (Finset.mem_filter.2 ⟨?_, ?_⟩), by simp⟩
    · exact (hclosed via hmem b hb).reads other hother
    · exact Reaches.next hreaches ⟨b, hb, hother⟩
  · intro other hother
    exact Finset.mem_filter.2 ⟨hreads other hother, Reaches.direct hother⟩

end

/-- A clean run does not exhaust its budget if it stays within as many names. -/
theorem CleanRun.not_exhausted_within :
    ∀ (budget : ℕ) (e : Expr) (view : View) (names : Finset Name), names.card ≤ budget →
      view.Closed names Set.univ → (∀ name ∈ e.reads, name ∈ names) → view.Acyclic →
        CleanRun budget e view → (evaluate budget e view).1 ≠ .error .exhausted := by
  refine evaluation_induction ?_ ?_ ?_ ?_ ?_ ?_ ?_
  · intro budget text view names _ _ _ _ _
    simp
  · intro budget view names _ _ _ _ _
    simp
  · intro name view names hcard _ hreads _ _
    have hname : name ∈ names := hreads name (by simp)
    rw [Finset.card_eq_zero.1 (Nat.le_zero.1 hcard)] at hname
    simp at hname
  · intro budget name ih view names hcard hclosed hreads hview hclean
    have hname : name ∈ names := hreads name (by simp)
    cases he : view.lookup name with
    | none =>
        rw [evaluate_read_of_none he]
        simp
    | some e =>
        -- the binding is read within a smaller budget, but also within fewer names
        obtain ⟨fewer, hfewer, hclosed', hreads'⟩ := hview.exists_fewer hclosed hname he
        rw [evaluate_read_of_some he]
        exact ih e view fewer (by omega) hclosed' hreads' hview (hclean.of_read he)
  · intro budget op left right hop ihl ihr view names hcard hclosed hreads hview hclean
    have hleft : ∀ name ∈ left.reads, name ∈ names := fun name hn => hreads name (by simp [hn])
    have hright : ∀ name ∈ right.reads, name ∈ names := fun name hn => hreads name (by simp [hn])
    have hfirst := ihl view names hcard hclosed hleft hview (hclean.of_left hop)
    -- the right operand starts where the left one ends: the names are closed there as well
    have hclosed' := hclosed.evaluate budget (e := left) ⟨hleft, by simp⟩
    have hview' := CleanRun.acyclic budget left view hview (hclean.of_left hop)
    obtain ⟨stop, after, hrun, hall⟩ | ⟨first, middle, hrun, hall⟩ :=
      evaluate_combine_cases hop budget left right view
    · rw [hrun] at hfirst
      rw [hall]
      exact hfirst
    · rw [hrun] at hclosed' hview'
      have hsecond := ihr middle names hcard hclosed' hright hview' (hclean.of_right hop hrun)
      rw [hall]
      cases hresult : (evaluate budget right middle).1 with
      | ok second => simp [Except.map]
      | error stop =>
          rw [hresult] at hsecond
          exact hsecond
  · intro budget left right ihl ihr view names hcard hclosed hreads hview hclean
    obtain ⟨error, -, hall⟩ | ⟨hallow, ⟨stop, hjoin, hall⟩ | ⟨_, _, -, -, hall⟩⟩ :=
      evaluate_parallel_cases budget left right view
    · rw [hall]
      simp
    · have hleft := ihl _ names hcard hclosed.overlay (fun name hn => hreads name (by simp [hn]))
        hview.overlay (hclean.of_leftSide hallow)
      have hright := ihr _ names hcard hclosed.overlay (fun name hn => hreads name (by simp [hn]))
        hview.overlay (hclean.of_rightSide hallow)
      rw [hall]
      rintro ⟨⟩
      rcases EvalM.join_eq_exhausted_iff.1 hjoin with hex | hex
      · exact hleft (sideWrites_eq_error_iff.1 hex)
      · exact hright (sideWrites_eq_error_iff.1 hex)
    · rw [hall]
      simp
  · intro budget name body ih view names hcard hclosed hreads hview hclean
    obtain ⟨error, -, hall⟩ | ⟨snapshot, hsnapshot, hcases⟩ :=
      evaluate_define_cases budget name body view
    · rw [hall]
      simp
    · obtain ⟨stop, after, hrun, hall⟩ | ⟨_, after, -, ⟨error, -, hall⟩ | ⟨-, hall⟩⟩ := hcases
      · have hbody := ih view names hcard hclosed hreads hview (hclean.of_body hsnapshot)
        rw [hrun] at hbody
        rw [hall]
        exact hbody
      · rw [hall]
        simp
      · rw [hall]
        simp

/-- The names that an expression leads to are closed, and the analysis counts them all. -/
theorem View.exists_names (view : View) (e : Expr) :
    ∃ names : Finset Name, names.card ≤ (view.reached e).size ∧ view.Closed names Set.univ ∧
      ∀ name ∈ e.reads, name ∈ names := by
  classical
  have hmem : ∀ {name}, view.Reaches e name →
      name ∈ (view.reached e).toList.toFinset.filter (view.Reaches e) := by
    intro name hname
    refine Finset.mem_filter.2 ⟨?_, hname⟩
    rw [List.mem_toFinset, Std.ExtTreeSet.mem_toList]
    exact mem_reached_of_reaches hname
  refine ⟨(view.reached e).toList.toFinset.filter (view.Reaches e), ?_, ?_, ?_⟩
  · rw [← Std.ExtTreeSet.length_toList]
    exact (Finset.card_filter_le _ _).trans (List.toFinset_card_le _)
  · intro name hname b hb
    have hreaches := (Finset.mem_filter.1 hname).2
    exact ⟨fun other hother => hmem (Reaches.next hreaches ⟨b, hb, hother⟩), by simp⟩
  · exact fun name hname => hmem (Reaches.direct hname)

/-- The number of names that an expression depends on is budget enough. -/
theorem CleanRun.not_exhausted {view : View} {e : Expr} {budget : ℕ}
    (hclean : CleanRun budget e view) (hview : view.Acyclic)
    (hbudget : (view.reached e).size ≤ budget) :
    (evaluate budget e view).1 ≠ .error .exhausted := by
  obtain ⟨names, hcard, hclosed, hreads⟩ := view.exists_names e
  exact CleanRun.not_exhausted_within budget e view names (hcard.trans hbudget) hclosed hreads hview
    hclean

/-- **A clean run in a view without loops ends**: the number of names that the expression depends on
is budget enough, and every larger budget gives the same outcome and leaves the same bindings. -/
theorem evaluate_ends {view : View} (hview : view.Acyclic) {e : Expr} {budget : ℕ}
    (hbudget : (view.reached e).size ≤ budget) (hclean : CleanRun budget e view) :
    (evaluate budget e view).1 ≠ .error .exhausted ∧
      ∀ larger, budget ≤ larger → evaluate larger e view = evaluate budget e view := by
  have hends := hclean.not_exhausted hview hbudget
  exact ⟨hends, fun larger hle => evaluate_of_le hle hends⟩

/-- Both sides of a composition read a list that reads a name for the first time. -/
theorem evaluate_ends_composition :
    ((View.base ∅).bind ⟨"x"⟩ (.read ⟨"y"⟩)).Acyclic ∧
      (evaluate 3 (.combine .parallel (.define ⟨"c"⟩ (.read ⟨"x"⟩)) (.read ⟨"x"⟩))
        ((View.base ∅).bind ⟨"x"⟩ (.read ⟨"y"⟩))).1 ≠ .error .exhausted ∧
      ∀ larger, 3 ≤ larger →
        evaluate larger (.combine .parallel (.define ⟨"c"⟩ (.read ⟨"x"⟩)) (.read ⟨"x"⟩))
            ((View.base ∅).bind ⟨"x"⟩ (.read ⟨"y"⟩)) =
          evaluate 3 (.combine .parallel (.define ⟨"c"⟩ (.read ⟨"x"⟩)) (.read ⟨"x"⟩))
            ((View.base ∅).bind ⟨"x"⟩ (.read ⟨"y"⟩)) := by
  have hview : ((View.base ∅).bind ⟨"x"⟩ (.read ⟨"y"⟩)).Acyclic := acyclic_empty.define rfl
  have hclean : CleanRun 3 (.combine .parallel (.define ⟨"c"⟩ (.read ⟨"x"⟩)) (.read ⟨"x"⟩))
      ((View.base ∅).bind ⟨"x"⟩ (.read ⟨"y"⟩)) := by
    have hread : ∀ commit, ¬ Commits 3 (.read ⟨"x"⟩)
        (.overlay ∅ ((View.base ∅).bind ⟨"x"⟩ (.read ⟨"y"⟩))) commit := by
      intro commit hcommit
      cases hcommit with
      | read he h =>
          cases he
          exact not_commits_read_of_none rfl commit h
    intro commit hcommit
    cases hcommit with
    | left hop _ => exact absurd rfl hop
    | right hop _ _ => exact absurd rfl hop
    | leftSide _ h =>
        cases h with
        | body _ h => exact absurd h (hread commit)
    | rightSide _ h => exact absurd h (hread commit)
    | join _ hl hr =>
        obtain rfl := Except.ok.inj (hl.symm.trans (b := .ok
          (((∅ : Environment).insert ⟨"y"⟩ .empty).insert ⟨"c"⟩ (.read ⟨"x"⟩))) rfl)
        obtain rfl := Except.ok.inj (hr.symm.trans (b := .ok
          ((∅ : Environment).insert ⟨"y"⟩ .empty)) rfl)
        exact ⟨(CleanWrites.none.first_read rfl).define (by decide +kernel),
          CleanWrites.none.first_read rfl⟩
  exact ⟨hview, evaluate_ends hview (by decide +kernel) hclean⟩

/-- A list that reads itself is never read to the end. -/
example : (evaluate 9 (.read ⟨"a"⟩) ((View.base ∅).bind ⟨"a"⟩ (.read ⟨"a"⟩))).1 =
    .error .exhausted := rfl

end Roster
