/-
**A parallel composition is a sequence in either order.**

Two sides that may be composed, and that read no list whose binding holds a definition, do not see
each other.  Neither leads to or defines a name that the other one defines.  What remains are first
reads: both sides may bind the same unbound name to the empty list, and one side may find a name
bound in this way which it would otherwise have found unbound.  Views that differ like this are
alike, so the evaluation of a side does not depend on whether the other one comes before it.

If one arrangement of the sides ends well, they all do.  If none does, they need not come out alike:
a side that fails hides one that never ends if it comes first.  A side that never ends has bound a
name, in a composition of its own, to what no check has seen.

Main definitions:

* `Independent`: two sides that may be composed and that meet no definitions in what they read;
* `arrangements`: the composition of two sides and the sequences of them.

Main results:

* `Independent.sequence_of_ok`: a sequence writes what the composition of its operands writes;
* `Independent.union_comm`: the writes of the sides may be committed in either order;
* `Independent.endsWell_or`: all arrangements end well, or none does;
* `parallel_agrees_with_sequences`: **a composition and the sequences in both orders** all end
  well, with the same bindings, or all fail, if the runs of the sides are clean;
* `not_all_fail_hidden_definitions`: sides of which one fails and the other one never ends.
-/

import Roster.Parse.Program
import Roster.Proofs.Evaluation.Outcomes
import Roster.Proofs.Evaluation.Termination

set_option relaxedAutoImplicit false
set_option autoImplicit false

namespace Roster

open View

variable {view : View} {left right : Expr} {budget : ℕ}

/-! ### Independent sides -/

/-- Two sides that may be composed.  No definition stands in what is bound to the names that they
lead to, so all names that they define can be seen in their text. -/
structure Independent (view : View) (left right : Expr) : Prop where
  allowed : view.allowParallel left right = .ok ()
  leftFree : ∀ name, view.Reaches left name → ∀ e, view.lookup name = some e → e.DefineFree
  rightFree : ∀ name, view.Reaches right name → ∀ e, view.lookup name = some e → e.DefineFree

theorem Independent.symm (h : Independent view left right) : Independent view right left :=
  ⟨allowParallel_eq_ok_iff.2 (allowParallel_eq_ok_iff.1 h.allowed).symm, h.rightFree, h.leftFree⟩

/-- The names that a side leads to are closed, with no definitions but those of the side itself. -/
theorem Independent.closed_left (h : Independent view left right) :
    view.Closed (view.Reaches left) {name | name ∈ left.targets} := by
  intro name hname e he
  have hfree : e.targets = [] := h.leftFree name hname e he
  exact ⟨fun other hother => Reaches.next hname ⟨e, he, hother⟩, by simp [hfree]⟩

theorem within_targets (view : View) (e : Expr) :
    e.Within (view.Reaches e) {name | name ∈ e.targets} :=
  ⟨fun _ h => Reaches.direct h, fun _ h => h⟩

section

variable {before : View} {touched touched' : Set Name} {writes leftWrites rightWrites : Environment}

/-- A side does not write what the other one defines. -/
theorem Independent.getElem?_eq_none (h : Independent view left right)
    (heffect : Effect (view.Reaches left) {name | name ∈ left.targets} touched before writes)
    {name : Name} (hname : name ∈ right.targets) : writes[name]? = none := by
  obtain ⟨hright, hleft⟩ := allowParallel_eq_ok_iff.1 h.allowed
  cases hwrites : writes[name]? with
  | none => rfl
  | some e =>
      by_cases htarget : name ∈ left.targets
      · exact absurd (mem_reached_of_mem_targets hname) (hleft name htarget)
      · have hreaches : view.Reaches left name := (heffect.eq_empty htarget hwrites).1
        exact absurd (mem_reached_of_reaches hreaches) (hright name hname)

/-- For the right side, the writes of the left one make no difference. -/
theorem Independent.alike (h : Independent view left right)
    (heffect : Effect (view.Reaches left) {name | name ∈ left.targets} touched view leftWrites) :
    Alike (view.Reaches right) {name | name ∈ right.targets} (overlay ∅ view)
      (view.bindAll leftWrites) := by
  refine ⟨fun name hname => ?_, fun name hname => ?_⟩
  · -- what the right side reads may have been bound by the left one, but only to the empty list
    have htarget : name ∉ left.targets := fun htarget =>
      (allowParallel_eq_ok_iff.1 h.allowed).2 name htarget (mem_reached_of_reaches hname)
    rw [meaning_overlay_empty, heffect.meaning htarget]
  · rw [lookup_overlay_empty, lookup_bindAll, h.getElem?_eq_none heffect hname, Option.none_or]

/-- The writes of independent sides may be committed in either order. -/
theorem Independent.union_comm (h : Independent view left right)
    (hleft : Effect (view.Reaches left) {name | name ∈ left.targets} touched view leftWrites)
    (hright : Effect (view.Reaches right) {name | name ∈ right.targets} touched' view rightWrites) :
    leftWrites ∪ rightWrites = rightWrites ∪ leftWrites := by
  have hboth := (hleft.mono Set.subset_union_left Set.subset_union_left).union
    (hright.mono Set.subset_union_right Set.subset_union_right)
  have hboth' := (hright.mono Set.subset_union_right Set.subset_union_right).union
    (hleft.mono Set.subset_union_left Set.subset_union_left)
  rw [Set.union_comm touched'] at hboth'
  refine hboth.ext hboth' ?_
  rintro name (hname | hname)
  · have hnone := h.symm.getElem?_eq_none hright hname
    rw [Std.ExtTreeMap.getElem?_union, Std.ExtTreeMap.getElem?_union, hnone, Option.none_or,
      Option.or_none]
  · have hnone := h.getElem?_eq_none hleft hname
    rw [Std.ExtTreeMap.getElem?_union, Std.ExtTreeMap.getElem?_union, hnone, Option.none_or,
      Option.or_none]

end

/-! ### The right side after the left one -/

section

variable {leftWrites rightWrites : Environment}

/-- After the left side, the right one has the result that it has beside it, and what it writes
amounts to the same. -/
theorem Independent.evaluate_right (h : Independent view left right)
    (hleft : sideWrites budget left view = .ok leftWrites) :
    (∀ stop, sideWrites budget right view = .error stop →
        (evaluate budget right (view.bindAll leftWrites)).1 = .error stop) ∧
      ∀ rightWrites, sideWrites budget right view = .ok rightWrites →
        ∃ addresses, evaluate budget right (view.bindAll leftWrites) =
          (.ok addresses, (view.bindAll leftWrites).bindAll rightWrites) := by
  obtain ⟨touched, heffect⟩ := sideWrites_effect h.closed_left (within_targets view left) hleft
  obtain ⟨touched', writes, writes', hmatched⟩ := evaluate_alike budget right _ _
    h.symm.closed_left.overlay (within_targets view right) (h.alike heffect)
  refine ⟨fun stop hstop => ?_, fun rightWrites hright => ?_⟩
  · rw [← hmatched.result]
    exact sideWrites_eq_error_iff.1 hstop
  · obtain ⟨addresses, -, hrun⟩ := evaluate_of_sideWrites hright
    obtain rfl : rightWrites = writes := by
      rw [← top_bindAll_overlay_empty view rightWrites, ← top_bindAll_overlay_empty view writes,
        ← hmatched.left, hrun]
    refine ⟨addresses, Prod.ext (hmatched.result.symm.trans (by rw [hrun])) ?_⟩
    -- two ways to write after the left side: as an effect on what it leaves, or side by side
    have hafter := (heffect.mono Set.subset_union_left Set.subset_union_left).trans
      (hmatched.rightEffect.mono Set.subset_union_right Set.subset_union_right)
    have hbeside := (heffect.mono Set.subset_union_left Set.subset_union_left).union
      ((hmatched.leftEffect.congr (lookup_overlay_empty view)).mono Set.subset_union_right
        Set.subset_union_right)
    have hsame : leftWrites ∪ writes' = leftWrites ∪ rightWrites := by
      refine hafter.ext hbeside ?_
      rintro name (hname | hname)
      · have hnone := h.symm.getElem?_eq_none hmatched.leftEffect hname
        have hnone' := h.symm.getElem?_eq_none hmatched.rightEffect hname
        rw [Std.ExtTreeMap.getElem?_union, Std.ExtTreeMap.getElem?_union, hnone, hnone']
      · rw [Std.ExtTreeMap.getElem?_union, Std.ExtTreeMap.getElem?_union, hmatched.same name hname]
    rw [hmatched.right, bindAll_bindAll, hsame, bindAll_bindAll]

theorem Independent.sequence_of_ok (h : Independent view left right)
    (hleft : sideWrites budget left view = .ok leftWrites)
    (hright : sideWrites budget right view = .ok rightWrites) :
    ∃ addresses, evaluate budget (.combine .sequence left right) view =
      (.ok addresses, (view.bindAll leftWrites).bindAll rightWrites) := by
  obtain ⟨first, hfirst, -⟩ := evaluate_of_sideWrites hleft
  obtain ⟨second, hsecond⟩ := (h.evaluate_right hleft).2 rightWrites hright
  refine ⟨second, ?_⟩
  rw [evaluate_combine_of_ok (by simp) hfirst, hsecond]
  rfl

/-- A sequence stops if a side stops on its own, and for the reason of a side. -/
theorem Independent.sequence_of_error (h : Independent view left right)
    (hstop : (∃ stop, sideWrites budget left view = .error stop) ∨
      ∃ stop, sideWrites budget right view = .error stop) :
    ∃ stop, (evaluate budget (.combine .sequence left right) view).1 = .error stop ∧
      (sideWrites budget left view = .error stop ∨ sideWrites budget right view = .error stop) := by
  cases hleft : sideWrites budget left view with
  | error stop =>
      have hfirst := evaluate_of_sideWrites_error hleft
      rw [evaluate_combine_of_error (by simp) (Prod.ext hfirst rfl)]
      exact ⟨stop, rfl, Or.inl rfl⟩
  | ok leftWrites =>
      rw [hleft] at hstop
      obtain ⟨stop, hright⟩ := hstop.resolve_left (by simp)
      obtain ⟨first, hfirst, -⟩ := evaluate_of_sideWrites hleft
      rw [evaluate_combine_of_ok (by simp) hfirst, (h.evaluate_right hleft).1 stop hright]
      exact ⟨stop, rfl, Or.inr hright⟩

theorem Independent.parallel_of_error (h : Independent view left right)
    (hstop : (∃ stop, sideWrites budget left view = .error stop) ∨
      ∃ stop, sideWrites budget right view = .error stop) :
    ∃ stop, (evaluate budget (.combine .parallel left right) view).1 = .error stop ∧
      (sideWrites budget left view = .error stop ∨ sideWrites budget right view = .error stop) := by
  cases hjoin : EvalM.join (sideWrites budget left view) (sideWrites budget right view) with
  | error stop =>
      rw [evaluate_parallel_of_error h.allowed hjoin]
      exact ⟨stop, rfl, EvalM.of_join_eq_error hjoin⟩
  | ok writes =>
      obtain ⟨hl, hr⟩ := EvalM.join_eq_ok_iff.1 hjoin
      rw [hl, hr] at hstop
      simp at hstop

end

/-! ### The three arrangements -/

/-- The ways to arrange two sides: beside each other, and one after the other in either order. -/
def arrangements (left right : Expr) : List Expr :=
  [.combine .parallel left right, .combine .sequence left right, .combine .sequence right left]

theorem mem_arrangements {e : Expr} :
    e ∈ arrangements left right ↔ e = .combine .parallel left right ∨
      e = .combine .sequence left right ∨ e = .combine .sequence right left := by
  simp [arrangements]

/-- All arrangements stop if a side stops on its own, and for the reason of a side. -/
theorem Independent.arrangements_of_error (h : Independent view left right)
    (hstop : (∃ stop, sideWrites budget left view = .error stop) ∨
      ∃ stop, sideWrites budget right view = .error stop) :
    ∀ e ∈ arrangements left right, ∃ stop, (evaluate budget e view).1 = .error stop ∧
      (sideWrites budget left view = .error stop ∨ sideWrites budget right view = .error stop) := by
  intro e he
  rcases mem_arrangements.1 he with rfl | rfl | rfl
  · exact h.parallel_of_error hstop
  · exact h.sequence_of_error hstop
  · obtain ⟨stop, hrun, hside⟩ := h.symm.sequence_of_error hstop.symm
    exact ⟨stop, hrun, hside.symm⟩

/-- All arrangements leave the same view if both sides end well on their own. -/
theorem Independent.arrangements_of_ok (h : Independent view left right)
    {leftWrites rightWrites : Environment} (hleft : sideWrites budget left view = .ok leftWrites)
    (hright : sideWrites budget right view = .ok rightWrites) :
    ∀ e ∈ arrangements left right, ∃ addresses,
      evaluate budget e view = (.ok addresses, (view.bindAll leftWrites).bindAll rightWrites) := by
  obtain ⟨touched, hl⟩ := sideWrites_effect h.closed_left (within_targets view left) hleft
  obtain ⟨touched', hr⟩ := sideWrites_effect h.symm.closed_left (within_targets view right) hright
  intro e he
  rcases mem_arrangements.1 he with rfl | rfl | rfl
  · exact ⟨∅, evaluate_parallel_of_ok h.allowed hleft hright⟩
  · exact h.sequence_of_ok hleft hright
  · obtain ⟨addresses, hrun⟩ := h.symm.sequence_of_ok hright hleft
    exact ⟨addresses, by rw [hrun, bindAll_bindAll, bindAll_bindAll, h.union_comm hl hr]⟩

theorem Independent.outcomes (h : Independent view left right) (budget : ℕ) :
    (∃ after, ∀ e ∈ arrangements left right, ∃ addresses,
        evaluate budget e view = (.ok addresses, after)) ∨
      ∀ e ∈ arrangements left right, ∃ stop, (evaluate budget e view).1 = .error stop ∧
        (sideWrites budget left view = .error stop ∨
          sideWrites budget right view = .error stop) := by
  cases hl : sideWrites budget left view with
  | error stop => exact Or.inr (hl ▸ h.arrangements_of_error (Or.inl ⟨stop, hl⟩))
  | ok leftWrites =>
      cases hr : sideWrites budget right view with
      | error stop => exact Or.inr (hl ▸ hr ▸ h.arrangements_of_error (Or.inr ⟨stop, hr⟩))
      | ok rightWrites => exact Or.inl ⟨_, h.arrangements_of_ok hl hr⟩

/-- If the runs of both sides are clean and the budget is large enough for each of them, no
arrangement exhausts it. -/
theorem Independent.not_exhausted (h : Independent view left right) (hview : view.Acyclic)
    (hsize : (view.reached left).size ≤ budget) (hsize' : (view.reached right).size ≤ budget)
    (hclean : CleanRun budget left view) (hclean' : CleanRun budget right view) :
    ∀ e ∈ arrangements left right, (evaluate budget e view).1 ≠ .error .exhausted := by
  intro e he hexhausted
  rcases h.outcomes budget with ⟨after, hok⟩ | hstop
  · obtain ⟨addresses, hrun⟩ := hok e he
    rw [hrun] at hexhausted
    cases hexhausted
  · obtain ⟨stop, hstop, hside⟩ := hstop e he
    obtain rfl : stop = .exhausted := Except.error.inj (hstop.symm.trans hexhausted)
    rcases hside with hside | hside
    · exact hclean.not_exhausted hview hsize (evaluate_of_sideWrites_error hside)
    · exact hclean'.not_exhausted hview hsize' (evaluate_of_sideWrites_error hside)

/-- If some budget is enough for all arrangements to end well, they leave the same view.  Otherwise
none of them ends well within any budget. -/
theorem Independent.endsWell_or (h : Independent view left right) :
    (∃ after, ∀ e ∈ arrangements left right, e.EndsWell view after) ∨
      ∀ e ∈ arrangements left right, e.Fails view ∨ e.NeverEnds view := by
  by_cases hok : ∃ budget after, ∀ e ∈ arrangements left right, ∃ addresses,
      evaluate budget e view = (.ok addresses, after)
  · obtain ⟨budget, after, hok⟩ := hok
    exact Or.inl ⟨after, fun e he => ⟨budget, hok e he⟩⟩
  · refine Or.inr fun e he => (e.outcome_cases view).resolve_left ?_
    rintro ⟨after, budget, addresses, hrun⟩
    rcases h.outcomes budget with ⟨after', hall⟩ | hstop
    · exact hok ⟨budget, after', hall⟩
    · obtain ⟨stop, hstop, -⟩ := hstop e he
      rw [hrun] at hstop
      cases hstop

/-- **A composition and the sequences in both orders agree**: they all end well and leave the same
view, or none of them ends well.  In the latter case some may fail and others never end, as one side
may write definitions that no check has seen and read them for ever.  If the runs of the two sides
are clean, within a budget that is large enough for each of them, they all fail. -/
theorem parallel_agrees_with_sequences (hview : view.Acyclic)
    (hallow : view.allowParallel left right = .ok ())
    (hfree : ∀ name, view.Reaches left name ∨ view.Reaches right name →
      ∀ e, view.lookup name = some e → e.DefineFree) :
    ((∃ after, ∀ e ∈ arrangements left right, e.EndsWell view after) ∨
        ∀ e ∈ arrangements left right, e.Fails view ∨ e.NeverEnds view) ∧
      ∀ budget, (view.reached left).size ≤ budget → (view.reached right).size ≤ budget →
        CleanRun budget left view → CleanRun budget right view →
          (∃ after, ∀ e ∈ arrangements left right, e.EndsWell view after) ∨
            ∀ e ∈ arrangements left right, e.Fails view := by
  have h : Independent view left right :=
    ⟨hallow, fun name hname => hfree name (Or.inl hname),
      fun name hname => hfree name (Or.inr hname)⟩
  refine ⟨h.endsWell_or, fun budget hsize hsize' hclean hclean' => ?_⟩
  refine h.endsWell_or.imp_right fun hnone e he => (hnone e he).resolve_right fun hnever => ?_
  exact h.not_exhausted hview hsize hsize' hclean hclean' e he (hnever budget)

/-- The left side is itself a composition, and each of the three lists that are defined reads a list
that reads a name for the first time. -/
theorem parallel_agrees_with_sequences_first_read :
    ∃ view : View, ∃ left right : Expr,
      (view.lookup ⟨"x"⟩ = some (.read ⟨"y"⟩) ∧ view.lookup ⟨"y"⟩ = none) ∧
      left = .combine .parallel (.define ⟨"c"⟩ (.read ⟨"x"⟩)) (.define ⟨"d"⟩ (.read ⟨"x"⟩)) ∧
      right = .define ⟨"e"⟩ (.combine .union (.read ⟨"x"⟩) (.address "o@p")) ∧
      ∃ after, ∀ e ∈ arrangements left right, e.EndsWell view after := by
  let view := (View.base ∅).bind ⟨"x"⟩ (.read ⟨"y"⟩)
  have hfree : ∀ name e, view.lookup name = some e → e.DefineFree := by
    intro name e he
    rw [lookup_bind] at he
    split at he
    · cases he
      rfl
    · simp at he
  -- the reads commit nothing, so that the only commit is that of the left side
  have hread : ∀ {other : View} {commit}, other.lookup ⟨"x"⟩ = some (.read ⟨"y"⟩) →
      other.lookup ⟨"y"⟩ = none → ¬ Commits 4 (.read ⟨"x"⟩) other commit := by
    intro other commit hx hy hcommit
    cases hcommit with
    | read he h =>
        rw [hx] at he
        cases he
        exact not_commits_read_of_none hy commit h
  have hleft : CleanRun 4
      (.combine .parallel (.define ⟨"c"⟩ (.read ⟨"x"⟩)) (.define ⟨"d"⟩ (.read ⟨"x"⟩))) view := by
    intro commit hcommit
    cases hcommit with
    | left hop _ => exact absurd rfl hop
    | right hop _ _ => exact absurd rfl hop
    | leftSide _ h =>
        cases h with
        | body _ h => exact absurd h (hread rfl rfl)
    | rightSide _ h =>
        cases h with
        | body _ h => exact absurd h (hread rfl rfl)
    | join _ hl hr =>
        obtain rfl := Except.ok.inj (hl.symm.trans (b := .ok
          (((∅ : Environment).insert ⟨"y"⟩ .empty).insert ⟨"c"⟩ (.read ⟨"x"⟩))) rfl)
        obtain rfl := Except.ok.inj (hr.symm.trans (b := .ok
          (((∅ : Environment).insert ⟨"y"⟩ .empty).insert ⟨"d"⟩ (.read ⟨"x"⟩))) rfl)
        exact ⟨(CleanWrites.none.first_read rfl).define (by decide +kernel),
          (CleanWrites.none.first_read rfl).define (by decide +kernel)⟩
  have hright : CleanRun 4
      (.define ⟨"e"⟩ (.combine .union (.read ⟨"x"⟩) (.address "o@p"))) view := by
    intro commit hcommit
    cases hcommit with
    | body _ h =>
        cases h with
        | left _ h => exact absurd h (hread rfl rfl)
        | right _ _ h => cases h
  have hends := (parallel_agrees_with_sequences (acyclic_empty.define rfl) rfl
    (fun name _ => hfree name)).2 4 (by decide +kernel) (by decide +kernel) hleft hright
  refine ⟨view, _, _, ⟨rfl, rfl⟩, rfl, rfl, hends.resolve_right fun hfails => ?_⟩
  exact (hfails _ List.mem_cons_self).not_endsWell ⟨4, ∅, rfl⟩

/-! ### Definitions that no check has seen -/

/-- The definitions of `p` and `q` stand in what is bound to `x` and to `y`, where the check of the
composition does not look for them.  They leave `p` and `q` bound to each other. -/
def circleOfTwo : Expr :=
  .combine .sequence
    (.combine .sequence
      (.combine .sequence
        (.combine .sequence (.define ⟨"x"⟩ (.define ⟨"p"⟩ (.read ⟨"q"⟩))) (.define ⟨"p"⟩ .empty))
        (.define ⟨"y"⟩ (.define ⟨"q"⟩ (.read ⟨"p"⟩))))
      (.define ⟨"q"⟩ .empty))
    (.combine .parallel (.read ⟨"x"⟩) (.read ⟨"y"⟩))

/-- The last definition is refused, since `a` reads `b`. -/
def refusedCircle : Expr :=
  .combine .sequence
    (.combine .sequence (.combine .sequence (.define ⟨"a"⟩ .empty) (.define ⟨"b"⟩ .empty))
      (.define ⟨"a"⟩ (.read ⟨"b"⟩)))
    (.define ⟨"b"⟩ (.read ⟨"a"⟩))

/-- After the circle of two names has been closed, the read of one of them never ends. -/
theorem circleOfTwo_neverEnds {after : View} (h : circleOfTwo.EndsWell view after)
    (hp : after.lookup ⟨"p"⟩ = some (.read ⟨"q"⟩)) (hq : after.lookup ⟨"q"⟩ = some (.read ⟨"p"⟩)) :
    (Expr.combine .sequence circleOfTwo (.read ⟨"p"⟩)).NeverEnds view := by
  refine Expr.NeverEnds.combine_right (by decide) h ?_
  refine @neverEnds_read after {⟨"p"⟩, ⟨"q"⟩} ?_ ⟨"p"⟩ (Or.inl rfl)
  rintro name (rfl | rfl)
  · exact ⟨⟨"q"⟩, Or.inr rfl, hp⟩
  · exact ⟨⟨"p"⟩, Or.inl rfl, hq⟩

/-- Of two sides that may be composed, the left one never ends and the right one fails.  If the
right one comes first then the whole fails, and otherwise it never ends. -/
theorem not_all_fail_hidden_definitions :
    ∃ left right : Expr,
      ((parse "x = (p = q); p = ; y = (q = p); q = ; (x | y); p").toOption = some left ∧
        (parse "a = ; b = ; a = b; b = a").toOption = some right) ∧
      ((base ∅).Acyclic ∧ (base ∅).allowParallel left right = .ok () ∧
        ∀ name, (base ∅).Reaches left name ∨ (base ∅).Reaches right name →
          ∀ e, (base ∅).lookup name = some e → e.DefineFree) ∧
      ((Expr.combine .sequence right left).Fails (base ∅) ∧
        (Expr.combine .sequence left right).NeverEnds (base ∅) ∧
        (Expr.combine .parallel left right).NeverEnds (base ∅)) ∧
      ¬ ((∃ after, ∀ e ∈ arrangements left right, e.EndsWell (base ∅) after) ∨
        ∀ e ∈ arrangements left right, e.Fails (base ∅)) := by
  have hallow : (base ∅).allowParallel (.combine .sequence circleOfTwo (.read ⟨"p"⟩))
      refusedCircle = .ok () := by
    decide +kernel
  have hfails : (Expr.combine .sequence refusedCircle
      (.combine .sequence circleOfTwo (.read ⟨"p"⟩))).Fails (base ∅) :=
    ⟨3, .cycle ⟨"b"⟩ ⟨"a"⟩, rfl⟩
  have hleft := @circleOfTwo_neverEnds (base ∅) _ ⟨3, ∅, rfl⟩ rfl rfl
  have hleft' := @circleOfTwo_neverEnds (overlay ∅ (base ∅)) _ ⟨3, ∅, rfl⟩ rfl rfl
  have hnever := hleft'.leftSide hallow
  refine ⟨_, refusedCircle, ⟨by decide +kernel, by decide +kernel⟩, ⟨acyclic_empty, hallow, ?_⟩,
    ⟨hfails, hleft.combine_left (by decide), hnever⟩, ?_⟩
  · intro name _ e he
    simp at he
  · rintro (⟨after, hends⟩ | hall)
    · exact hnever.not_endsWell (hends _ List.mem_cons_self)
    · exact hnever.not_fails (hall _ List.mem_cons_self)

end Roster
