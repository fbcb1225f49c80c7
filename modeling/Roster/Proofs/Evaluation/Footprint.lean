/-
**The footprint of an evaluation.**

The analysis looks at an expression once, in the view in which the evaluation is about to begin, and
reports the transitive dependencies.  The evaluation then changes the view as it goes: it reads what
it has defined, it copies old definitions into new ones, and its checks walk through bindings that
were not there when the analysis was made.  All the same it never leaves the names that the analysis
has reported.

The reason is that these names fall into two parts.  Those that the expression leads to are closed:
what is bound to them reads only names of the same part, and remains so.  Those that are only
defined on the way need not be closed, since nothing that is bound to them is looked at; it is
enough that they are all reported.

Main definition:

* `View.AgreeOn`: two views bind the names of a set alike.

Main results:

* `evaluate_agree`: **an evaluation reads nothing but the names that are reported**: views that
  agree on them give the same outcome, and still agree on them afterwards;
* `evaluate_frame`: **an evaluation writes nothing but the names that are reported**, and unbinds no
  name.
-/

import Roster.Proofs.Evaluation.Simulation

set_option relaxedAutoImplicit false
set_option autoImplicit false

namespace Roster

open View

variable {view other : View} {e : Expr}

/-! ### What is read -/

/-- Two views bind each of the given names to the same expression, or both leave it unbound. -/
def View.AgreeOn (names : NameSet) (view other : View) : Prop :=
  ∀ name ∈ names, view.lookup name = other.lookup name

/-- Views that agree on what an expression depends on are alike for its evaluation. -/
theorem View.AgreeOn.alike (h : AgreeOn (view.reached e) view other) :
    Alike (view.Reaches e) (view.Definable e) view other := by
  refine ⟨fun name hname => ?_, fun name hname => h name (mem_reached.2 (Or.inr hname))⟩
  rw [View.meaning, View.meaning, h name (mem_reached_of_reaches hname)]

/-- Where two views bind a name alike, runs that match write the same. -/
theorem Matched.writes_eq {readable definable touched : Set Name}
    {run run' : Except Stop AddressSet × View} {writes writes' : Environment}
    (h : Matched readable definable view other run run' touched writes writes') {name : Name}
    (hname : view.lookup name = other.lookup name) : writes[name]? = writes'[name]? := by
  by_cases hdefinable : name ∈ definable
  · exact h.same name hdefinable
  · refine Option.ext fun b => ?_
    rw [h.leftEffect.fresh name hdefinable, h.rightEffect.fresh name hdefinable, hname]

/-- **An evaluation reads nothing but the names that the analysis reports.**  Views that agree on
them give the same outcome within every budget, and agree on them afterwards, whatever either of
them binds elsewhere. -/
theorem evaluate_agree (hagree : AgreeOn (view.reached e) view other) (budget : ℕ) :
    (evaluate budget e view).1 = (evaluate budget e other).1 ∧
      AgreeOn (view.reached e) (evaluate budget e view).2 (evaluate budget e other).2 := by
  obtain ⟨touched, writes, writes', h⟩ := evaluate_alike budget e view other
    (view.closed_reaches e) (view.within_reaches e) hagree.alike
  refine ⟨h.result, fun name hname => ?_⟩
  rw [h.left, h.right, lookup_bindAll, lookup_bindAll, hagree name hname,
    h.writes_eq (hagree name hname)]

/-- A definition that reads a list and is read back, in a view that binds more than is reported. -/
theorem evaluate_agree_bound_elsewhere :
    AgreeOn (((base ∅).bind ⟨"x"⟩ (.read ⟨"y"⟩)).reached
        (.combine .sequence (.define ⟨"c"⟩ (.read ⟨"x"⟩)) (.read ⟨"c"⟩)))
      ((base ∅).bind ⟨"x"⟩ (.read ⟨"y"⟩))
      (((base ∅).bind ⟨"x"⟩ (.read ⟨"y"⟩)).bind ⟨"z"⟩ (.define ⟨"x"⟩ .empty)) ∧
    (evaluate 3 (.combine .sequence (.define ⟨"c"⟩ (.read ⟨"x"⟩)) (.read ⟨"c"⟩))
        ((base ∅).bind ⟨"x"⟩ (.read ⟨"y"⟩))).1 =
      (evaluate 3 (.combine .sequence (.define ⟨"c"⟩ (.read ⟨"x"⟩)) (.read ⟨"c"⟩))
        (((base ∅).bind ⟨"x"⟩ (.read ⟨"y"⟩)).bind ⟨"z"⟩ (.define ⟨"x"⟩ .empty))).1 := by
  have hagree : AgreeOn (((base ∅).bind ⟨"x"⟩ (.read ⟨"y"⟩)).reached
        (.combine .sequence (.define ⟨"c"⟩ (.read ⟨"x"⟩)) (.read ⟨"c"⟩)))
      ((base ∅).bind ⟨"x"⟩ (.read ⟨"y"⟩))
      (((base ∅).bind ⟨"x"⟩ (.read ⟨"y"⟩)).bind ⟨"z"⟩ (.define ⟨"x"⟩ .empty)) := by
    intro name hname
    rw [lookup_bind _ ⟨"z"⟩, if_neg]
    rintro rfl
    exact absurd hname (by decide +kernel)
  exact ⟨hagree, (evaluate_agree hagree 3).1⟩

/-! ### What is written -/

/-- Whatever an evaluation does, it amounts to writes of names that the analysis reports. -/
theorem exists_writes_within_reached (budget : ℕ) (e : Expr) (view : View) :
    ∃ writes, (evaluate budget e view).2 = view.bindAll writes ∧
      ∀ name b, writes[name]? = some b → name ∈ view.reached e := by
  obtain ⟨touched, writes, hafter, heffect⟩ :=
    evaluate_effect budget (view.closed_reaches e) (view.within_reaches e)
  refine ⟨writes, hafter, fun name b hb => mem_reached.2 ?_⟩
  by_cases hdefinable : name ∈ view.Definable e
  · exact Or.inr hdefinable
  · exact Or.inl (heffect.eq_empty hdefinable hb).1

/-- **An evaluation writes nothing but the names that the analysis reports.**  Every other name is
bound as before, and no name that was bound is unbound afterwards. -/
theorem evaluate_frame (budget : ℕ) (e : Expr) (view : View) :
    (∀ name, name ∉ view.reached e →
        (evaluate budget e view).2.lookup name = view.lookup name) ∧
      ∀ name, view.lookup name ≠ none → (evaluate budget e view).2.lookup name ≠ none := by
  obtain ⟨writes, hafter, hwrites⟩ := exists_writes_within_reached budget e view
  refine ⟨fun name hname => ?_, fun name hbound => ?_⟩
  · have hnone : writes[name]? = none :=
      Option.eq_none_iff_forall_ne_some.2 fun b hb => hname (hwrites name b hb)
    rw [hafter, lookup_bindAll, hnone, Option.none_or]
  · rw [hafter, lookup_bindAll, Ne, Option.or_eq_none_iff, not_and]
    exact fun _ => hbound

/-- A definition that is met through a list writes its name, and leaves the names beside it. -/
theorem evaluate_frame_hidden_definition :
    (⟨"z"⟩ : Name) ∉ ((base ∅).bind ⟨"x"⟩ (.define ⟨"y"⟩ .empty)).reached (.read ⟨"x"⟩) ∧
      (evaluate 1 (.read ⟨"x"⟩) ((base ∅).bind ⟨"x"⟩ (.define ⟨"y"⟩ .empty))).2.lookup ⟨"z"⟩ =
        ((base ∅).bind ⟨"x"⟩ (.define ⟨"y"⟩ .empty)).lookup ⟨"z"⟩ ∧
      (evaluate 1 (.read ⟨"x"⟩) ((base ∅).bind ⟨"x"⟩ (.define ⟨"y"⟩ .empty))).2.lookup ⟨"x"⟩ ≠
        none := by
  have hfresh : (⟨"z"⟩ : Name) ∉
      ((base ∅).bind ⟨"x"⟩ (.define ⟨"y"⟩ .empty)).reached (.read ⟨"x"⟩) := by
    decide +kernel
  exact ⟨hfresh, (evaluate_frame _ _ _).1 _ hfresh, (evaluate_frame _ _ _).2 _ (by decide +kernel)⟩

end Roster
