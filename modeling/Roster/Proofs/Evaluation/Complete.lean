/-
**No binding mentions an unbound name.**

What a definition binds is not the body that it has evaluated but a snapshot, and the snapshot holds
pieces of older definitions.  All the same, every name in it is bound by then.  The names in the
body are bound because the body has been evaluated to its end: reading a name binds it, and so does
defining it.  The names in the older pieces were bound when these were bound themselves, and nothing
is ever unbound.

An evaluation that stops half-way has only made bindings that were complete when they were made.
The sides of a composition are complete on their own, each on top of the view that they share, so
that their writes may be committed in turn; and if a side stops, neither of them leaves anything.

Main definitions:

* `View.bound`: the names that a view binds;
* `View.Complete`: every name in a binding is bound.

Main results:

* `bound_subset_evaluate`: no name is ever unbound;
* `evaluate_complete`: **an evaluation keeps a view complete**, and if it ends well all names of
  the expression are bound;
* `CleanRun.not_exhausted_of_bound`: the number of bindings is budget enough within bound names;
* `complete_after_runs`: **evaluations from the empty environment on leave a complete view**.
-/

import Roster.Proofs.Evaluation.Termination

set_option relaxedAutoImplicit false
set_option autoImplicit false

namespace Roster

open View

namespace View

/-! ### Bound names -/

/-- The names that a view binds. -/
def bound (view : View) : Set Name := {name | view.lookup name ≠ none}

theorem mem_bound_of_lookup {view : View} {name : Name} {e : Expr}
    (h : view.lookup name = some e) : name ∈ view.bound := by
  intro hnone
  rw [h] at hnone
  cases hnone

/-- The names that an environment binds are its finitely many keys. -/
theorem mem_bound_base {env : Environment} {name : Name} :
    name ∈ (base env).bound ↔ name ∈ env.keys.toFinset := by
  rw [List.mem_toFinset, Std.ExtTreeMap.mem_keys, ← Std.ExtTreeMap.isSome_getElem?_iff_mem,
    Option.isSome_iff_ne_none]
  rfl

theorem mem_bound_bind {view : View} {name other : Name} {e : Expr} :
    other ∈ (view.bind name e).bound ↔ other = name ∨ other ∈ view.bound := by
  change (view.bind name e).lookup other ≠ none ↔ other = name ∨ view.lookup other ≠ none
  rw [lookup_bind]
  by_cases hother : name = other
  · simp [hother]
  · simp [hother, Ne.symm hother]

theorem bound_subset_bindAll (view : View) (writes : Environment) :
    view.bound ⊆ (view.bindAll writes).bound := by
  intro name hname hnone
  rw [lookup_bindAll, Option.or_eq_none_iff] at hnone
  exact hname hnone.2

/-- What is bound after the right writes alone is also bound after both. -/
theorem bound_bindAll_subset (view : View) (left right : Environment) :
    (view.bindAll right).bound ⊆ ((view.bindAll left).bindAll right).bound := by
  intro name hname hnone
  refine hname ?_
  rw [lookup_bindAll, Option.or_eq_none_iff, lookup_bindAll, Option.or_eq_none_iff] at hnone
  rw [lookup_bindAll, hnone.1, hnone.2.2, Option.none_or]

/-! ### Complete views -/

/-- Every name that is read or defined in what is bound to some name is itself bound. -/
def Complete (view : View) : Prop :=
  ∀ name e, view.lookup name = some e → e.Within view.bound view.bound

theorem complete_empty : (base ∅).Complete := by
  intro name e he
  simp at he

theorem Complete.meaning {view : View} (h : view.Complete) (name : Name) :
    (view.meaning name).Within view.bound view.bound := by
  cases he : view.lookup name with
  | none => simp [meaning_of_unbound he]
  | some e =>
      rw [meaning_of_lookup he]
      exact h name e he

/-- One more binding, all names of which are bound. -/
theorem Complete.bind {view : View} (h : view.Complete) {name : Name} {e : Expr}
    (he : e.Within view.bound view.bound) : (view.bind name e).Complete := by
  have hgrows : view.bound ⊆ (view.bind name e).bound := fun other hother =>
    mem_bound_bind.2 (Or.inr hother)
  intro other b hb
  rw [lookup_bind] at hb
  split at hb
  · cases hb
    exact he.mono hgrows hgrows
  · exact (h other b hb).mono hgrows hgrows

/-- The commit of two sides each of which has left a complete view. -/
theorem Complete.commit {view : View} {left right : Environment}
    (hleft : (view.bindAll left).Complete) (hright : (view.bindAll right).Complete) :
    ((view.bindAll left).bindAll right).Complete := by
  intro name e he
  rw [lookup_bindAll, Option.or_eq_some_iff] at he
  rcases he with he | ⟨-, he⟩
  · have hwithin := hright name e (by rw [lookup_bindAll, he, Option.some_or])
    exact hwithin.mono (bound_bindAll_subset view left right) (bound_bindAll_subset view left right)
  · have hgrows := bound_subset_bindAll (view.bindAll left) right
    exact (hleft name e he).mono hgrows hgrows

end View

/-! ### Evaluation -/

/-- No evaluation unbinds a name. -/
theorem bound_subset_evaluate (budget : ℕ) (e : Expr) (view : View) :
    view.bound ⊆ (evaluate budget e view).2.bound := by
  obtain ⟨touched, writes, hafter, -⟩ :=
    evaluate_effect budget (view.closed_univ) (e.within_univ)
  rw [hafter]
  exact bound_subset_bindAll view writes

/-- **An evaluation keeps a view complete.**  If it ends well, all names of the expression are bound
afterwards. -/
theorem evaluate_complete : ∀ (budget : ℕ) (e : Expr) (view : View), view.Complete →
    (evaluate budget e view).2.Complete ∧
      ∀ addresses after, evaluate budget e view = (.ok addresses, after) →
        e.Within after.bound after.bound := by
  refine evaluation_induction ?_ ?_ ?_ ?_ ?_ ?_ ?_
  · intro budget text view hview
    exact ⟨hview, fun _ _ _ => Expr.within_address text⟩
  · intro budget view hview
    exact ⟨hview, fun _ _ _ => Expr.within_empty⟩
  · intro name view hview
    refine ⟨hview, fun _ _ hrun => ?_⟩
    cases hrun
  · intro budget name ih view hview
    cases he : view.lookup name with
    | none =>
        rw [evaluate_read_of_none he]
        refine ⟨hview.bind Expr.within_empty, fun _ _ hrun => ?_⟩
        cases hrun
        exact Expr.within_read.2 (mem_bound_bind.2 (Or.inl rfl))
    | some e =>
        rw [evaluate_read_of_some he]
        refine ⟨(ih e view hview).1, fun _ after hrun => Expr.within_read.2 ?_⟩
        have hgrows := bound_subset_evaluate budget e view (mem_bound_of_lookup he)
        rwa [hrun] at hgrows
  · intro budget op left right hop ihl ihr view hview
    obtain ⟨hcomplete, hbound⟩ := ihl view hview
    obtain ⟨stop, after, hrun, hall⟩ | ⟨first, middle, hrun, hall⟩ :=
      evaluate_combine_cases hop budget left right view
    · rw [hrun] at hcomplete
      rw [hall]
      refine ⟨hcomplete, fun _ _ hok => ?_⟩
      cases hok
    · rw [hrun] at hcomplete
      obtain ⟨hcomplete', hbound'⟩ := ihr middle hcomplete
      have hgrows := bound_subset_evaluate budget right middle
      rw [hall]
      refine ⟨hcomplete', fun addresses after hok => Expr.within_combine.2 ?_⟩
      cases hright : evaluate budget right middle with
      | mk result last =>
          rw [hright] at hok hgrows
          cases result with
          | error stop => cases hok
          | ok second =>
              cases hok
              exact ⟨(hbound first middle hrun).mono hgrows hgrows, hbound' second _ hright⟩
  · intro budget left right ihl ihr view hview
    obtain ⟨error, -, hall⟩ | ⟨-, ⟨stop, -, hall⟩ | ⟨leftWrites, rightWrites, hl, hr, hall⟩⟩ :=
      evaluate_parallel_cases budget left right view
    · rw [hall]
      refine ⟨hview, fun _ _ hok => ?_⟩
      cases hok
    · rw [hall]
      refine ⟨hview, fun _ _ hok => ?_⟩
      cases hok
    · -- each side would have written the same in the view itself
      obtain ⟨first, hleft, -⟩ := evaluate_of_sideWrites hl
      obtain ⟨second, hright, -⟩ := evaluate_of_sideWrites hr
      obtain ⟨hcomplete, hbound⟩ := ihl view hview
      obtain ⟨hcomplete', hbound'⟩ := ihr view hview
      rw [hleft] at hcomplete
      rw [hright] at hcomplete'
      rw [hall]
      refine ⟨hcomplete.commit hcomplete', fun _ _ hok => Expr.within_combine.2 ?_⟩
      cases hok
      have hgrows := bound_subset_bindAll (view.bindAll leftWrites) rightWrites
      have hgrows' := bound_bindAll_subset view leftWrites rightWrites
      exact ⟨(hbound _ _ hleft).mono hgrows hgrows, (hbound' _ _ hright).mono hgrows' hgrows'⟩
  · intro budget name body ih view hview
    obtain ⟨hcomplete, hbound⟩ := ih view hview
    obtain ⟨error, -, hall⟩ | ⟨snapshot, hsnapshot, hcases⟩ :=
      evaluate_define_cases budget name body view
    · rw [hall]
      refine ⟨hview, fun _ _ hok => ?_⟩
      cases hok
    · obtain ⟨stop, after, hrun, hall⟩ |
        ⟨addresses, after, hrun, ⟨error, -, hall⟩ | ⟨-, hall⟩⟩ := hcases
      · rw [hrun] at hcomplete
        rw [hall]
        refine ⟨hcomplete, fun _ _ hok => ?_⟩
        cases hok
      · rw [hrun] at hcomplete
        rw [hall]
        refine ⟨hcomplete, fun _ _ hok => ?_⟩
        cases hok
      · have hgrows := bound_subset_evaluate budget body view
        rw [hrun] at hcomplete hgrows
        -- the snapshot holds names of the body and of what was bound to the name before
        have hwithin : snapshot.Within after.bound after.bound := by
          rw [← (snapshot_eq_ok_iff.1 hsnapshot).2]
          exact (hbound addresses after hrun).substitute fun _ =>
            (hview.meaning name).mono hgrows hgrows
        have hgrows' : after.bound ⊆ (after.bind name snapshot).bound := fun other hother =>
          mem_bound_bind.2 (Or.inr hother)
        rw [hall]
        refine ⟨hcomplete.bind hwithin, fun _ _ hok => Expr.within_define.2 ?_⟩
        cases hok
        exact ⟨mem_bound_bind.2 (Or.inl rfl),
          (hbound addresses after hrun).mono hgrows' hgrows'⟩

/-- The number of bindings of an environment is budget enough for a clean run that stays within the
names that are bound in it. -/
theorem CleanRun.not_exhausted_of_bound {env : Environment} {view : View} {e : Expr} {budget : ℕ}
    {definable : Set Name} (hclean : CleanRun budget e view) (hview : view.Acyclic)
    (hclosed : view.Closed (base env).bound definable)
    (hwithin : e.Within (base env).bound definable) (hbudget : env.size ≤ budget) :
    (evaluate budget e view).1 ≠ .error .exhausted := by
  have hcard : env.keys.toFinset.card ≤ env.size :=
    (List.toFinset_card_le _).trans_eq Std.ExtTreeMap.length_keys
  refine CleanRun.not_exhausted_within budget e view env.keys.toFinset (hcard.trans hbudget) ?_
    (fun name hname => mem_bound_base.1 (hwithin.reads name hname)) hview hclean
  intro name hname b hb
  have hb := hclosed name (mem_bound_base.2 hname) b hb
  exact ⟨fun other hother => mem_bound_base.1 (hb.reads other hother), by simp⟩

/-- Evaluations in a row keep a view complete, also if some of them fail. -/
theorem View.Complete.after_runs {view : View} (hview : view.Complete) (runs : List (ℕ × Expr)) :
    (viewAfter runs view).Complete := by
  induction runs generalizing view with
  | nil => exact hview
  | cons run rest ih => exact ih (evaluate_complete run.1 run.2 view hview).1

/-- **Evaluations from the empty environment on leave a complete view**: whichever expressions are
evaluated one after the other, and whether each of them ends well, fails or runs out of its budget,
every name that occurs in a binding, as a read or as the name of a definition, is bound. -/
theorem complete_after_runs (runs : List (ℕ × Expr)) : (viewAfter runs (.base ∅)).Complete :=
  complete_empty.after_runs runs

/-- A definition that is refused after its body has been evaluated leaves the bindings of the body,
and what they read is bound. -/
example : (viewAfter [(2, .define ⟨"a"⟩ (.combine .union (.read ⟨"b"⟩)
    (.define ⟨"b"⟩ (.combine .union (.read ⟨"a"⟩) (.read ⟨"c"⟩)))))] (.base ∅)).flatten.keys =
      [⟨"a"⟩, ⟨"b"⟩, ⟨"c"⟩] := by
  decide +kernel

end Roster
