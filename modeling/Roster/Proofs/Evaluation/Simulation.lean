/-
**Evaluations in views alike.**

Two views may differ in much that an evaluation never sees: in names that it neither reads nor
defines, in how the bindings are spread over overlays, and in whether a name that it reads is bound
to the empty list or not bound at all.  This module shows that an evaluation does the same in both.
All that later modules say about what a single evaluation reads and writes comes from the one
induction made here.

The difference between unbound names and names bound to the empty list is only harmless for names
that cannot be defined.  A composition commits the writes of both of its sides, and the first read
of an unbound name is such a write: on the right side it would undo a definition on the left.

Main definitions:

* `Matched`, `Matching`: two runs with the same result, whose effects agree on the definable names.

Main results:

* `evaluate_alike`: **evaluations in views alike match**;
* `evaluate_effect`, `sideWrites_effect`: a single evaluation, or a side of a composition, has an
  effect;
* `evaluate_without_overlay`: **a side writes what it would write without an overlay**.
-/

import Roster.Proofs.Evaluation.Effects
import Roster.Proofs.Evaluation.Equations

set_option relaxedAutoImplicit false
set_option autoImplicit false

namespace Roster

open View

/-! ### Runs that match -/

section

variable {readable definable : Set Name} {view other : View}

/-- Two runs with the same result whose effects, on `view` and on `other`, agree on the definable
names and touch the same names besides. -/
structure Matched (readable definable : Set Name) (view other : View)
    (run run' : Except Stop AddressSet × View) (touched : Set Name)
    (writes writes' : Environment) : Prop where
  result : run.1 = run'.1
  left : run.2 = view.bindAll writes
  right : run'.2 = other.bindAll writes'
  leftEffect : Effect readable definable touched view writes
  rightEffect : Effect readable definable touched other writes'
  same : ∀ name ∈ definable, writes[name]? = writes'[name]?

/-- Two runs match with some effects. -/
def Matching (readable definable : Set Name) (view other : View)
    (run run' : Except Stop AddressSet × View) : Prop :=
  ∃ touched writes writes', Matched readable definable view other run run' touched writes writes'

/-- Runs that change nothing. -/
theorem Matching.unchanged (result : Except Stop AddressSet) :
    Matching readable definable view other (result, view) (result, other) :=
  ⟨∅, ∅, ∅, rfl, by simp, by simp, Effect.none view, Effect.none other, fun _ _ => rfl⟩

/-- Runs that go on after others. -/
theorem Matching.trans {run run' : Except Stop AddressSet × View} {touched : Set Name}
    {writes writes' : Environment}
    (h : Matched readable definable view other run run' touched writes writes')
    {next next' : Except Stop AddressSet × View}
    (hnext : Matching readable definable (view.bindAll writes) (other.bindAll writes') next next') :
    Matching readable definable view other next next' := by
  obtain ⟨touched', more, more', hmore⟩ := hnext
  refine ⟨touched ∪ touched', writes ∪ more, writes' ∪ more', hmore.result, ?_, ?_,
    h.leftEffect.trans hmore.leftEffect, h.rightEffect.trans hmore.rightEffect, ?_⟩
  · rw [hmore.left, bindAll_bindAll]
  · rw [hmore.right, bindAll_bindAll]
  · intro name hname
    rw [Std.ExtTreeMap.getElem?_union, Std.ExtTreeMap.getElem?_union, h.same name hname,
      hmore.same name hname]

theorem Matching.symm {run run' : Except Stop AddressSet × View}
    (h : Matching readable definable view other run run') :
    Matching readable definable other view run' run := by
  obtain ⟨touched, writes, writes', h⟩ := h
  exact ⟨touched, writes', writes, h.result.symm, h.right, h.left, h.rightEffect, h.leftEffect,
    fun name hname => (h.same name hname).symm⟩

/-! ### Reads -/

/-- The read of a name that is unbound in both views. -/
theorem matching_read_unbound {budget : ℕ} {name : Name} (hname : name ∈ readable)
    (hview : view.lookup name = none) (hother : other.lookup name = none) :
    Matching readable definable view other (evaluate (budget + 1) (.read name) view)
      (evaluate (budget + 1) (.read name) other) := by
  rw [evaluate_read_of_none hview, evaluate_read_of_none hother]
  refine ⟨{name}, (∅ : Environment).insert name .empty, (∅ : Environment).insert name .empty, rfl,
    ?_, ?_, Effect.first_read hname hview, Effect.first_read hname hother, fun _ _ => rfl⟩
  · rw [← bind_bindAll, bindAll_empty]
  · rw [← bind_bindAll, bindAll_empty]

/-- The read of a name that is unbound in one view and bound to the empty list in the other. -/
theorem matching_read_of_none {budget : ℕ} {name : Name} (hname : name ∈ readable)
    (hdefinable : name ∉ definable) (hview : view.lookup name = none)
    (hother : other.lookup name = some .empty) :
    Matching readable definable view other (evaluate (budget + 1) (.read name) view)
      (evaluate (budget + 1) (.read name) other) := by
  rw [evaluate_read_of_none hview, evaluate_read_of_some hother, evaluate_empty]
  refine ⟨{name}, (∅ : Environment).insert name .empty, ∅, rfl, ?_, by simp,
    Effect.first_read hname hview, Effect.read_bound hname (by simp [hother]), ?_⟩
  · rw [← bind_bindAll, bindAll_empty]
  · intro target htarget
    have hne : name ≠ target := fun heq => hdefinable (heq ▸ htarget)
    simp [hne]

theorem matching_read {budget : ℕ} {name : Name} (hname : name ∈ readable)
    (halike : Alike readable definable view other)
    (h : ∀ e, view.lookup name = some e → other.lookup name = some e →
      Matching readable definable view other (evaluate budget e view) (evaluate budget e other)) :
    Matching readable definable view other (evaluate (budget + 1) (.read name) view)
      (evaluate (budget + 1) (.read name) other) := by
  have hmeaning := halike.meaning name hname
  cases hview : view.lookup name with
  | none =>
      cases hother : other.lookup name with
      | none => exact matching_read_unbound hname hview hother
      | some e =>
          -- a name that means the empty list may be bound to it in one view only
          rw [meaning_of_unbound hview, meaning_of_lookup hother] at hmeaning
          subst hmeaning
          refine matching_read_of_none hname (fun hd => ?_) hview hother
          rw [← halike.lookup name hd, hview] at hother
          cases hother
  | some e =>
      cases hother : other.lookup name with
      | none =>
          rw [meaning_of_lookup hview, meaning_of_unbound hother] at hmeaning
          subst hmeaning
          refine (matching_read_of_none hname (fun hd => ?_) hother hview).symm
          rw [halike.lookup name hd, hother] at hview
          cases hview
      | some e' =>
          rw [meaning_of_lookup hview, meaning_of_lookup hother] at hmeaning
          subst hmeaning
          rw [evaluate_read_of_some hview, evaluate_read_of_some hother]
          exact h e hview hother

/-! ### Combinations -/

theorem matching_combine {budget : ℕ} {op : Operator} {left right : Expr} (hop : op ≠ .parallel)
    (hclosed : view.Closed readable definable) (halike : Alike readable definable view other)
    (hleft : Matching readable definable view other (evaluate budget left view)
      (evaluate budget left other))
    (hright : ∀ view other, view.Closed readable definable →
      Alike readable definable view other →
        Matching readable definable view other (evaluate budget right view)
          (evaluate budget right other)) :
    Matching readable definable view other (evaluate budget (.combine op left right) view)
      (evaluate budget (.combine op left right) other) := by
  obtain ⟨touched, writes, writes', hleft⟩ := hleft
  cases hview : evaluate budget left view with
  | mk result middle =>
      cases hother : evaluate budget left other with
      | mk result' middle' =>
          rw [hview, hother] at hleft
          obtain rfl : result = result' := hleft.result
          cases result with
          | error stop =>
              rw [evaluate_combine_of_error hop hview, evaluate_combine_of_error hop hother]
              exact ⟨touched, writes, writes', hleft⟩
          | ok first =>
              obtain rfl : middle = view.bindAll writes := hleft.left
              obtain rfl : middle' = other.bindAll writes' := hleft.right
              obtain ⟨touched', more, more', hmore⟩ :=
                hright _ _ (hclosed.after hleft.leftEffect)
                  (halike.after hleft.leftEffect hleft.rightEffect hleft.same)
              rw [evaluate_combine_of_ok hop hview, evaluate_combine_of_ok hop hother, hmore.result]
              exact Matching.trans hleft ⟨touched', more, more', rfl, hmore.left, hmore.right,
                hmore.leftEffect, hmore.rightEffect, hmore.same⟩

/-- A side of a composition stops in both views for the same reason, or writes in both. -/
theorem Matching.sideWrites {budget : ℕ} {side : Expr}
    (h : Matching readable definable (overlay ∅ view) (overlay ∅ other)
      (evaluate budget side (overlay ∅ view)) (evaluate budget side (overlay ∅ other))) :
    (∀ stop, sideWrites budget side view = .error stop ↔
        sideWrites budget side other = .error stop) ∧
      ∀ writes, sideWrites budget side view = .ok writes → ∃ touched writes',
        sideWrites budget side other = .ok writes' ∧
        Effect readable definable touched view writes ∧
        Effect readable definable touched other writes' ∧
        ∀ name ∈ definable, writes[name]? = writes'[name]? := by
  obtain ⟨touched, writes, writes', h⟩ := h
  refine ⟨fun stop => ?_, fun written hwritten => ?_⟩
  · rw [sideWrites_eq_error_iff, sideWrites_eq_error_iff, h.result]
  · obtain ⟨addresses, after, hview, rfl⟩ := sideWrites_eq_ok_iff.1 hwritten
    cases hother : evaluate budget side (overlay ∅ other) with
    | mk result' after' =>
        rw [hview, hother] at h
        obtain rfl : .ok addresses = result' := h.result
        obtain rfl : after = (overlay ∅ view).bindAll writes := h.left
        obtain rfl : after' = (overlay ∅ other).bindAll writes' := h.right
        rw [top_bindAll_overlay_empty]
        refine ⟨touched, writes', ?_, h.leftEffect.congr (lookup_overlay_empty view),
          h.rightEffect.congr (lookup_overlay_empty other), h.same⟩
        rw [sideWrites_of_ok hother, top_bindAll_overlay_empty]

theorem matching_parallel {budget : ℕ} {left right : Expr}
    (hallow : view.allowParallel left right = other.allowParallel left right)
    (hleft : Matching readable definable (overlay ∅ view) (overlay ∅ other)
      (evaluate budget left (overlay ∅ view)) (evaluate budget left (overlay ∅ other)))
    (hright : Matching readable definable (overlay ∅ view) (overlay ∅ other)
      (evaluate budget right (overlay ∅ view)) (evaluate budget right (overlay ∅ other))) :
    Matching readable definable view other
      (evaluate budget (.combine .parallel left right) view)
      (evaluate budget (.combine .parallel left right) other) := by
  cases hview : view.allowParallel left right with
  | error error =>
      rw [evaluate_parallel_of_refused hview,
        evaluate_parallel_of_refused (hallow.symm.trans hview)]
      exact Matching.unchanged _
  | ok _ =>
      have hother := hallow.symm.trans hview
      cases hjoin : EvalM.join (sideWrites budget left view) (sideWrites budget right view) with
      | error stop =>
          rw [evaluate_parallel_of_error hview hjoin, evaluate_parallel_of_error hother
            (EvalM.join_eq_error_congr hleft.sideWrites.1 hright.sideWrites.1 hjoin)]
          exact Matching.unchanged _
      | ok writes =>
          obtain ⟨hl, hr⟩ := EvalM.join_eq_ok_iff.1 hjoin
          obtain ⟨touched, writes', hl', heffect, heffect', hsame⟩ := hleft.sideWrites.2 _ hl
          obtain ⟨touched', more', hr', hmore, hmore', hsame'⟩ := hright.sideWrites.2 _ hr
          rw [evaluate_parallel_of_ok hview hl hr, evaluate_parallel_of_ok hother hl' hr',
            bindAll_bindAll, bindAll_bindAll]
          refine ⟨touched ∪ touched', writes.1 ∪ writes.2, writes' ∪ more', rfl, rfl, rfl,
            heffect.union hmore, heffect'.union hmore', fun name hname => ?_⟩
          rw [Std.ExtTreeMap.getElem?_union, Std.ExtTreeMap.getElem?_union, hsame name hname,
            hsame' name hname]

/-! ### Definitions -/

/-- The snapshot of an expression within the sets is within them. -/
theorem View.Closed.within_snapshot (hview : view.Closed readable definable) {name : Name}
    {body snapshot : Expr} (hbody : body.Within readable definable)
    (h : view.snapshot name body = .ok snapshot) : snapshot.Within readable definable := by
  rw [← (snapshot_eq_ok_iff.1 h).2]
  exact hbody.substitute fun hname => hview.meaning (hbody.reads name hname)

theorem matching_define {budget : ℕ} {name : Name} {body : Expr} (hname : name ∈ definable)
    (hbody : body.Within readable definable) (hclosed : view.Closed readable definable)
    (halike : Alike readable definable view other)
    (h : Matching readable definable view other (evaluate budget body view)
      (evaluate budget body other)) :
    Matching readable definable view other (evaluate budget (.define name body) view)
      (evaluate budget (.define name body) other) := by
  have hsnap : view.snapshot name body = other.snapshot name body :=
    snapshot_congr hclosed halike.meaning hbody.reads name
  cases hview : view.snapshot name body with
  | error error =>
      rw [evaluate_define_of_refused hview, evaluate_define_of_refused (hsnap.symm.trans hview)]
      exact Matching.unchanged _
  | ok snapshot =>
      have hother := hsnap.symm.trans hview
      have hsnapshot := hclosed.within_snapshot hbody hview
      obtain ⟨touched, writes, writes', h⟩ := h
      cases hrun : evaluate budget body view with
      | mk result after =>
          cases hrun' : evaluate budget body other with
          | mk result' after' =>
              rw [hrun, hrun'] at h
              obtain rfl : result = result' := h.result
              cases result with
              | error stop =>
                  rw [evaluate_define_of_error hview hrun, evaluate_define_of_error hother hrun']
                  exact ⟨touched, writes, writes', h⟩
              | ok addresses =>
                  obtain rfl : after = view.bindAll writes := h.left
                  obtain rfl : after' = other.bindAll writes' := h.right
                  have hallow := allowBinding_congr (hclosed.after h.leftEffect)
                    (halike.after h.leftEffect h.rightEffect h.same).meaning hsnapshot.reads name
                  cases hbind : (view.bindAll writes).allowBinding name snapshot with
                  | error error =>
                      rw [evaluate_define_of_recheck hview hrun hbind,
                        evaluate_define_of_recheck hother hrun' (hallow.symm.trans hbind)]
                      exact ⟨touched, writes, writes', rfl, rfl, rfl, h.leftEffect, h.rightEffect,
                        h.same⟩
                  | ok _ =>
                      rw [evaluate_define_of_ok hview hrun hbind,
                        evaluate_define_of_ok hother hrun' (hallow.symm.trans hbind),
                        bind_bindAll, bind_bindAll]
                      refine ⟨touched, writes.insert name snapshot, writes'.insert name snapshot,
                        rfl, rfl, rfl, h.leftEffect.insert hname hsnapshot,
                        h.rightEffect.insert hname hsnapshot, fun target htarget => ?_⟩
                      rw [Std.ExtTreeMap.getElem?_insert, Std.ExtTreeMap.getElem?_insert,
                        h.same target htarget]

/-! ### The induction -/

/-- **Evaluations in views alike match.** -/
theorem evaluate_alike : ∀ (budget : ℕ) (e : Expr) (view other : View),
    view.Closed readable definable → e.Within readable definable →
      Alike readable definable view other →
        Matching readable definable view other (evaluate budget e view)
          (evaluate budget e other) := by
  refine evaluation_induction ?_ ?_ ?_ ?_ ?_ ?_ ?_
  · intro budget text view other _ _ _
    exact Matching.unchanged _
  · intro budget view other _ _ _
    exact Matching.unchanged _
  · intro name view other _ _ _
    exact Matching.unchanged _
  · intro budget name ih view other hclosed hwithin halike
    have hname : name ∈ readable := Expr.within_read.1 hwithin
    exact matching_read hname halike fun e he _ =>
      ih e view other hclosed (hclosed name hname e he) halike
  · intro budget op left right hop ihl ihr view other hclosed hwithin halike
    obtain ⟨hl, hr⟩ := Expr.within_combine.1 hwithin
    exact matching_combine hop hclosed halike (ihl view other hclosed hl halike)
      fun view other hclosed halike => ihr view other hclosed hr halike
  · intro budget left right ihl ihr view other hclosed hwithin halike
    obtain ⟨hl, hr⟩ := Expr.within_combine.1 hwithin
    exact matching_parallel (allowParallel_congr hclosed halike.meaning hl.reads hr.reads)
      (ihl _ _ hclosed.overlay hl halike.overlay) (ihr _ _ hclosed.overlay hr halike.overlay)
  · intro budget name body ih view other hclosed hwithin halike
    obtain ⟨hname, hbody⟩ := Expr.within_define.1 hwithin
    exact matching_define hname hbody hclosed halike (ih view other hclosed hbody halike)

/-! ### Consequences -/

/-- **A single evaluation has an effect.** -/
theorem evaluate_effect (budget : ℕ) {e : Expr} (hclosed : view.Closed readable definable)
    (hwithin : e.Within readable definable) :
    ∃ touched writes, (evaluate budget e view).2 = view.bindAll writes ∧
      Effect readable definable touched view writes := by
  obtain ⟨touched, writes, _, h⟩ :=
    evaluate_alike budget e view view hclosed hwithin (Alike.refl view)
  exact ⟨touched, writes, h.left, h.leftEffect⟩

/-- A closed view is closed after an evaluation within the sets. -/
theorem View.Closed.evaluate (hclosed : view.Closed readable definable) (budget : ℕ) {e : Expr}
    (hwithin : e.Within readable definable) :
    (evaluate budget e view).2.Closed readable definable := by
  obtain ⟨touched, writes, hafter, heffect⟩ := evaluate_effect budget hclosed hwithin
  rw [hafter]
  exact hclosed.after heffect

/-- The writes of a side of a composition are an effect on the view of the composition. -/
theorem sideWrites_effect {budget : ℕ} {side : Expr} (hclosed : view.Closed readable definable)
    (hwithin : side.Within readable definable) {writes : Environment}
    (h : sideWrites budget side view = .ok writes) :
    ∃ touched, Effect readable definable touched view writes := by
  have hmatching := evaluate_alike budget side _ _ hclosed.overlay hwithin (Alike.refl _)
  obtain ⟨touched, _, -, heffect, -⟩ := hmatching.sideWrites.2 writes h
  exact ⟨touched, heffect⟩

/-- An overlay makes no difference: evaluated in the view itself, a side has the same result and
writes the same. -/
theorem evaluate_without_overlay (budget : ℕ) (side : Expr) (view : View) :
    ∃ result writes, evaluate budget side view = (result, view.bindAll writes) ∧
      evaluate budget side (overlay ∅ view) = (result, (overlay ∅ view).bindAll writes) := by
  obtain ⟨touched, writes, writes', h⟩ := evaluate_alike budget side view (overlay ∅ view)
    (closed_univ view) side.within_univ
    (Alike.of_lookup fun name => (lookup_overlay_empty view name).symm)
  obtain rfl : writes = writes' :=
    Std.ExtTreeMap.ext_getElem? fun name => h.same name (Set.mem_univ name)
  exact ⟨(evaluate budget side view).1, writes, Prod.ext rfl h.left,
    Prod.ext h.result.symm h.right⟩

/-- A side of a composition that ends well has done nothing but write, and would have written the
same without an overlay. -/
theorem evaluate_of_sideWrites {budget : ℕ} {side : Expr} {writes : Environment}
    (h : sideWrites budget side view = .ok writes) :
    ∃ addresses, evaluate budget side view = (.ok addresses, view.bindAll writes) ∧
      evaluate budget side (overlay ∅ view) = (.ok addresses, (overlay ∅ view).bindAll writes) := by
  obtain ⟨result, writes', hrun, hoverlay⟩ := evaluate_without_overlay budget side view
  obtain ⟨addresses, after, hside, rfl⟩ := sideWrites_eq_ok_iff.1 h
  rw [hoverlay] at hside
  obtain ⟨rfl, rfl⟩ := Prod.mk.inj hside
  rw [top_bindAll_overlay_empty]
  exact ⟨addresses, hrun, hoverlay⟩

/-- A side that stops in its overlay also stops without one. -/
theorem evaluate_of_sideWrites_error {budget : ℕ} {side : Expr} {stop : Stop}
    (h : sideWrites budget side view = .error stop) :
    (evaluate budget side view).1 = .error stop := by
  obtain ⟨result, writes, hrun, hoverlay⟩ := evaluate_without_overlay budget side view
  rw [sideWrites_eq_error_iff, hoverlay] at h
  rw [hrun]
  exact h

end

end Roster
