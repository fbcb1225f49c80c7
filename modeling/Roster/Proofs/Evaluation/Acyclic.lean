/-
**Evaluation keeps a view free of loops.**

A definition is bound only if its snapshot leads to no name that leads back, as seen in the view in
which it is bound.  So no definition closes a loop, however much the body has changed in between.

A composition is different, since it commits bindings that were never checked together.  The
argument is about the names that the left side leads to.  The right side defines none of them, and
so their bindings after the commit are those in the view of the left side.  Such a name leads only
to others of the kind, so that a loop through one of them would be a loop in the view of the left
side.  The same holds for the right side.  What remains is a loop that avoids the names that either
side leads to, and its bindings are those from before.

Main results:

* `acyclic_of_closed`: a relation without loops on a closed set and outside of it has no loops;
* `View.Acyclic.bind`: one more binding;
* `View.Acyclic.commit`: a clean commit;
* `acyclic_after_clean_runs`: **evaluations with clean commits leave no loops**.
-/

import Roster.Proofs.Evaluation.Commits
import Roster.Proofs.Evaluation.Simulation

set_option relaxedAutoImplicit false
set_option autoImplicit false

namespace Roster

open Relation

/-! ### Loops and closed sets -/

section

variable {α : Type} {r inside outside : α → α → Prop} {S : Set α}

theorem transGen_of_mem_closed (hclosed : ∀ a ∈ S, ∀ b, r a b → inside a b ∧ b ∈ S) {a b : α}
    (ha : a ∈ S) (h : TransGen r a b) : TransGen inside a b ∧ b ∈ S := by
  induction h with
  | single h => exact ⟨TransGen.single (hclosed a ha _ h).1, (hclosed a ha _ h).2⟩
  | tail _ hstep ih => exact ⟨ih.1.tail (hclosed _ ih.2 _ hstep).1, (hclosed _ ih.2 _ hstep).2⟩

/-- A path that ends outside of a closed set has never been inside. -/
theorem transGen_of_not_mem_closed (hclosed : ∀ a ∈ S, ∀ b, r a b → inside a b ∧ b ∈ S)
    (houtside : ∀ a ∉ S, ∀ b ∉ S, r a b → outside a b) {a b : α} (h : TransGen r a b)
    (ha : a ∉ S) (hb : b ∉ S) : TransGen outside a b := by
  induction h with
  | single h => exact TransGen.single (houtside a ha _ hb h)
  | @tail c d _ hstep ih =>
      have hc : c ∉ S := fun hc => hb (hclosed c hc d hstep).2
      exact (ih hc).tail (houtside c hc d hb hstep)

/-- A relation that has no loops on a closed set, nor outside of it, has no loops. -/
theorem acyclic_of_closed (hclosed : ∀ a ∈ S, ∀ b, r a b → inside a b ∧ b ∈ S)
    (houtside : ∀ a ∉ S, ∀ b ∉ S, r a b → outside a b) (hin : ∀ a, ¬ TransGen inside a a)
    (hout : ∀ a, ¬ TransGen outside a a) (a : α) : ¬ TransGen r a a := by
  intro h
  by_cases ha : a ∈ S
  · exact hin a (transGen_of_mem_closed hclosed ha h).1
  · exact hout a (transGen_of_not_mem_closed hclosed houtside h ha ha)

end

namespace View

variable {view : View}

/-! ### One more binding -/

theorem meaning_bind (view : View) (name : Name) (e : Expr) (other : Name) :
    (view.bind name e).meaning other = if name = other then e else view.meaning other := by
  rw [meaning, lookup_bind]
  split
  · rw [Option.getD_some]
  · rfl

/-- The first read of an unbound name closes no loop. -/
theorem Acyclic.bind_empty (hview : view.Acyclic) {name : Name} (h : view.lookup name = none) :
    (view.bind name .empty).Acyclic := by
  refine hview.congr fun other => ?_
  rw [meaning_bind]
  split
  · rename_i heq
    rw [← heq, meaning_of_unbound h]
  · rfl

/-- A binding closes no loop if its reads lead nowhere back. -/
theorem Acyclic.bind (hview : view.Acyclic) {name : Name} {e : Expr}
    (h : ∀ other ∈ e.reads, other ≠ name ∧ ¬ TransGen view.Reads other name) :
    (view.bind name e).Acyclic := by
  have hname : ¬ ∃ other ∈ e.reads, ReflTransGen view.Reads other name := by
    rintro ⟨other, hother, hpath⟩
    rcases reflTransGen_iff_eq_or_transGen.1 hpath with heq | hpath
    · exact (h other hother).1 heq.symm
    · exact (h other hother).2 hpath
  -- the names that the new binding leads to are closed, and `name` is not among them
  refine acyclic_of_closed (S := {target | ∃ other ∈ e.reads, ReflTransGen view.Reads other target})
    ?_ ?_ hview hview
  · rintro target ⟨other, hother, hpath⟩ next hnext
    have hne : name ≠ target := fun heq => hname ⟨other, hother, heq ▸ hpath⟩
    rw [reads_iff, meaning_bind, if_neg hne, ← reads_iff] at hnext
    exact ⟨hnext, other, hother, hpath.tail hnext⟩
  · intro target _ next hnext hread
    rw [reads_iff, meaning_bind] at hread
    split at hread
    · exact absurd ⟨next, hread, ReflTransGen.refl⟩ hnext
    · rwa [reads_iff]

/-- A definition that has passed its check closes no loop. -/
theorem Acyclic.define (hview : view.Acyclic) {name : Name} {snapshot : Expr}
    (h : view.allowBinding name snapshot = .ok ()) : (view.bind name snapshot).Acyclic := by
  refine hview.bind fun other hother => ?_
  obtain ⟨hne, hreached⟩ := allowBinding_eq_ok_iff.1 h other hother
  exact ⟨hne, fun hpath => hreached (mem_reached_of_transGen hpath)⟩

/-! ### A commit -/

section

variable {left right : Expr} {leftWrites rightWrites : Environment}

/-- A clean write of a name that is not defined in the text of the side is the empty list. -/
theorem eq_empty_of_cleanWrites {side e : Expr} {writes : Environment}
    (hclean : CleanWrites view side writes) {name : Name} (htarget : name ∉ side.targets)
    (he : writes[name]? = some e) : e = .empty := by
  rcases hclean name e he with hname | ⟨-, hempty⟩
  · exact absurd (Expr.mem_definedNames_empty.1 hname) htarget
  · exact hempty

/-- What a name that the left side leads to reads after a commit, it reads in the view of the left
side: the right side has at most bound it to the empty list. -/
theorem reads_of_reads_commit_left (hallow : view.allowParallel left right = .ok ())
    (hclean : CleanWrites view right rightWrites) {name other : Name}
    (hname : view.Reaches left name)
    (h : ((view.bindAll leftWrites).bindAll rightWrites).Reads name other) :
    (view.bindAll leftWrites).Reads name other := by
  obtain ⟨e, he, hother⟩ := h
  have htarget : name ∉ right.targets := fun htarget =>
    (allowParallel_eq_ok_iff.1 hallow).1 name htarget (mem_reached_of_reaches hname)
  rw [lookup_bindAll, Option.or_eq_some_iff] at he
  rcases he with he | ⟨-, he⟩
  · simp [eq_empty_of_cleanWrites hclean htarget he] at hother
  · exact ⟨e, he, hother⟩

theorem reads_of_reads_commit_right (hallow : view.allowParallel left right = .ok ())
    (hclean : CleanWrites view left leftWrites) {name other : Name}
    (hname : view.Reaches right name)
    (h : ((view.bindAll leftWrites).bindAll rightWrites).Reads name other) :
    (view.bindAll rightWrites).Reads name other := by
  obtain ⟨e, he, hother⟩ := h
  have htarget : name ∉ left.targets := fun htarget =>
    (allowParallel_eq_ok_iff.1 hallow).2 name htarget (mem_reached_of_reaches hname)
  refine ⟨e, ?_, hother⟩
  rw [lookup_bindAll, Option.or_eq_some_iff, lookup_bindAll, Option.or_eq_some_iff] at he
  rw [lookup_bindAll, Option.or_eq_some_iff]
  rcases he with he | ⟨hnone, he | ⟨-, he⟩⟩
  · exact Or.inl he
  · simp [eq_empty_of_cleanWrites hclean htarget he] at hother
  · exact Or.inr ⟨hnone, he⟩

/-- A read of a name that neither side leads to was there before the commit. -/
theorem reads_of_reads_commit {readable readable' definable definable' touched touched' : Set Name}
    (hleft : Effect readable definable touched view leftWrites)
    (hright : Effect readable' definable' touched' view rightWrites) {name other : Name}
    (h : ((view.bindAll leftWrites).bindAll rightWrites).Reads name other)
    (hother : other ∉ readable) (hother' : other ∉ readable') : view.Reads name other := by
  obtain ⟨e, he, hmem⟩ := h
  rw [lookup_bindAll, Option.or_eq_some_iff, lookup_bindAll, Option.or_eq_some_iff] at he
  rcases he with he | ⟨-, he | ⟨-, he⟩⟩
  · exact absurd ((hright.within_of_some he).reads other hmem) hother'
  · exact absurd ((hleft.within_of_some he).reads other hmem) hother
  · exact ⟨e, he, hmem⟩

/-- **A clean commit closes no loop** if the views of the two sides have none. -/
theorem Acyclic.commit {touched touched' : Set Name} (hview : view.Acyclic)
    (hallow : view.allowParallel left right = .ok ())
    (hleft : Effect (view.Reaches left) (view.Definable left) touched view leftWrites)
    (hright : Effect (view.Reaches right) (view.Definable right) touched' view rightWrites)
    (hcleanLeft : CleanWrites view left leftWrites)
    (hcleanRight : CleanWrites view right rightWrites)
    (hviewLeft : (view.bindAll leftWrites).Acyclic)
    (hviewRight : (view.bindAll rightWrites).Acyclic) :
    ((view.bindAll leftWrites).bindAll rightWrites).Acyclic := by
  have hclosedLeft := (view.closed_reaches left).after hleft
  have hclosedRight := (view.closed_reaches right).after hright
  -- a loop that avoids what the left side leads to: either it is one of the right side, or it also
  -- avoids what the right side leads to, and then it was there before
  have hrest : ∀ name, ¬ TransGen (fun name other =>
      ((view.bindAll leftWrites).bindAll rightWrites).Reads name other ∧
        ¬ view.Reaches left other) name name := by
    refine acyclic_of_closed (S := view.Reaches right) ?_ ?_ hviewRight hview
    · rintro name hname other ⟨h, -⟩
      obtain ⟨e, he, hother⟩ := reads_of_reads_commit_right hallow hcleanLeft hname h
      exact ⟨⟨e, he, hother⟩, (hclosedRight name hname e he).reads other hother⟩
    · rintro name - other hother ⟨h, hother'⟩
      exact reads_of_reads_commit hleft hright h hother' hother
  -- every other loop is one of the left side
  refine acyclic_of_closed (S := view.Reaches left) ?_ ?_ hviewLeft hrest
  · intro name hname other h
    obtain ⟨e, he, hother⟩ := reads_of_reads_commit_left hallow hcleanRight hname h
    exact ⟨⟨e, he, hother⟩, (hclosedLeft name hname e he).reads other hother⟩
  · exact fun name _ other hother h => ⟨h, hother⟩

end

end View

/-! ### Runs -/

open View

/-- The view of a side that has written is the view of the composition with these writes. -/
theorem acyclic_bindAll_of_sideWrites {budget : ℕ} {side : Expr} {view : View}
    {writes : Environment} (h : sideWrites budget side view = .ok writes)
    (hview : (evaluate budget side (.overlay ∅ view)).2.Acyclic) :
    (view.bindAll writes).Acyclic := by
  obtain ⟨addresses, -, hrun⟩ := evaluate_of_sideWrites h
  rw [hrun] at hview
  refine hview.congr fun name => ?_
  rw [meaning, meaning, lookup_bindAll, lookup_bindAll, lookup_overlay_empty]

/-- A clean run leaves no loops. -/
theorem CleanRun.acyclic : ∀ (budget : ℕ) (e : Expr) (view : View), view.Acyclic →
    CleanRun budget e view → (evaluate budget e view).2.Acyclic := by
  refine evaluation_induction ?_ ?_ ?_ ?_ ?_ ?_ ?_
  · intro budget text view hview _
    exact hview
  · intro budget view hview _
    exact hview
  · intro name view hview _
    exact hview
  · intro budget name ih view hview hclean
    cases he : view.lookup name with
    | none =>
        rw [evaluate_read_of_none he]
        exact hview.bind_empty he
    | some e =>
        rw [evaluate_read_of_some he]
        exact ih e view hview (hclean.of_read he)
  · intro budget op left right hop ihl ihr view hview hclean
    have hleft := ihl view hview (hclean.of_left hop)
    obtain ⟨stop, after, hrun, hall⟩ | ⟨first, middle, hrun, hall⟩ :=
      evaluate_combine_cases hop budget left right view
    · rw [hrun] at hleft
      rw [hall]
      exact hleft
    · rw [hrun] at hleft
      rw [hall]
      exact ihr middle hleft (hclean.of_right hop hrun)
  · intro budget left right ihl ihr view hview hclean
    obtain ⟨error, -, hall⟩ | ⟨hallow, ⟨stop, -, hall⟩ | ⟨leftWrites, rightWrites, hl, hr, hall⟩⟩ :=
      evaluate_parallel_cases budget left right view
    · rw [hall]
      exact hview
    · rw [hall]
      exact hview
    · obtain ⟨touched, hleft⟩ :=
        sideWrites_effect (view.closed_reaches left) (view.within_reaches left) hl
      obtain ⟨touched', hright⟩ :=
        sideWrites_effect (view.closed_reaches right) (view.within_reaches right) hr
      have hcommit := hclean _ (.join hallow hl hr)
      rw [hall]
      exact hview.commit hallow hleft hright hcommit.left hcommit.right
        (acyclic_bindAll_of_sideWrites hl (ihl _ hview.overlay (hclean.of_leftSide hallow)))
        (acyclic_bindAll_of_sideWrites hr (ihr _ hview.overlay (hclean.of_rightSide hallow)))
  · intro budget name body ih view hview hclean
    obtain ⟨error, -, hall⟩ | ⟨snapshot, hsnapshot, hcases⟩ :=
      evaluate_define_cases budget name body view
    · rw [hall]
      exact hview
    · have hbody := ih view hview (hclean.of_body hsnapshot)
      obtain ⟨stop, after, hrun, hall⟩ | ⟨_, after, hrun, ⟨error, -, hall⟩ | ⟨hallow, hall⟩⟩ :=
        hcases
      · rw [hrun] at hbody
        rw [hall]
        exact hbody
      · rw [hrun] at hbody
        rw [hall]
        exact hbody
      · rw [hrun] at hbody
        rw [hall]
        exact hbody.define hallow

theorem CleanRuns.acyclic {runs : List (ℕ × Expr)} {view : View} (hview : view.Acyclic)
    (hruns : CleanRuns runs view) : (viewAfter runs view).Acyclic := by
  induction runs generalizing view with
  | nil => exact hview
  | cons run rest ih =>
      obtain ⟨hfirst, hrest⟩ := hruns
      exact ih (CleanRun.acyclic run.1 run.2 view hview hfirst) hrest

/-- **Evaluations with clean commits leave no loops**: neither a single evaluation in a view without
loops, whatever comes of it, nor any evaluations in a row from the empty environment on. -/
theorem acyclic_after_clean_runs :
    (∀ (budget : ℕ) (e : Expr) (view : View), view.Acyclic → CleanRun budget e view →
      (evaluate budget e view).2.Acyclic) ∧
    ∀ runs : List (ℕ × Expr), CleanRuns runs (.base ∅) → (viewAfter runs (.base ∅)).Acyclic :=
  ⟨CleanRun.acyclic, fun _ hruns => CleanRuns.acyclic acyclic_empty hruns⟩

/-- A composition that commits two definitions, and a definition that is refused after it since it
would close a loop. -/
theorem acyclic_after_clean_runs_composition :
    CleanRuns [(1, .combine .parallel (.define ⟨"c"⟩ (.read ⟨"b"⟩)) (.define ⟨"d"⟩ (.read ⟨"b"⟩))),
        (2, .define ⟨"b"⟩ (.read ⟨"c"⟩))] (.base ∅) ∧
      (evaluate 1 (.combine .parallel (.define ⟨"c"⟩ (.read ⟨"b"⟩))
        (.define ⟨"d"⟩ (.read ⟨"b"⟩))) (.base ∅)).2.Acyclic ∧
      (viewAfter [(1, .combine .parallel (.define ⟨"c"⟩ (.read ⟨"b"⟩))
          (.define ⟨"d"⟩ (.read ⟨"b"⟩))), (2, .define ⟨"b"⟩ (.read ⟨"c"⟩))] (.base ∅)).Acyclic := by
  have hfirst : CleanRun 1 (.combine .parallel (.define ⟨"c"⟩ (.read ⟨"b"⟩))
      (.define ⟨"d"⟩ (.read ⟨"b"⟩))) (.base ∅) := by
    intro commit hcommit
    cases hcommit with
    | left hop _ => exact absurd rfl hop
    | right hop _ _ => exact absurd rfl hop
    | leftSide _ h =>
        cases h with
        | body _ h => exact absurd h (not_commits_read_of_none (by simp) commit)
    | rightSide _ h =>
        cases h with
        | body _ h => exact absurd h (not_commits_read_of_none (by simp) commit)
    | join _ hl hr =>
        obtain rfl := Except.ok.inj (hl.symm.trans (b := .ok
          (((∅ : Environment).insert ⟨"b"⟩ .empty).insert ⟨"c"⟩ (.read ⟨"b"⟩))) rfl)
        obtain rfl := Except.ok.inj (hr.symm.trans (b := .ok
          (((∅ : Environment).insert ⟨"b"⟩ .empty).insert ⟨"d"⟩ (.read ⟨"b"⟩))) rfl)
        exact ⟨(CleanWrites.none.first_read (by simp)).define (by decide +kernel),
          (CleanWrites.none.first_read (by simp)).define (by decide +kernel)⟩
  have hruns : CleanRuns [(1, .combine .parallel (.define ⟨"c"⟩ (.read ⟨"b"⟩))
      (.define ⟨"d"⟩ (.read ⟨"b"⟩))), (2, .define ⟨"b"⟩ (.read ⟨"c"⟩))] (.base ∅) := by
    refine ⟨hfirst, fun commit hcommit => ?_, trivial⟩
    cases hcommit with
    | body hsnapshot _ => cases hsnapshot
  exact ⟨hruns, acyclic_after_clean_runs.1 _ _ _ acyclic_empty hfirst,
    acyclic_after_clean_runs.2 _ hruns⟩

end Roster
