/-
**What the checks of an evaluation ask.**

An evaluation asks the analysis three questions: whether the snapshot of a body may be taken,
whether it may be bound, and whether two sides may be composed.  Each answer is stated here in terms
of what names stand for and what expressions lead to, so that views in which the same names mean the
same give the same answers.

Main definitions:

* `Expr.substitute`: an expression in place of all reads of a name;
* `View.dependsOn`: what a name stands for reaches another name.

Main results:

* `View.snapshot_eq`: **a snapshot is a substitution**, refused for the first read that leads back;
* `View.snapshot_eq_ok_iff`, `View.snapshot_eq_error_iff`: which snapshots may be taken, and which
  read is blamed if one may not;
* `View.allowBinding_eq`, `View.allowBinding_eq_ok_iff`: which snapshots may be bound;
* `View.allowParallel_eq_ok_iff`: which sides may be composed;
* `View.reached_congr`, `View.snapshot_congr`, `View.allowBinding_congr`,
  `View.allowParallel_congr`: the answers depend on the meanings of a closed set of names only.
-/

import Roster.Evaluation.Independence
import Roster.Evaluation.Snapshot
import Roster.Proofs.Binding.Walk

set_option relaxedAutoImplicit false
set_option autoImplicit false

namespace Roster

/-! ### Substitution -/

namespace Expr

/-- An expression with `replacement` in place of all reads of `target`.  Definitions of `target`
stay as they are. -/
def substitute : Expr → Name → Expr → Expr
  | .address text, _, _ => .address text
  | .empty, _, _ => .empty
  | .read name, target, replacement => if name = target then replacement else .read name
  | .combine op left right, target, replacement =>
    .combine op (left.substitute target replacement) (right.substitute target replacement)
  | .define name body, target, replacement =>
    .define name (body.substitute target replacement)

/-- What is read after a substitution: the other reads, and those of the replacement if there was
something to replace. -/
theorem mem_reads_substitute {target name : Name} {replacement e : Expr} :
    name ∈ (e.substitute target replacement).reads ↔
      name ∈ e.reads ∧ name ≠ target ∨ target ∈ e.reads ∧ name ∈ replacement.reads := by
  induction e with
  | address text => simp [substitute]
  | empty => simp [substitute]
  | read other =>
      by_cases hother : other = target
      · subst hother
        simp [substitute]
      · simp [substitute, hother, Ne.symm hother]
        rintro rfl
        exact hother
  | combine op left right ihl ihr =>
      simp only [substitute, reads_combine, List.mem_append, ihl, ihr, or_and_right]
      exact or_or_or_comm
  | define other body ih => simpa only [substitute, reads_define] using ih

theorem mem_targets_substitute {target name : Name} {replacement e : Expr} :
    name ∈ (e.substitute target replacement).targets ↔
      name ∈ e.targets ∨ target ∈ e.reads ∧ name ∈ replacement.targets := by
  induction e with
  | address text => simp [substitute]
  | empty => simp [substitute]
  | read other =>
      by_cases hother : other = target
      · subst hother
        simp [substitute]
      · simp [substitute, hother, Ne.symm hother]
  | combine op left right ihl ihr =>
      simp only [substitute, targets_combine, reads_combine, List.mem_append, ihl, ihr,
        or_and_right]
      exact or_or_or_comm
  | define other body ih =>
      simp only [substitute, targets_define, reads_define, List.mem_cons, ih]
      exact or_assoc.symm

/-- What is substituted for a name that is not read makes no difference. -/
theorem substitute_of_not_mem_reads {target : Name} {e : Expr} (h : target ∉ e.reads)
    (replacement : Expr) : e.substitute target replacement = e := by
  induction e with
  | address text => rfl
  | empty => rfl
  | read name =>
      rw [substitute, if_neg]
      rintro rfl
      exact h List.mem_cons_self
  | combine op left right ihl ihr =>
      rw [reads_combine, List.mem_append, not_or] at h
      rw [substitute, ihl h.1, ihr h.2]
  | define name body ih => rw [substitute, ih h]

/-- A substitution stays within the sets that hold the expression and, if it is used, the
replacement. -/
theorem Within.substitute {readable definable : Set Name} {target : Name} {replacement e : Expr}
    (he : e.Within readable definable)
    (hreplacement : target ∈ e.reads → replacement.Within readable definable) :
    (e.substitute target replacement).Within readable definable := by
  refine ⟨fun name hname => ?_, fun name hname => ?_⟩
  · rcases mem_reads_substitute.1 hname with ⟨hname, -⟩ | ⟨htarget, hname⟩
    · exact he.reads name hname
    · exact (hreplacement htarget).reads name hname
  · rcases mem_targets_substitute.1 hname with hname | ⟨htarget, hname⟩
    · exact he.targets name hname
    · exact (hreplacement htarget).targets name hname

end Expr

namespace View

/-! ### The answers -/

@[simp] theorem not_mem_reached_empty (view : View) (name : Name) :
    name ∉ view.reached .empty := by
  intro h
  have hnone : ∀ via, ¬ view.Reaches .empty via := fun via => not_reaches_of_reads_eq_nil rfl
  rcases mem_reached.1 h with h | h | ⟨via, b, hvia, -⟩
  · exact hnone name h
  · simp at h
  · exact hnone via hvia

/-- Only a bound name can stand for an expression that reaches anything. -/
theorem exists_lookup_of_mem_reached_meaning {view : View} {name target : Name}
    (h : target ∈ view.reached (view.meaning name)) :
    ∃ e, view.lookup name = some e ∧ target ∈ view.reached e := by
  cases he : view.lookup name with
  | none =>
      rw [meaning_of_unbound he] at h
      exact absurd h (not_mem_reached_empty view target)
  | some e =>
      rw [meaning_of_lookup he] at h
      exact ⟨e, rfl, h⟩

/-- What stands for `via` leads to `target` or defines it on the way. -/
def dependsOn (view : View) (via target : Name) : Bool :=
  decide (target ∈ view.reached (view.meaning via))

theorem allowRead_eq (view : View) (target via : Name) :
    view.allowRead target via =
      if view.dependsOn via target then .error (.cycle target via) else .ok () := by
  rw [allowRead, dependsOn]
  cases he : view.lookup via with
  | none => simp [meaning_of_unbound he]
  | some e => simp [meaning_of_lookup he]

/-- **A snapshot is a substitution.**  It is refused for the first other name that depends on the
name to be defined. -/
theorem snapshot_eq (view : View) (target : Name) (e : Expr) :
    view.snapshot target e =
      match e.reads.find? fun name => name ≠ target && view.dependsOn name target with
      | some via => .error (.cycle target via)
      | none => .ok (e.substitute target (view.meaning target)) := by
  induction e with
  | address text => rfl
  | empty => rfl
  | read name =>
      by_cases hname : name = target
      · subst hname
        simp [snapshot, Expr.substitute, meaning]
      · cases hdepends : view.dependsOn name target with
        | true => simp [snapshot, hname, allowRead_eq, hdepends]
        | false => simp [snapshot, hname, allowRead_eq, hdepends, Expr.substitute]
  | combine op left right ihl ihr =>
      rw [snapshot, ihl, ihr, Expr.reads_combine, List.find?_append]
      cases left.reads.find? fun name => name ≠ target && view.dependsOn name target with
      | some via => rfl
      | none =>
          cases right.reads.find? fun name => name ≠ target && view.dependsOn name target with
          | some via => rfl
          | none => rfl
  | define name body ih =>
      rw [snapshot, ih, Expr.reads_define]
      cases body.reads.find? fun name => name ≠ target && view.dependsOn name target with
      | some via => rfl
      | none => rfl

example : (base ∅).snapshot ⟨"a"⟩ (.combine .union (.read ⟨"a"⟩) (.read ⟨"b"⟩)) =
    .ok (.combine .union .empty (.read ⟨"b"⟩)) := rfl

/-- A snapshot may be bound unless it reads the name itself or a name that depends on it; the first
such read is reported. -/
theorem allowBinding_eq (view : View) (target : Name) (e : Expr) :
    view.allowBinding target e =
      match e.reads.find? fun name => name = target || view.dependsOn name target with
      | some via => .error (.cycle target via)
      | none => .ok () := by
  induction e with
  | address text => rfl
  | empty => rfl
  | read name =>
      by_cases hname : name = target
      · simp [allowBinding, hname]
      · cases hdepends : view.dependsOn name target with
        | true => simp [allowBinding, hname, allowRead_eq, hdepends]
        | false => simp [allowBinding, hname, allowRead_eq, hdepends]
  | combine op left right ihl ihr =>
      rw [allowBinding, ihl, ihr, Expr.reads_combine, List.find?_append]
      cases left.reads.find? fun name => name = target || view.dependsOn name target with
      | some via => rfl
      | none => rfl
  | define name body ih => rw [allowBinding, ih, Expr.reads_define]

theorem snapshot_eq_ok_iff {view : View} {target : Name} {e snapshot : Expr} :
    view.snapshot target e = .ok snapshot ↔
      (∀ name ∈ e.reads, name ≠ target → target ∉ view.reached (view.meaning name)) ∧
        e.substitute target (view.meaning target) = snapshot := by
  rw [snapshot_eq]
  cases hfind : e.reads.find? fun name => name ≠ target && view.dependsOn name target with
  | none =>
      rw [List.find?_eq_none] at hfind
      simp only [dependsOn, Bool.and_eq_true, decide_eq_true_eq, not_and] at hfind
      simp only [Except.ok.injEq]
      exact ⟨fun h => ⟨hfind, h⟩, fun h => h.2⟩
  | some via =>
      have hmem := List.mem_of_find?_eq_some hfind
      have hvia := List.find?_some hfind
      simp only [dependsOn, Bool.and_eq_true, decide_eq_true_eq] at hvia
      simp only [reduceCtorEq, false_iff]
      exact fun h => h.1 via hmem hvia.1 hvia.2

/-- A snapshot is refused for the first read of another name that leads to or defines the name on
the way. -/
theorem snapshot_eq_error_iff {view : View} {target : Name} {e : Expr} {error : EvalError} :
    view.snapshot target e = .error error ↔
      ∃ before via after, e.reads = before ++ via :: after ∧
        (∀ name ∈ before, name ≠ target → target ∉ view.reached (view.meaning name)) ∧
        via ≠ target ∧ target ∈ view.reached (view.meaning via) ∧ error = .cycle target via := by
  have hfind : ∀ via, (e.reads.find? fun name => name ≠ target && view.dependsOn name target) =
      some via ↔ (via ≠ target ∧ target ∈ view.reached (view.meaning via)) ∧
        ∃ before after, e.reads = before ++ via :: after ∧
          ∀ name ∈ before, name ≠ target → target ∉ view.reached (view.meaning name) := by
    intro via
    simp [List.find?_eq_some_iff_append, dependsOn, or_iff_not_imp_left]
  rw [snapshot_eq]
  constructor
  · intro h
    split at h
    · rename_i via hvia
      obtain ⟨⟨hne, hreached⟩, before, after, hreads, hbefore⟩ := (hfind via).1 hvia
      cases h
      exact ⟨before, via, after, hreads, hbefore, hne, hreached, rfl⟩
    · cases h
  · rintro ⟨before, via, after, hreads, hbefore, hne, hreached, rfl⟩
    rw [(hfind via).2 ⟨⟨hne, hreached⟩, before, after, hreads, hbefore⟩]

theorem allowBinding_eq_ok_iff {view : View} {target : Name} {e : Expr} :
    view.allowBinding target e = .ok () ↔
      ∀ name ∈ e.reads, name ≠ target ∧ target ∉ view.reached (view.meaning name) := by
  rw [allowBinding_eq]
  cases hfind : e.reads.find? fun name => name = target || view.dependsOn name target with
  | none =>
      rw [List.find?_eq_none] at hfind
      simp only [dependsOn, Bool.or_eq_true, decide_eq_true_eq, not_or] at hfind
      simpa using hfind
  | some via =>
      have hmem := List.mem_of_find?_eq_some hfind
      have hvia := List.find?_some hfind
      simp only [dependsOn, Bool.or_eq_true, decide_eq_true_eq] at hvia
      simp only [reduceCtorEq, false_iff]
      intro h
      rcases hvia with hvia | hvia
      · exact (h via hmem).1 hvia
      · exact (h via hmem).2 hvia

/-- A snapshot that may not be bound reads the name itself, or a name that leads to it or defines it
on the way. -/
theorem exists_of_allowBinding_eq_error {view : View} {target : Name} {e : Expr}
    {error : EvalError} (h : view.allowBinding target e = .error error) :
    ∃ via ∈ e.reads, (via = target ∨ target ∈ view.reached (view.meaning via)) ∧
      error = .cycle target via := by
  rw [allowBinding_eq] at h
  split at h
  · rename_i via hvia
    have hback := List.find?_some hvia
    simp only [dependsOn, Bool.or_eq_true, decide_eq_true_eq] at hback
    cases h
    exact ⟨via, List.mem_of_find?_eq_some hvia, hback, rfl⟩
  · cases h

/-- The reads of a snapshot that may be bound do not lead to the name. -/
theorem not_reaches_of_allowBinding {view : View} {target : Name} {e : Expr}
    (h : view.allowBinding target e = .ok ()) : ¬ view.Reaches e target := by
  intro hreaches
  obtain ⟨via, hvia, hpath⟩ := reaches_iff_exists_read.1 hreaches
  obtain ⟨hne, hreached⟩ := allowBinding_eq_ok_iff.1 h via hvia
  rcases Relation.reflTransGen_iff_eq_or_transGen.1 hpath with heq | hpath
  · exact hne heq.symm
  · exact hreached (mem_reached_of_transGen hpath)

/-- Two sides may be composed if neither leads to or defines what the other one defines. -/
theorem allowParallel_eq_ok_iff {view : View} {left right : Expr} :
    view.allowParallel left right = .ok () ↔
      (∀ name ∈ right.targets, name ∉ view.reached left) ∧
        ∀ name ∈ left.targets, name ∉ view.reached right := by
  have hmem : ∀ name, name ∈ view.interference left right ↔
      name ∈ view.reached left ∧ name ∈ right.targets ∨
        name ∈ view.reached right ∧ name ∈ left.targets := by
    intro name
    simp [interference, Std.ExtTreeSet.mem_union_iff, Std.ExtTreeSet.mem_inter_iff]
  have hempty : view.allowParallel left right = .ok () ↔
      ∀ name, name ∉ view.interference left right := by
    rw [allowParallel]
    cases hlist : (view.interference left right).toList with
    | nil =>
        simp only [true_iff]
        intro name hname
        rw [← Std.ExtTreeSet.mem_toList, hlist] at hname
        simp at hname
    | cons name names =>
        simp only [reduceCtorEq, false_iff]
        intro h
        refine h name ?_
        rw [← Std.ExtTreeSet.mem_toList, hlist]
        simp
  rw [hempty]
  simp only [hmem, not_or, not_and]
  constructor
  · intro h
    exact ⟨fun name hright hreached => (h name).1 hreached hright,
      fun name hleft hreached => (h name).2 hreached hleft⟩
  · rintro ⟨hright, hleft⟩ name
    exact ⟨fun hreached hmem => hright name hmem hreached,
      fun hreached hmem => hleft name hmem hreached⟩

/-! ### Views in which names mean the same -/

section

variable {view other : View} {readable definable : Set Name}

/-- Names in `readable` stand for the same in both views. -/
def SameOn (readable : Set Name) (view other : View) : Prop :=
  ∀ name ∈ readable, view.meaning name = other.meaning name

theorem SameOn.symm (h : SameOn readable view other) : SameOn readable other view :=
  fun name hname => (h name hname).symm

theorem Closed.congr (hview : view.Closed readable definable) (h : SameOn readable view other) :
    other.Closed readable definable := by
  intro name hname e he
  rw [← meaning_of_lookup he, ← h name hname]
  exact hview.meaning hname

theorem Reaches.congr (hview : view.Closed readable definable) (h : SameOn readable view other)
    {e : Expr} (he : ∀ name ∈ e.reads, name ∈ readable) {name : Name}
    (hname : view.Reaches e name) : other.Reaches e name := by
  induction hname with
  | direct hmem _ => exact Reaches.direct hmem
  | @next via name hvia hread _ ih =>
      refine ih.next ?_
      rw [reads_iff, ← h via (hview.of_reaches he hvia), ← reads_iff]
      exact hread

theorem mem_reached_congr (hview : view.Closed readable definable)
    (h : SameOn readable view other) {e : Expr} (he : ∀ name ∈ e.reads, name ∈ readable)
    {name : Name} (hname : name ∈ view.reached e) : name ∈ other.reached e := by
  rw [mem_reached] at hname ⊢
  rcases hname with hname | hname | ⟨via, b, hvia, hb, hname⟩
  · exact Or.inl (hname.congr hview h he)
  · exact Or.inr (Or.inl hname)
  · have hmeaning : b = other.meaning via := by
      rw [← meaning_of_lookup hb]
      exact h via (hview.of_reaches he hvia)
    cases hother : other.lookup via with
    | none =>
        rw [meaning_of_unbound hother] at hmeaning
        simp [hmeaning] at hname
    | some b' =>
        rw [meaning_of_lookup hother] at hmeaning
        exact Or.inr (Or.inr ⟨via, b', hvia.congr hview h he, hother, hmeaning ▸ hname⟩)

/-- What an expression leads to depends only on a closed set of names that holds its reads. -/
theorem reached_congr (hview : view.Closed readable definable) (h : SameOn readable view other)
    {e : Expr} (he : ∀ name ∈ e.reads, name ∈ readable) : view.reached e = other.reached e :=
  Std.ExtTreeSet.ext_mem fun _ =>
    ⟨mem_reached_congr hview h he, mem_reached_congr (hview.congr h) h.symm he⟩

theorem dependsOn_congr (hview : view.Closed readable definable) (h : SameOn readable view other)
    {via : Name} (hvia : via ∈ readable) (target : Name) :
    view.dependsOn via target = other.dependsOn via target := by
  rw [dependsOn, dependsOn, ← h via hvia, reached_congr hview h (hview.meaning hvia).reads]

theorem snapshot_congr (hview : view.Closed readable definable) (h : SameOn readable view other)
    {e : Expr} (he : ∀ name ∈ e.reads, name ∈ readable) (target : Name) :
    view.snapshot target e = other.snapshot target e := by
  induction e with
  | address text => rfl
  | empty => rfl
  | read name =>
      have hname : name ∈ readable := he name (by simp)
      have hmeaning := h name hname
      rw [meaning, meaning] at hmeaning
      rw [snapshot, snapshot, allowRead_eq, allowRead_eq, hmeaning,
        dependsOn_congr hview h hname target]
  | combine op left right ihl ihr =>
      rw [snapshot, snapshot, ihl fun name hn => he name (by simp [hn]),
        ihr fun name hn => he name (by simp [hn])]
  | define name body ih => rw [snapshot, snapshot, ih he]

theorem allowBinding_congr (hview : view.Closed readable definable)
    (h : SameOn readable view other) {e : Expr} (he : ∀ name ∈ e.reads, name ∈ readable)
    (target : Name) : view.allowBinding target e = other.allowBinding target e := by
  induction e with
  | address text => rfl
  | empty => rfl
  | read name =>
      rw [allowBinding, allowBinding, allowRead_eq, allowRead_eq,
        dependsOn_congr hview h (he name (by simp)) target]
  | combine op left right ihl ihr =>
      rw [allowBinding, allowBinding, ihl fun name hn => he name (by simp [hn]),
        ihr fun name hn => he name (by simp [hn])]
  | define name body ih => rw [allowBinding, allowBinding, ih he]

theorem allowParallel_congr (hview : view.Closed readable definable)
    (h : SameOn readable view other) {left right : Expr}
    (hleft : ∀ name ∈ left.reads, name ∈ readable)
    (hright : ∀ name ∈ right.reads, name ∈ readable) :
    view.allowParallel left right = other.allowParallel left right := by
  rw [allowParallel, allowParallel, interference, interference, reached_congr hview h hleft,
    reached_congr hview h hright]

end

end View

end Roster
