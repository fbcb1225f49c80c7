/-
**The walk of the analysis is reachability.**

The analysis walks through an expression and expands each name that it reads once.  A name that was
expanded before is not looked into again, so what a walk reports for one part of an expression
depends on the parts before it.  This module shows that the result does not: a walk reports exactly
the names that occur in the expression or in the binding of a name that it leads to, and expands
exactly the names that are read there.

The walk is first described as a relation, with a rule for each kind of expression and three for
reads, and without any bound on its depth.  A derivation is a walk that has come to its end, and all
that is said about walks is proved by induction on derivations.  One half is an invariant: nothing
else is ever reported.  For the other half a part is looked at after the walk through it.  Whatever
was expanded in between is then *covered*: all names in its binding are reported and expanded.
Names whose expansion is still going on need no mention, since they were expanded before the part
began.

That every walk comes to its end is a matter of counting.  Every binding that is expanded uses up
one of the names that are bound and not expanded, so the bound on the depth of a walk never cuts it
short, and the walk of the analysis is one of the relation.

Main definitions:

* `View.Walks`: the walk through an expression, as a relation;
* `View.Traverses`: the trees that a walk goes through;
* `Walk.Covers`: all names of a tree are reported and expanded;
* `View.Progress`: a walk has covered a tree and all it has expanded on the way.

Main results:

* `View.walks_walk`: every walk comes to its end, on every view;
* `View.mem_walk_reported`, `View.mem_walk_expanded`: what a walk reports and expands;
* `View.dependencies_exact`: **the analysis ends, and its result is reachability**;
* `View.mem_reached`: the transitive dependencies of an expression.
-/

import Mathlib.Data.Finset.Card
import Roster.Proofs.Binding.Reads

set_option relaxedAutoImplicit false
set_option autoImplicit false

namespace Roster

namespace Walk

@[simp] theorem mem_report_reported {walk : Walk} {name other : Name} :
    other ∈ (walk.report name).reported ↔ other = name ∨ other ∈ walk.reported :=
  NameSet.mem_insert_iff

@[simp] theorem report_expanded (walk : Walk) (name : Name) :
    (walk.report name).expanded = walk.expanded := rfl

@[simp] theorem mark_reported (walk : Walk) (name : Name) :
    (walk.mark name).reported = walk.reported := rfl

@[simp] theorem mem_mark_expanded {walk : Walk} {name other : Name} :
    other ∈ (walk.mark name).expanded ↔ other = name ∨ other ∈ walk.expanded :=
  NameSet.mem_insert_iff

end Walk

namespace View

/-! ### Walks that come to their end -/

/-- The walk through an expression leads from one state to another.  Nothing bounds its depth, so a
walk that went on forever would have no derivation. -/
inductive Walks (view : View) : Expr → Walk → Walk → Prop
  | address {text : String} {walk : Walk} : Walks view (.address text) walk walk
  | empty {walk : Walk} : Walks view .empty walk walk
  /-- A name that has been expanded is reported and left alone. -/
  | again {name : Name} {walk : Walk} :
      name ∈ walk.expanded → Walks view (.read name) walk (walk.report name)
  | unbound {name : Name} {walk : Walk} :
      name ∉ walk.expanded → view.lookup name = none →
        Walks view (.read name) walk ((walk.report name).mark name)
  /-- What is bound to a name is walked through with the name marked already. -/
  | expand {name : Name} {b : Expr} {walk later : Walk} :
      name ∉ walk.expanded → view.lookup name = some b →
        Walks view b ((walk.report name).mark name) later → Walks view (.read name) walk later
  | combine {op : Operator} {left right : Expr} {first second third : Walk} :
      Walks view left first second → Walks view right second third →
        Walks view (.combine op left right) first third
  | define {name : Name} {body : Expr} {walk later : Walk} :
      Walks view body (walk.report name) later → Walks view (.define name body) walk later

/-- A walk has one end. -/
theorem Walks.unique {view : View} {e : Expr} {walk later later' : Walk}
    (h : view.Walks e walk later) (h' : view.Walks e walk later') : later = later' := by
  induction h generalizing later' with
  | address =>
      cases h'
      rfl
  | empty =>
      cases h'
      rfl
  | again hname =>
      cases h' with
      | again _ => rfl
      | unbound hname' _ => exact absurd hname hname'
      | expand hname' _ _ => exact absurd hname hname'
  | unbound hname hlookup =>
      cases h' with
      | again hname' => exact absurd hname' hname
      | unbound _ _ => rfl
      | expand _ hlookup' _ =>
          rw [hlookup] at hlookup'
          cases hlookup'
  | expand hname hlookup _ ih =>
      cases h' with
      | again hname' => exact absurd hname' hname
      | unbound _ hlookup' =>
          rw [hlookup] at hlookup'
          cases hlookup'
      | expand _ hlookup' hbound =>
          rw [hlookup] at hlookup'
          cases hlookup'
          exact ih hbound
  | combine _ _ ihl ihr =>
      cases h' with
      | combine hleft hright =>
          cases ihl hleft
          exact ihr hright
  | define _ ih =>
      cases h' with
      | define hbody => exact ih hbody

/-! ### What is reported occurs somewhere -/

/-- The trees that a walk goes through: the expression, and what is bound to the names that it
leads to. -/
def Traverses (view : View) (expanded : NameSet) (e tree : Expr) : Prop :=
  tree = e ∨ ∃ name, view.ReachesPast expanded e name ∧ view.lookup name = some tree

/-- The names that are read in the trees that a walk goes through. -/
def traversedReads (view : View) (expanded : NameSet) (e : Expr) : Set Name :=
  {name | ∃ tree, view.Traverses expanded e tree ∧ name ∈ tree.reads}

/-- The names that are defined in the trees that a walk goes through. -/
def traversedTargets (view : View) (expanded : NameSet) (e : Expr) : Set Name :=
  {name | ∃ tree, view.Traverses expanded e tree ∧ name ∈ tree.targets}

section

variable {view : View} {expanded : NameSet} {e : Expr} {name : Name} {walk : Walk}

theorem Traverses.within {tree : Expr} (h : view.Traverses expanded e tree) :
    tree.Within (view.traversedReads expanded e) (view.traversedTargets expanded e) :=
  ⟨fun _ hread => ⟨tree, h, hread⟩, fun _ htarget => ⟨tree, h, htarget⟩⟩

/-- What is bound to a name that is read on the way is gone through, unless the name has been
expanded already. -/
theorem traverses_of_lookup {b : Expr} (h : name ∈ view.traversedReads expanded e)
    (hname : name ∉ expanded) (hb : view.lookup name = some b) :
    view.Traverses expanded e b := by
  obtain ⟨tree, rfl | ⟨via, hvia, htree⟩, hread⟩ := h
  · exact Or.inr ⟨name, .direct hread hname, hb⟩
  · exact Or.inr ⟨name, .next hvia ⟨tree, htree, hread⟩ hname, hb⟩

/-- A walk that has reported and expanded only names of the trees that it goes through. -/
structure Justified (view : View) (expanded : NameSet) (e : Expr) (walk : Walk) : Prop where
  reports : ∀ name ∈ walk.reported,
    name ∈ view.traversedReads expanded e ∨ name ∈ view.traversedTargets expanded e
  expands : ∀ name ∈ walk.expanded, name ∈ expanded ∨ name ∈ view.traversedReads expanded e
  start : ∀ name ∈ expanded, name ∈ walk.expanded

theorem Justified.report (h : view.Justified expanded e walk)
    (hname : name ∈ view.traversedReads expanded e ∨ name ∈ view.traversedTargets expanded e) :
    view.Justified expanded e (walk.report name) := by
  refine ⟨fun other hother => ?_, h.expands, h.start⟩
  rcases Walk.mem_report_reported.1 hother with rfl | hother
  · exact hname
  · exact h.reports other hother

theorem Justified.mark (h : view.Justified expanded e walk)
    (hname : name ∈ view.traversedReads expanded e) :
    view.Justified expanded e (walk.mark name) := by
  refine ⟨h.reports, ?_, fun other ho => Walk.mem_mark_expanded.2 (Or.inr (h.start other ho))⟩
  intro other hother
  rcases Walk.mem_mark_expanded.1 hother with rfl | hother
  · exact Or.inr hname
  · exact h.expands other hother

/-- The walk through a part of what is gone through keeps a walk justified. -/
theorem Walks.justified {part : Expr} {later : Walk} (h : view.Walks part walk later)
    (hpart : part.Within (view.traversedReads expanded e) (view.traversedTargets expanded e))
    (hwalk : view.Justified expanded e walk) : view.Justified expanded e later := by
  induction h with
  | address => exact hwalk
  | empty => exact hwalk
  | again _ => exact hwalk.report (Or.inl (Expr.within_read.1 hpart))
  | unbound _ _ =>
      have hread := Expr.within_read.1 hpart
      exact (hwalk.report (Or.inl hread)).mark hread
  | @expand name b walk later hname hb _ ih =>
      have hread := Expr.within_read.1 hpart
      -- only a name that was not expanded from the start leads on
      have hpast : name ∉ expanded := fun hn => hname (hwalk.start name hn)
      exact ih (traverses_of_lookup hread hpast hb).within
        ((hwalk.report (Or.inl hread)).mark hread)
  | combine _ _ ihl ihr =>
      obtain ⟨hleft, hright⟩ := Expr.within_combine.1 hpart
      exact ihr hright (ihl hleft hwalk)
  | define _ ih =>
      obtain ⟨htarget, hbody⟩ := Expr.within_define.1 hpart
      exact ih hbody (hwalk.report (Or.inr htarget))

end

end View

/-! ### What occurs somewhere is reported -/

namespace Walk

/-- A walk that has come at least as far as another one. -/
structure Extends (walk later : Walk) : Prop where
  reported : ∀ name ∈ walk.reported, name ∈ later.reported
  expanded : ∀ name ∈ walk.expanded, name ∈ later.expanded

theorem Extends.refl (walk : Walk) : walk.Extends walk := ⟨fun _ h => h, fun _ h => h⟩

theorem Extends.trans {first second third : Walk} (h : first.Extends second)
    (h' : second.Extends third) : first.Extends third :=
  ⟨fun name hn => h'.reported name (h.reported name hn),
    fun name hn => h'.expanded name (h.expanded name hn)⟩

theorem extends_report (walk : Walk) (name : Name) : walk.Extends (walk.report name) :=
  ⟨fun _ h => mem_report_reported.2 (Or.inr h), fun _ h => h⟩

theorem extends_mark (walk : Walk) (name : Name) : walk.Extends (walk.mark name) :=
  ⟨fun _ h => h, fun _ h => mem_mark_expanded.2 (Or.inr h)⟩

/-- All names of a tree are reported, and those that it reads are expanded. -/
structure Covers (walk : Walk) (tree : Expr) : Prop where
  reads : ∀ name ∈ tree.reads, name ∈ walk.reported ∧ name ∈ walk.expanded
  targets : ∀ name ∈ tree.targets, name ∈ walk.reported

theorem Covers.extend {walk later : Walk} {tree : Expr} (h : walk.Covers tree)
    (hlater : walk.Extends later) : later.Covers tree :=
  ⟨fun name hn => ⟨hlater.reported name (h.reads name hn).1,
    hlater.expanded name (h.reads name hn).2⟩,
    fun name hn => hlater.reported name (h.targets name hn)⟩

end Walk

namespace View

/-- The way from `walk` to `later` has covered a tree, and the binding of every name that was
expanded on it. -/
structure Progress (view : View) (tree : Expr) (walk later : Walk) : Prop where
  forward : walk.Extends later
  covers : later.Covers tree
  expanded : ∀ name ∈ later.expanded, name ∉ walk.expanded →
    ∀ b, view.lookup name = some b → later.Covers b

/-- What was expanded in either half of a way is covered at its end. -/
theorem Progress.expanded_trans {view : View} {tree tree' : Expr} {first second third : Walk}
    (h : view.Progress tree first second) (h' : view.Progress tree' second third) :
    ∀ name ∈ third.expanded, name ∉ first.expanded →
      ∀ b, view.lookup name = some b → third.Covers b := by
  intro name hthird hfirst b hb
  by_cases hsecond : name ∈ second.expanded
  · exact (h.expanded name hsecond hfirst b hb).extend h'.forward
  · exact h'.expanded name hthird hsecond b hb

theorem Progress.combine {view : View} {op : Operator} {left right : Expr}
    {first second third : Walk} (h : view.Progress left first second)
    (h' : view.Progress right second third) :
    view.Progress (.combine op left right) first third := by
  have hleft := h.covers.extend h'.forward
  refine ⟨h.forward.trans h'.forward, ⟨?_, ?_⟩, h.expanded_trans h'⟩
  · intro name hn
    rcases List.mem_append.1 hn with hn | hn
    · exact hleft.reads name hn
    · exact h'.covers.reads name hn
  · intro name hn
    rcases List.mem_append.1 hn with hn | hn
    · exact hleft.targets name hn
    · exact h'.covers.targets name hn

theorem Progress.define {view : View} {name : Name} {body : Expr} {walk later : Walk}
    (h : view.Progress body (walk.report name) later) :
    view.Progress (.define name body) walk later := by
  refine ⟨(walk.extends_report name).trans h.forward, ⟨h.covers.reads, ?_⟩, h.expanded⟩
  intro other ho
  rcases List.mem_cons.1 ho with rfl | ho
  · exact h.forward.reported other (by simp)
  · exact h.covers.targets other ho

theorem progress_read_of_mem {view : View} {name : Name} {walk : Walk}
    (hname : name ∈ walk.expanded) : view.Progress (.read name) walk (walk.report name) := by
  refine ⟨walk.extends_report name, ⟨?_, by simp⟩, fun other ho ho' => absurd ho ho'⟩
  intro other ho
  obtain rfl : other = name := by simpa using ho
  exact ⟨by simp, hname⟩

/-- A read of a name that is expanded for the first time makes progress if what is bound to it is
covered in the end. -/
theorem progress_read_of_fresh {view : View} {name : Name} {walk later : Walk}
    (hforward : ((walk.report name).mark name).Extends later)
    (hexpanded : ∀ other ∈ later.expanded, other ∉ ((walk.report name).mark name).expanded →
      ∀ b, view.lookup other = some b → later.Covers b)
    (hname : ∀ b, view.lookup name = some b → later.Covers b) :
    view.Progress (.read name) walk later := by
  refine ⟨((walk.extends_report name).trans (Walk.extends_mark _ name)).trans hforward,
    ⟨?_, by simp⟩, ?_⟩
  · intro other ho
    obtain rfl : other = name := by simpa using ho
    exact ⟨hforward.reported other (by simp), hforward.expanded other (by simp)⟩
  · intro other ho hwalk b hb
    by_cases heq : other = name
    · subst heq
      exact hname b hb
    · exact hexpanded other ho (by simp [heq, hwalk]) b hb

/-- Every walk that comes to its end makes progress. -/
theorem Walks.progress {view : View} {e : Expr} {walk later : Walk} (h : view.Walks e walk later) :
    view.Progress e walk later := by
  induction h with
  | @address text walk =>
      exact ⟨Walk.Extends.refl walk, ⟨by simp, by simp⟩, fun name hn hn' => absurd hn hn'⟩
  | @empty walk =>
      exact ⟨Walk.Extends.refl walk, ⟨by simp, by simp⟩, fun name hn hn' => absurd hn hn'⟩
  | again hname => exact progress_read_of_mem hname
  | unbound _ hlookup =>
      refine progress_read_of_fresh (Walk.Extends.refl _) (fun other ho ho' => absurd ho ho') ?_
      intro b hb
      rw [hlookup] at hb
      cases hb
  | expand _ hlookup _ ih =>
      refine progress_read_of_fresh ih.forward ih.expanded ?_
      intro b hb
      rw [hlookup] at hb
      cases hb
      exact ih.covers
  | combine _ _ ihl ihr => exact ihl.combine ihr
  | define _ ih => exact ih.define

/-! ### Every walk comes to its end -/

/-- The names that are bound and still to be expanded. -/
def pending (view : View) (walk : Walk) : Finset Name :=
  view.flatten.keys.toFinset.filter (· ∉ walk.expanded)

theorem mem_pending {view : View} {walk : Walk} {name : Name} :
    name ∈ view.pending walk ↔ (view.lookup name).isSome ∧ name ∉ walk.expanded := by
  rw [pending, Finset.mem_filter, List.mem_toFinset, Std.ExtTreeMap.mem_keys,
    ← Std.ExtTreeMap.isSome_getElem?_iff_mem, getElem?_flatten]

theorem card_pending_le {view : View} {walk later : Walk} (h : walk.Extends later) :
    (view.pending later).card ≤ (view.pending walk).card := by
  refine Finset.card_le_card fun name hn => ?_
  rw [mem_pending] at hn ⊢
  exact ⟨hn.1, fun hmem => hn.2 (h.expanded name hmem)⟩

theorem card_pending_mark_lt {view : View} {walk : Walk} {name : Name} {b : Expr}
    (hb : view.lookup name = some b) (hname : name ∉ walk.expanded) :
    (view.pending (walk.mark name)).card < (view.pending walk).card := by
  have hsub : view.pending (walk.mark name) ⊆ view.pending walk := by
    intro other hother
    obtain ⟨hbound, hfresh⟩ := mem_pending.1 hother
    exact mem_pending.2 ⟨hbound, fun hmem => hfresh (by simp [hmem])⟩
  have hmem : name ∈ view.pending walk := mem_pending.2 ⟨by simp [hb], hname⟩
  have hnot : name ∉ view.pending (walk.mark name) := fun h => (mem_pending.1 h).2 (by simp)
  exact Finset.card_lt_card ((Finset.ssubset_iff_of_subset hsub).2 ⟨name, hmem, hnot⟩)

theorem size_flatten_le (view : View) : view.flatten.size ≤ view.bindingCount := by
  induction view with
  | base env => exact Nat.le_refl _
  | overlay writes below ih =>
      have h : (below.flatten ∪ writes).size ≤ below.flatten.size + writes.size :=
        Std.ExtTreeMap.size_union_le_size_add_size
      rw [flatten, bindingCount]
      omega

theorem card_pending_le_bindingCount (view : View) (walk : Walk) :
    (view.pending walk).card ≤ view.bindingCount :=
  calc (view.pending walk).card
      ≤ view.flatten.keys.toFinset.card := Finset.card_filter_le _ _
    _ ≤ view.flatten.keys.length := List.toFinset_card_le _
    _ = view.flatten.size := Std.ExtTreeMap.length_keys
    _ ≤ view.bindingCount := size_flatten_le view

/-- The walk through an expression comes to its end if the walk of every read does; `P` is what
reads rely on, and stays true as the walk goes on. -/
theorem walks_visit {view : View} {onRead : Name → Walk → Walk} {P : Walk → Prop}
    (hP : ∀ walk later, walk.Extends later → P walk → P later)
    (hread : ∀ name walk, P walk → view.Walks (.read name) walk (onRead name walk))
    (e : Expr) {walk : Walk} (h : P walk) : view.Walks e walk (e.visit onRead walk) := by
  induction e generalizing walk with
  | address text => exact .address
  | empty => exact .empty
  | read name => exact hread name walk h
  | combine op left right ihl ihr =>
      have hleft := ihl h
      exact .combine hleft (ihr (hP _ _ hleft.progress.forward h))
  | define name body ih => exact .define (ih (hP _ _ (walk.extends_report name) h))

/-- The walk of a read comes to its end if the depth is enough for the bindings that are still to be
expanded. -/
theorem walks_expand (view : View) (depth : ℕ) (name : Name) {walk : Walk}
    (h : (view.pending walk).card ≤ depth) :
    view.Walks (.read name) walk (view.expand depth name walk) := by
  induction depth generalizing name walk with
  | zero =>
      rw [View.expand]
      split
      · rename_i hname
        exact .again hname
      · rename_i hname
        refine .unbound hname (Option.eq_none_iff_forall_ne_some.2 fun b hb => ?_)
        have hmem : name ∈ view.pending walk := mem_pending.2 ⟨by simp [hb], hname⟩
        rw [Finset.card_eq_zero.1 (Nat.le_zero.1 h)] at hmem
        simp at hmem
  | succ depth ih =>
      rw [View.expand]
      split
      · rename_i hname
        exact .again hname
      · rename_i hname
        cases hb : view.lookup name with
        | none => exact .unbound hname hb
        | some b =>
            -- one binding less is still to be expanded, which pays for the depth below
            have hlt : (view.pending ((walk.report name).mark name)).card <
                (view.pending (walk.report name)).card := card_pending_mark_lt hb hname
            have hle : (view.pending (walk.report name)).card ≤ (view.pending walk).card :=
              card_pending_le (walk.extends_report name)
            refine .expand hname hb ?_
            exact walks_visit (P := fun w => (view.pending w).card ≤ depth)
              (fun w later hw hc => (card_pending_le hw).trans hc)
              (fun other w hw => ih other hw) b (by omega)

/-- **Every walk comes to its end**, on cyclic views as well. -/
theorem walks_walk (view : View) (e : Expr) (expanded : NameSet) :
    view.Walks e ⟨∅, expanded⟩ (view.walk e expanded) :=
  walks_visit (P := fun w => (view.pending w).card ≤ view.bindingCount)
    (fun _ _ hw hc => (card_pending_le hw).trans hc)
    (fun name _ hw => view.walks_expand view.bindingCount name hw) e
    (card_pending_le_bindingCount view _)

theorem justified_walk (view : View) (e : Expr) (expanded : NameSet) :
    view.Justified expanded e (view.walk e expanded) := by
  have hstart : view.Justified expanded e ⟨∅, expanded⟩ :=
    ⟨by simp, fun name hn => Or.inl hn, fun name hn => hn⟩
  exact (walks_walk view e expanded).justified (Traverses.within (Or.inl rfl)) hstart

/-- All trees that a walk goes through are covered at its end. -/
theorem covers_of_traverses {view : View} {e : Expr} {expanded : NameSet} {tree : Expr}
    (h : view.Traverses expanded e tree) : (view.walk e expanded).Covers tree := by
  have hwalk := (view.walks_walk e expanded).progress
  rcases h with rfl | ⟨name, hname, htree⟩
  · exact hwalk.covers
  · have hmem : name ∈ (view.walk e expanded).expanded ∧ name ∉ expanded := by
      -- along the reads, each name is expanded since the tree before it is covered
      induction hname generalizing tree with
      | direct hread hpast => exact ⟨(hwalk.covers.reads _ hread).2, hpast⟩
      | next _ hread hpast ih =>
          obtain ⟨b, hb, hread⟩ := hread
          obtain ⟨hvia, hvia'⟩ := ih hb
          exact ⟨((hwalk.expanded _ hvia hvia' b hb).reads _ hread).2, hpast⟩
    exact hwalk.expanded name hmem.1 hmem.2 tree htree

/-! ### The result of a walk -/

/-- **A walk reports exactly the names that occur in the trees that it goes through.** -/
theorem mem_walk_reported {view : View} {e : Expr} {expanded : NameSet} {name : Name} :
    name ∈ (view.walk e expanded).reported ↔
      ∃ tree, view.Traverses expanded e tree ∧ (name ∈ tree.reads ∨ name ∈ tree.targets) := by
  constructor
  · intro h
    rcases (view.justified_walk e expanded).reports name h with
      ⟨tree, htree, hname⟩ | ⟨tree, htree, hname⟩
    · exact ⟨tree, htree, Or.inl hname⟩
    · exact ⟨tree, htree, Or.inr hname⟩
  · rintro ⟨tree, htree, hname | hname⟩
    · exact ((covers_of_traverses htree).reads name hname).1
    · exact (covers_of_traverses htree).targets name hname

/-- **A walk expands exactly the names that are read in the trees that it goes through**, besides
those that were expanded before. -/
theorem mem_walk_expanded {view : View} {e : Expr} {expanded : NameSet} {name : Name} :
    name ∈ (view.walk e expanded).expanded ↔
      name ∈ expanded ∨ ∃ tree, view.Traverses expanded e tree ∧ name ∈ tree.reads := by
  constructor
  · intro h
    exact (view.justified_walk e expanded).expands name h
  · rintro (h | ⟨tree, htree, hname⟩)
    · exact (view.walks_walk e expanded).progress.forward.expanded name h
    · exact ((covers_of_traverses htree).reads name hname).2

/-- **The analysis ends on every view, and its result is exact.**

The transitive walk has one end, which the analysis finds.  It reports the names that occur, as
reads or as the names of definitions, in the expression or in what is bound to a name that the
expression leads to through reads of names that were not expanded from the start.  Expanded
afterwards are the names of the start and those that are read there, whether they are bound or not.

The other extent reports the names that the expression itself defines, and expands nothing. -/
theorem dependencies_exact (view : View) (e : Expr) (expanded : NameSet) :
    (∀ later, view.Walks e ⟨∅, expanded⟩ later ↔
        later = view.dependencies .transitive e expanded) ∧
      (∀ name, name ∈ (view.dependencies .transitive e expanded).reported ↔
        ∃ tree, (tree = e ∨
            ∃ via, view.ReachesPast expanded e via ∧ view.lookup via = some tree) ∧
          (name ∈ tree.reads ∨ name ∈ tree.targets)) ∧
      (∀ name, name ∈ (view.dependencies .transitive e expanded).expanded ↔
        name ∈ expanded ∨ ∃ tree, (tree = e ∨
            ∃ via, view.ReachesPast expanded e via ∧ view.lookup via = some tree) ∧
          name ∈ tree.reads) ∧
      (∀ name, name ∈ (view.dependencies .definitions e expanded).reported ↔
        name ∈ e.targets) ∧
      (view.dependencies .definitions e expanded).expanded = expanded := by
  refine ⟨fun later => ⟨fun h => h.unique (view.walks_walk e expanded), ?_⟩,
    fun name => mem_walk_reported, fun name => mem_walk_expanded,
    fun name => Expr.mem_definedNames_empty, rfl⟩
  rintro rfl
  exact view.walks_walk e expanded

/-- On a view where two names read each other, a name that is expanded from the start is reported
but not looked into. -/
example :
    let view := ((base ∅).bind ⟨"a"⟩ (.combine .union (.read ⟨"b"⟩) (.define ⟨"c"⟩ .empty))).bind
      ⟨"b"⟩ (.read ⟨"a"⟩)
    (view.dependencies .transitive (.read ⟨"b"⟩) ∅).reported.toList = [⟨"a"⟩, ⟨"b"⟩, ⟨"c"⟩] ∧
      (view.dependencies .transitive (.read ⟨"b"⟩) ((∅ : NameSet).insert ⟨"a"⟩)).reported.toList =
        [⟨"a"⟩, ⟨"b"⟩] := by
  decide +kernel

/-- **The transitive dependencies** are the names that an expression leads to, and those that are
defined on the way. -/
theorem mem_reached {view : View} {e : Expr} {name : Name} :
    name ∈ view.reached e ↔ view.Reaches e name ∨ name ∈ view.Definable e := by
  rw [reached, mem_walk_reported]
  constructor
  · rintro ⟨tree, rfl | ⟨via, hvia, htree⟩, hname | hname⟩
    · exact Or.inl (Reaches.direct hname)
    · exact Or.inr (Or.inl hname)
    · exact Or.inl (Reaches.next hvia ⟨tree, htree, hname⟩)
    · exact Or.inr (Or.inr ⟨via, tree, hvia, htree, hname⟩)
  · rintro (hname | hname | ⟨via, b, hvia, hb, hname⟩)
    · cases hname with
      | direct hread _ => exact ⟨e, Or.inl rfl, Or.inl hread⟩
      | @next via _ hvia hread _ =>
          obtain ⟨b, hb, hread⟩ := hread
          exact ⟨b, Or.inr ⟨via, hvia, hb⟩, Or.inl hread⟩
    · exact ⟨e, Or.inl rfl, Or.inr hname⟩
    · exact ⟨b, Or.inr ⟨via, hvia, hb⟩, Or.inr hname⟩

/-- The analysis reports no names but those of the closed sets that hold the expression. -/
theorem Closed.of_mem_reached {readable definable : Set Name} {view : View}
    (h : view.Closed readable definable) {e : Expr} (he : e.Within readable definable) {name : Name}
    (hname : name ∈ view.reached e) : name ∈ readable ∨ name ∈ definable := by
  rcases mem_reached.1 hname with hname | hname | ⟨via, b, hvia, hb, hname⟩
  · exact Or.inl (h.of_reaches he.reads hname)
  · exact Or.inr (he.targets name hname)
  · exact Or.inr ((h via (h.of_reaches he.reads hvia) b hb).targets name hname)

theorem mem_reached_of_reaches {view : View} {e : Expr} {name : Name} (h : view.Reaches e name) :
    name ∈ view.reached e :=
  mem_reached.2 (Or.inl h)

/-- A path from a name shows among the dependencies of what stands for it. -/
theorem mem_reached_of_transGen {view : View} {name target : Name}
    (h : Relation.TransGen view.Reads name target) : target ∈ view.reached (view.meaning name) :=
  mem_reached_of_reaches (reaches_meaning_iff.2 h)

theorem mem_reached_of_mem_targets {view : View} {e : Expr} {name : Name}
    (h : name ∈ e.targets) : name ∈ view.reached e :=
  mem_reached.2 (Or.inr (Or.inl h))

end View

end Roster
