/-
**Evaluation without definitions.**

Where nothing is defined, an expression denotes a set of addresses in the view as it stands, by a
plain recursion that changes nothing.  An evaluation does change the view, since the first read of
an unbound name binds it; but it binds it to the empty list, which an unbound name stands for
anyway.  So each operand finds the meanings that the view had in the beginning, whatever has been
read before it, and the evaluation gives the set that the expression denotes.

Every operand is evaluated, also those of a sequence and of a composition that contribute nothing to
the set.  Hence the evaluation reads all names that the expression leads to, and binds those among
them that were unbound.

Main definitions:

* `View.Denotes`: the set of addresses of an expression in a view;
* `View.ReadsOnly`: an expression leads to no definition;
* `Denoted`: the outcome of a run without definitions.

Main results:

* `View.Denotes.unique`, `View.Denotes.congr_on`: an expression denotes one set at most, and which
  one depends on the meanings of a closed set of names only;
* `CleanRun.of_closed`: without definitions every run is clean;
* `evaluate_denotes`: what an evaluation gives and touches if it ends;
* `evaluate_reads_only`: **an evaluation without definitions** ends well with the set that the
  expression denotes, binds exactly the unbound names that the analysis reports, and does no more
  when it is repeated.
-/

import Roster.Proofs.Evaluation.Termination

set_option relaxedAutoImplicit false
set_option autoImplicit false

namespace Roster

open View

/-! ### The set that an expression denotes -/

namespace View

/-- The addresses of an expression in a view that stays as it is.  Definitions have none. -/
inductive Denotes (view : View) : Expr → AddressSet → Prop
  | address (text : String) : Denotes view (.address text) {text}
  | empty : Denotes view .empty ∅
  | bound {name : Name} {e : Expr} {set : AddressSet} : view.lookup name = some e →
      Denotes view e set → Denotes view (.read name) set
  | unbound {name : Name} : view.lookup name = none → Denotes view (.read name) ∅
  | union {left right : Expr} {first second : AddressSet} : Denotes view left first →
      Denotes view right second → Denotes view (.combine .union left right) (first ∪ second)
  | intersection {left right : Expr} {first second : AddressSet} : Denotes view left first →
      Denotes view right second →
        Denotes view (.combine .intersection left right) (first ∩ second)
  | difference {left right : Expr} {first second : AddressSet} : Denotes view left first →
      Denotes view right second →
        Denotes view (.combine .difference left right) (first \ second)
  | sequence {left right : Expr} {second : AddressSet} : Denotes view right second →
      Denotes view (.combine .sequence left right) second
  | parallel {left right : Expr} : Denotes view (.combine .parallel left right) ∅

variable {view other : View} {e left right : Expr} {set set' first second : AddressSet}

theorem Denotes.combine {op : Operator} (hl : view.Denotes left first)
    (hr : view.Denotes right second) :
    view.Denotes (.combine op left right) (op.onSets first second) := by
  cases op with
  | union => exact hl.union hr
  | difference => exact hl.difference hr
  | intersection => exact hl.intersection hr
  | sequence => exact hr.sequence
  | parallel => exact Denotes.parallel

/-- An expression denotes one set at most. -/
theorem Denotes.unique (h : view.Denotes e set) (h' : view.Denotes e set') : set = set' := by
  induction h generalizing set' with
  | address text =>
      cases h'
      rfl
  | empty =>
      cases h'
      rfl
  | bound hlookup _ ih =>
      cases h' with
      | bound hlookup' h' =>
          rw [hlookup] at hlookup'
          cases hlookup'
          exact ih h'
      | unbound hlookup' =>
          rw [hlookup] at hlookup'
          cases hlookup'
  | unbound hlookup =>
      cases h' with
      | bound hlookup' _ =>
          rw [hlookup] at hlookup'
          cases hlookup'
      | unbound _ => rfl
  | union _ _ ihl ihr =>
      cases h' with
      | union hl hr => rw [ihl hl, ihr hr]
  | intersection _ _ ihl ihr =>
      cases h' with
      | intersection hl hr => rw [ihl hl, ihr hr]
  | difference _ _ ihl ihr =>
      cases h' with
      | difference hl hr => rw [ihl hl, ihr hr]
  | sequence _ ih =>
      cases h' with
      | sequence hr => exact ih hr
  | parallel =>
      cases h'
      rfl

/-- A read denotes what stands for the name. -/
theorem Denotes.of_meaning {name : Name} (h : view.Denotes (view.meaning name) set) :
    view.Denotes (.read name) set := by
  cases hlookup : view.lookup name with
  | some b =>
      rw [meaning_of_lookup hlookup] at h
      exact Denotes.bound hlookup h
  | none =>
      rw [meaning_of_unbound hlookup] at h
      cases h
      exact Denotes.unbound hlookup

/-- Only the meanings of a closed set of names that holds its reads matter for the set that an
expression denotes. -/
theorem Denotes.congr_on {readable definable : Set Name} (h : view.Denotes e set)
    (hview : view.Closed readable definable) (hsame : SameOn readable view other)
    (he : ∀ name ∈ e.reads, name ∈ readable) : other.Denotes e set := by
  induction h with
  | address text => exact Denotes.address text
  | empty => exact Denotes.empty
  | @bound name b set hlookup _ ih =>
      have hname : name ∈ readable := he name List.mem_cons_self
      refine Denotes.of_meaning ?_
      rw [← hsame name hname, meaning_of_lookup hlookup]
      exact ih (hview name hname b hlookup).reads
  | @unbound name hlookup =>
      refine Denotes.of_meaning ?_
      rw [← hsame name (he name List.mem_cons_self), meaning_of_unbound hlookup]
      exact Denotes.empty
  | union _ _ ihl ihr =>
      obtain ⟨hl, hr⟩ := List.forall_mem_append.1 he
      exact (ihl hl).union (ihr hr)
  | intersection _ _ ihl ihr =>
      obtain ⟨hl, hr⟩ := List.forall_mem_append.1 he
      exact (ihl hl).intersection (ihr hr)
  | difference _ _ ihl ihr =>
      obtain ⟨hl, hr⟩ := List.forall_mem_append.1 he
      exact (ihl hl).difference (ihr hr)
  | sequence _ ih => exact (ih (List.forall_mem_append.1 he).2).sequence
  | parallel => exact Denotes.parallel

/-- Views in which all names mean the same give the same sets. -/
theorem Denotes.congr (h : view.Denotes e set)
    (hmeaning : ∀ name, view.meaning name = other.meaning name) : other.Denotes e set :=
  h.congr_on (closed_univ view) (fun name _ => hmeaning name) (by simp)

/-! ### Expressions that lead to no definition -/

/-- No definition stands in an expression, nor in what is bound to the names that it leads to. -/
structure ReadsOnly (view : View) (e : Expr) : Prop where
  text : e.DefineFree
  bindings : ∀ name, view.Reaches e name → ∀ b, view.lookup name = some b → b.DefineFree

theorem ReadsOnly.within (h : view.ReadsOnly e) : e.Within (view.Reaches e) ∅ := by
  refine ⟨fun name hname => Reaches.direct hname, fun name hname => ?_⟩
  rw [h.text] at hname
  cases hname

theorem ReadsOnly.closed (h : view.ReadsOnly e) : view.Closed (view.Reaches e) ∅ := by
  intro name hname b hb
  refine ⟨fun other hother => hname.next ⟨b, hb, hother⟩, fun other hother => ?_⟩
  rw [h.bindings name hname b hb] at hother
  cases hother

/-- Without definitions the analysis reports the names that an expression leads to. -/
theorem ReadsOnly.mem_reached_iff (h : view.ReadsOnly e) {name : Name} :
    name ∈ view.reached e ↔ view.Reaches e name := by
  rw [mem_reached]
  refine or_iff_left ?_
  rintro (hname | ⟨via, b, hvia, hb, hname⟩)
  · exact h.within.targets name hname
  · exact (h.closed via hvia b hb).targets name hname

theorem reaches_iff_of_meaning (h : ∀ name, view.meaning name = other.meaning name) {name : Name} :
    view.Reaches e name ↔ other.Reaches e name := by
  constructor
  · exact Reaches.congr (closed_univ view) (fun name _ => h name) (by simp)
  · exact Reaches.congr (closed_univ other) (fun name _ => (h name).symm) (by simp)

/-! ### Effects without definitions -/

section

variable {readable touched : Set Name} {writes : Environment}

/-- Where nothing can be defined, nothing changes its meaning. -/
theorem Effect.meaning_eq (h : Effect readable ∅ touched view writes) (name : Name) :
    view.meaning name = (view.bindAll writes).meaning name :=
  (h.meaning (Set.notMem_empty name)).symm

/-- Where nothing can be defined, an unbound name that is touched becomes bound. -/
theorem Effect.lookup_of_touched (h : Effect readable ∅ touched view writes) {name : Name}
    (htouched : name ∈ touched) (hunbound : view.lookup name = .none) :
    (view.bindAll writes).lookup name = some .empty := by
  have hwrites := (h.fresh name (Set.notMem_empty name) .empty).2 ⟨htouched, hunbound, rfl⟩
  rw [lookup_bindAll, hwrites, Option.some_or]

/-- Where nothing can be defined, every other name is bound as before. -/
theorem Effect.lookup_of_not_touched (h : Effect readable ∅ touched view writes) {name : Name}
    (hname : ¬ (name ∈ touched ∧ view.lookup name = .none)) :
    (view.bindAll writes).lookup name = view.lookup name := by
  rw [lookup_bindAll]
  cases hwrites : writes[name]? with
  | none => rw [Option.none_or]
  | some b =>
      obtain ⟨htouched, hunbound, -⟩ := (h.fresh name (Set.notMem_empty name) b).1 hwrites
      exact absurd ⟨htouched, hunbound⟩ hname

end

end View

/-! ### Runs without definitions -/

section

variable {readable : Set Name} {view : View} {e : Expr} {budget : ℕ}

/-- What a side writes without definitions is clean: it has only bound unbound names. -/
theorem cleanWrites_of_closed {side : Expr} {writes : Environment}
    (hclosed : view.Closed readable ∅) (hwithin : side.Within readable ∅)
    (h : sideWrites budget side view = .ok writes) : CleanWrites view side writes := by
  obtain ⟨touched, heffect⟩ := sideWrites_effect hclosed hwithin h
  intro name b hb
  exact Or.inr (heffect.eq_empty (Set.notMem_empty name) hb).2

/-- Without definitions every run is clean. -/
theorem CleanRun.of_closed (hclosed : view.Closed readable ∅) (hwithin : e.Within readable ∅) :
    CleanRun budget e view := by
  intro commit hcommit
  induction hcommit with
  | read he _ ih => exact ih hclosed (hclosed _ (Expr.within_read.1 hwithin) _ he)
  | left _ _ ih => exact ih hclosed (Expr.within_combine.1 hwithin).1
  | @right budget op left right view middle first commit _ hleft _ ih =>
      obtain ⟨hl, hr⟩ := Expr.within_combine.1 hwithin
      have hmiddle := hclosed.evaluate budget hl
      rw [hleft] at hmiddle
      exact ih hmiddle hr
  | leftSide _ _ ih => exact ih hclosed.overlay (Expr.within_combine.1 hwithin).1
  | rightSide _ _ ih => exact ih hclosed.overlay (Expr.within_combine.1 hwithin).2
  | join _ hl hr =>
      obtain ⟨hleft, hright⟩ := Expr.within_combine.1 hwithin
      exact ⟨cleanWrites_of_closed hclosed hleft hl, cleanWrites_of_closed hclosed hright hr⟩
  | body _ _ _ => exact absurd (Expr.within_define.1 hwithin).1 (Set.notMem_empty _)

/-- The outcome of a run without definitions: it ends well with the set that the expression denotes,
and has touched the names that the expression leads to. -/
structure Denoted (readable : Set Name) (view : View) (e : Expr)
    (run : Except Stop AddressSet × View) (addresses : AddressSet) (touched : Set Name)
    (writes : Environment) : Prop where
  run : run = (.ok addresses, view.bindAll writes)
  denotes : view.Denotes e addresses
  reads : ∀ name, name ∈ touched ↔ view.Reaches e name
  effect : Effect readable ∅ touched view writes

theorem evaluate_denotes_read {name : Name} (hname : name ∈ readable)
    (h : ∀ b, view.lookup name = some b → ∃ addresses touched writes,
      Denoted readable view b (evaluate budget b view) addresses touched writes) :
    ∃ addresses touched writes, Denoted readable view (.read name)
      (evaluate (budget + 1) (.read name) view) addresses touched writes := by
  cases hlookup : view.lookup name with
  | none =>
      refine ⟨∅, {name}, (∅ : Environment).insert name .empty, ?_, Denotes.unbound hlookup, ?_,
        Effect.first_read hname hlookup⟩
      · rw [evaluate_read_of_none hlookup, ← bind_bindAll, bindAll_empty]
      · intro other
        rw [reaches_read_iff, meaning_of_unbound hlookup, Set.mem_singleton_iff]
        exact (or_iff_left (not_reaches_of_reads_eq_nil rfl)).symm
  | some b =>
      obtain ⟨addresses, touched, writes, hb⟩ := h b hlookup
      have hread : Effect readable ∅ {name} view ∅ :=
        Effect.read_bound hname (by simp [hlookup])
      have heffect : Effect readable ∅ touched (view.bindAll ∅) writes := by
        rw [bindAll_empty]
        exact hb.effect
      refine ⟨addresses, {name} ∪ touched, ∅ ∪ writes, ?_, Denotes.bound hlookup hb.denotes, ?_,
        hread.trans heffect⟩
      · rw [evaluate_read_of_some hlookup, hb.run, ← bindAll_bindAll, bindAll_empty]
      · intro other
        rw [reaches_read_iff, meaning_of_lookup hlookup, Set.mem_union, Set.mem_singleton_iff,
          hb.reads]

theorem evaluate_denotes_combine {op : Operator} {left right : Expr} (hop : op ≠ .parallel)
    {first : AddressSet} {touched : Set Name} {writes : Environment}
    (hleft : Denoted readable view left (evaluate budget left view) first touched writes)
    (hright : ∃ second touched' more, Denoted readable (view.bindAll writes) right
      (evaluate budget right (view.bindAll writes)) second touched' more) :
    ∃ addresses touched writes, Denoted readable view (.combine op left right)
      (evaluate budget (.combine op left right) view) addresses touched writes := by
  obtain ⟨second, touched', more, hright⟩ := hright
  -- the right operand is evaluated in another view, in which all names mean what they did before
  have hmeaning := hleft.effect.meaning_eq
  refine ⟨op.onSets first second, touched ∪ touched', writes ∪ more, ?_,
    hleft.denotes.combine (hright.denotes.congr fun name => (hmeaning name).symm), ?_,
    hleft.effect.trans hright.effect⟩
  · rw [evaluate_combine_of_ok hop hleft.run, hright.run, bindAll_bindAll]
    rfl
  · intro name
    rw [reaches_combine_iff, Set.mem_union, hleft.reads, hright.reads,
      reaches_iff_of_meaning (e := right) hmeaning]

theorem evaluate_denotes_parallel {left right : Expr}
    (hallow : view.allowParallel left right = .ok ())
    (hleft : ∃ first touched writes, Denoted readable (overlay ∅ view) left
      (evaluate budget left (overlay ∅ view)) first touched writes)
    (hright : ∃ second touched writes, Denoted readable (overlay ∅ view) right
      (evaluate budget right (overlay ∅ view)) second touched writes) :
    ∃ addresses touched writes, Denoted readable view (.combine .parallel left right)
      (evaluate budget (.combine .parallel left right) view) addresses touched writes := by
  obtain ⟨first, touched, writes, hleft⟩ := hleft
  obtain ⟨second, touched', more, hright⟩ := hright
  have hl : sideWrites budget left view = .ok writes := by
    rw [sideWrites_of_ok hleft.run, top_bindAll_overlay_empty]
  have hr : sideWrites budget right view = .ok more := by
    rw [sideWrites_of_ok hright.run, top_bindAll_overlay_empty]
  refine ⟨∅, touched ∪ touched', writes ∪ more, ?_, Denotes.parallel, ?_,
    (hleft.effect.congr (lookup_overlay_empty view)).union
      (hright.effect.congr (lookup_overlay_empty view))⟩
  · rw [evaluate_parallel_of_ok hallow hl hr, bindAll_bindAll]
  · intro name
    rw [reaches_combine_iff, Set.mem_union, hleft.reads, hright.reads,
      reaches_iff_of_meaning view.meaning_overlay_empty,
      reaches_iff_of_meaning view.meaning_overlay_empty]

/-- **What a run without definitions gives if it ends.** -/
theorem evaluate_denotes (budget : ℕ) (e : Expr) (view : View) (hclosed : view.Closed readable ∅)
    (hwithin : e.Within readable ∅) (hends : (evaluate budget e view).1 ≠ .error .exhausted) :
    ∃ addresses touched writes,
      Denoted readable view e (evaluate budget e view) addresses touched writes := by
  induction budget, e using evaluation_induction generalizing view with
  | address budget text =>
      refine ⟨{text}, ∅, ∅, ?_, Denotes.address text, fun name => ?_, Effect.none view⟩
      · rw [evaluate_address, bindAll_empty]
      · exact iff_of_false (Set.notMem_empty name) (not_reaches_of_reads_eq_nil rfl)
  | empty budget =>
      refine ⟨∅, ∅, ∅, ?_, Denotes.empty, fun name => ?_, Effect.none view⟩
      · rw [evaluate_empty, bindAll_empty]
      · exact iff_of_false (Set.notMem_empty name) (not_reaches_of_reads_eq_nil rfl)
  | exhausted name =>
      exact absurd rfl hends
  | read budget name ih =>
      have hname : name ∈ readable := Expr.within_read.1 hwithin
      refine evaluate_denotes_read hname fun b hb => ?_
      rw [evaluate_read_of_some hb] at hends
      exact ih b view hclosed (hclosed name hname b hb) hends
  | combine budget op left right hop ihl ihr =>
      obtain ⟨hl, hr⟩ := Expr.within_combine.1 hwithin
      have hleft : (evaluate budget left view).1 ≠ .error .exhausted := by
        intro hex
        rw [evaluate_combine_of_error hop (Prod.ext hex rfl)] at hends
        exact hends rfl
      obtain ⟨first, touched, writes, hleft⟩ := ihl view hclosed hl hleft
      refine evaluate_denotes_combine hop hleft ?_
      refine ihr _ (hclosed.after hleft.effect) hr fun hex => ?_
      rw [evaluate_combine_of_ok hop hleft.run, hex] at hends
      exact hends rfl
  | parallel budget left right ihl ihr =>
      obtain ⟨hl, hr⟩ := Expr.within_combine.1 hwithin
      have hallow : view.allowParallel left right = .ok () := allowParallel_eq_ok_iff.2
        ⟨fun name hname => absurd (hr.targets name hname) (Set.notMem_empty name),
          fun name hname => absurd (hl.targets name hname) (Set.notMem_empty name)⟩
      -- a side that has run out of its budget would have exhausted the whole composition
      have hsides : ¬ (sideWrites budget left view = .error .exhausted ∨
          sideWrites budget right view = .error .exhausted) := by
        intro hex
        rw [evaluate_parallel_of_error hallow (EvalM.join_eq_exhausted_iff.2 hex)] at hends
        exact hends rfl
      rw [not_or, sideWrites_eq_error_iff, sideWrites_eq_error_iff] at hsides
      exact evaluate_denotes_parallel hallow (ihl _ hclosed.overlay hl hsides.1)
        (ihr _ hclosed.overlay hr hsides.2)
  | define budget name body _ =>
      exact absurd (Expr.within_define.1 hwithin).1 (Set.notMem_empty name)

/-- A run that touches no unbound name writes nothing. -/
theorem Denoted.writes_eq_empty {run : Except Stop AddressSet × View} {addresses : AddressSet}
    {touched : Set Name} {writes : Environment}
    (h : Denoted readable view e run addresses touched writes)
    (hbound : ∀ name, view.Reaches e name → view.lookup name ≠ none) : writes = ∅ := by
  refine Std.ExtTreeMap.ext_getElem? fun name => ?_
  rw [Std.ExtTreeMap.getElem?_empty, Option.eq_none_iff_forall_ne_some]
  intro b hb
  obtain ⟨htouched, hunbound, -⟩ := (h.effect.fresh name (Set.notMem_empty name) b).1 hb
  exact hbound name ((h.reads name).1 htouched) hunbound

/-- What has been evaluated without definitions gives the same set again, and changes nothing, as
all names that are read are bound by then. -/
theorem Denoted.again {addresses : AddressSet} {touched : Set Name} {writes : Environment}
    (h : Denoted readable view e (evaluate budget e view) addresses touched writes)
    (hclosed : view.Closed readable ∅) (hwithin : e.Within readable ∅)
    (hends : (evaluate budget e (view.bindAll writes)).1 ≠ .error .exhausted) :
    evaluate budget e (view.bindAll writes) = (.ok addresses, view.bindAll writes) := by
  have hmeaning := h.effect.meaning_eq
  obtain ⟨addresses', touched', more, h'⟩ :=
    evaluate_denotes budget e _ (hclosed.after h.effect) hwithin hends
  obtain rfl : addresses = addresses' := (h.denotes.congr hmeaning).unique h'.denotes
  have hmore : more = ∅ := h'.writes_eq_empty fun name hname hunbound => by
    rw [← reaches_iff_of_meaning hmeaning, ← h.reads] at hname
    exact ((h.effect.lookup_eq_none_iff (Set.notMem_empty name)).1 hunbound).2 hname
  rw [h'.run, hmore, bindAll_empty]

/-- **An evaluation without definitions**, in a view without loops, ends well with the set that the
expression denotes.  Afterwards the unbound names among those that the analysis reports are bound to
the empty list, and all other names are bound as before.  A second evaluation gives the same set and
changes nothing. -/
theorem evaluate_reads_only (hview : view.Acyclic) (hreads : view.ReadsOnly e)
    (hbudget : (view.reached e).size ≤ budget) :
    ∃ addresses after, evaluate budget e view = (.ok addresses, after) ∧
      (∀ set, view.Denotes e set ↔ set = addresses) ∧
      (∀ name, after.lookup name =
        if name ∈ view.reached e ∧ view.lookup name = none then some .empty
        else view.lookup name) ∧
      evaluate budget e after = (.ok addresses, after) := by
  have hclosed := hreads.closed
  have hends := (CleanRun.of_closed hclosed hreads.within).not_exhausted hview hbudget
  obtain ⟨addresses, touched, writes, h⟩ :=
    evaluate_denotes budget e view hclosed hreads.within hends
  have htouched : ∀ name, name ∈ touched ↔ name ∈ view.reached e := fun name =>
    (h.reads name).trans hreads.mem_reached_iff.symm
  refine ⟨addresses, view.bindAll writes, h.run, fun set => ?_, fun name => ?_, ?_⟩
  · constructor
    · intro hset
      exact hset.unique h.denotes
    · rintro rfl
      exact h.denotes
  · split
    · rename_i hfresh
      exact h.effect.lookup_of_touched ((htouched name).2 hfresh.1) hfresh.2
    · rename_i hold
      rw [← htouched] at hold
      exact h.effect.lookup_of_not_touched hold
  · -- the second evaluation depends on the same names, so the same budget is enough for it
    have hmeaning := h.effect.meaning_eq
    have hreached : view.reached e = (view.bindAll writes).reached e :=
      reached_congr hclosed (fun name _ => hmeaning name) hreads.within.reads
    refine h.again hclosed hreads.within ?_
    exact (CleanRun.of_closed (hclosed.after h.effect) hreads.within).not_exhausted
      (hview.congr hmeaning) (hreached ▸ hbudget)

/-- A composition, of which nothing remains but first reads, before a list that reads another. -/
theorem evaluate_reads_only_first_reads :
    ((base ∅).bind ⟨"x"⟩ (.read ⟨"y"⟩)).Acyclic ∧
      ((base ∅).bind ⟨"x"⟩ (.read ⟨"y"⟩)).ReadsOnly
        (.combine .sequence (.combine .parallel (.read ⟨"u"⟩) (.address "a@b")) (.read ⟨"x"⟩)) ∧
      ∃ addresses after,
        evaluate 3 (.combine .sequence (.combine .parallel (.read ⟨"u"⟩) (.address "a@b"))
            (.read ⟨"x"⟩)) ((base ∅).bind ⟨"x"⟩ (.read ⟨"y"⟩)) = (.ok addresses, after) ∧
          evaluate 3 (.combine .sequence (.combine .parallel (.read ⟨"u"⟩) (.address "a@b"))
            (.read ⟨"x"⟩)) after = (.ok addresses, after) := by
  have hview : ((base ∅).bind ⟨"x"⟩ (.read ⟨"y"⟩)).Acyclic := acyclic_empty.define rfl
  have hreads : ((base ∅).bind ⟨"x"⟩ (.read ⟨"y"⟩)).ReadsOnly
      (.combine .sequence (.combine .parallel (.read ⟨"u"⟩) (.address "a@b")) (.read ⟨"x"⟩)) := by
    refine ⟨rfl, fun name _ b hb => ?_⟩
    rw [lookup_bind] at hb
    split at hb
    · cases hb
      rfl
    · simp at hb
  have hbudget : (((base ∅).bind ⟨"x"⟩ (.read ⟨"y"⟩)).reached (.combine .sequence
      (.combine .parallel (.read ⟨"u"⟩) (.address "a@b")) (.read ⟨"x"⟩))).size ≤ 3 := by
    decide +kernel
  obtain ⟨addresses, after, hrun, -, -, hagain⟩ := evaluate_reads_only hview hreads hbudget
  exact ⟨hview, hreads, addresses, after, hrun, hagain⟩

end

end Roster
