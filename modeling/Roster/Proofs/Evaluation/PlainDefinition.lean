/-
**Plain definitions: refused at once, or read back as they were evaluated.**

The definition of a name is plain if its body leads to no further definition.  Two things about it
are not obvious, as it works with two expressions and two views.

It is checked twice: before the body is evaluated, and again afterwards, when first reads have bound
names and the reads of the name itself have given way to its former binding.  If the second check
could refuse what the first one has let pass, a failing definition would leave half of its effects.
It cannot.  The evaluation of the body changes no meaning, and what the snapshot reads beyond the
body is read by the former binding of the name; a path from there to the name would have been a
loop.

The addresses of the definition are those of the body, in the view before, while a later read
evaluates the snapshot in the view afterwards.  Both are the same, since an expression denotes the
same set if the reads of a name are replaced by what stands for it, and the snapshot does not lead
to the one name that has changed its meaning.

Main definitions:

* `View.LeadsBack`, `View.FirstBack`: a read that would close a loop, and the first one in a body.

Main results:

* `View.Denotes.substitute`: **what stands for a name may be written in its place**;
* `View.ReadsOnly.snapshot_eq_error_iff`, `View.ReadsOnly.allowBinding_snapshot`: what the two
  checks of a plain definition ask;
* `define_refused_iff`: **which plain definitions are refused**, and that nothing is left of them;
* `read_of_define`: **what a plain definition gives is what a later read gives**.
-/

import Roster.Proofs.Evaluation.ReadOnly

set_option relaxedAutoImplicit false
set_option autoImplicit false

namespace Roster

open View Relation

section

variable {view : View} {name via : Name} {body snapshot : Expr}

/-- In a view with a single binding there are definitions only in this binding. -/
theorem View.ReadsOnly.bind_empty {e : Expr} (he : e.DefineFree) (hbody : body.DefineFree) :
    ((base ∅).bind name e).ReadsOnly body := by
  refine ⟨hbody, fun other _ b hb => ?_⟩
  rw [lookup_bind] at hb
  split at hb
  · cases hb
    exact he
  · simp at hb

/-! ### Substitution -/

/-- **What stands for a name may be written in its place.** -/
theorem View.Denotes.substitute {e : Expr} {set : AddressSet} (h : view.Denotes e set)
    (name : Name) : view.Denotes (e.substitute name (view.meaning name)) set := by
  induction h with
  | address text => exact Denotes.address text
  | empty => exact Denotes.empty
  | @bound other b set hlookup hb _ =>
      rw [Expr.substitute]
      split
      · rename_i heq
        rwa [← heq, meaning_of_lookup hlookup]
      · exact Denotes.bound hlookup hb
  | @unbound other hlookup =>
      rw [Expr.substitute]
      split
      · rename_i heq
        rw [← heq, meaning_of_unbound hlookup]
        exact Denotes.empty
      · exact Denotes.unbound hlookup
  | union _ _ ihl ihr => exact ihl.union ihr
  | intersection _ _ ihl ihr => exact ihl.intersection ihr
  | difference _ _ ihl ihr => exact ihl.difference ihr
  | sequence _ ih => exact ih.sequence
  | parallel => exact Denotes.parallel

/-! ### The two checks -/

/-- A definition of `name` that reads `via` would close a loop: `via` is another name, and leads
back to `name`. -/
def View.LeadsBack (view : View) (name via : Name) : Prop :=
  via ≠ name ∧ TransGen view.Reads via name

/-- The first read of a body that would close a loop, from left to right. -/
structure View.FirstBack (view : View) (name : Name) (body : Expr) (via : Name) : Prop where
  leadsBack : view.LeadsBack name via
  first : ∃ before after, body.reads = before ++ via :: after ∧
    ∀ other ∈ before, ¬ view.LeadsBack name other

theorem View.FirstBack.mem_reads (h : view.FirstBack name body via) : via ∈ body.reads := by
  obtain ⟨before, after, hreads, -⟩ := h.first
  rw [hreads]
  exact List.mem_append_right _ List.mem_cons_self

/-- What a plain body leads to stands for plain bodies again. -/
theorem View.ReadsOnly.meaning (h : view.ReadsOnly body) (hvia : view.Reaches body via) :
    view.ReadsOnly (view.meaning via) := by
  have hwithin := h.closed.meaning hvia
  refine ⟨List.eq_nil_iff_forall_not_mem.2 fun other hother => hwithin.targets other hother,
    fun other hother => h.bindings other (h.closed.of_reaches hwithin.reads hother)⟩

/-- Without definitions on the way the analysis finds the paths through reads, and nothing else. -/
theorem View.ReadsOnly.mem_reached_meaning_iff (h : view.ReadsOnly body)
    (hvia : view.Reaches body via) :
    name ∈ view.reached (view.meaning via) ↔ TransGen view.Reads via name :=
  (h.meaning hvia).mem_reached_iff.trans reaches_meaning_iff

theorem View.ReadsOnly.leadsBack_iff (h : view.ReadsOnly body) (hvia : via ∈ body.reads) :
    view.LeadsBack name via ↔ via ≠ name ∧ name ∈ view.reached (view.meaning via) :=
  and_congr_right fun _ => (h.mem_reached_meaning_iff (Reaches.direct hvia)).symm

/-- The first check refuses the first read that would close a loop. -/
theorem View.ReadsOnly.snapshot_eq_error_iff (h : view.ReadsOnly body) {error : EvalError} :
    view.snapshot name body = .error error ↔
      ∃ via, view.FirstBack name body via ∧ error = .cycle name via := by
  rw [View.snapshot_eq_error_iff]
  constructor
  · rintro ⟨before, via, after, hreads, hbefore, hne, hreached, rfl⟩
    have hmem : ∀ other ∈ before ++ [via], other ∈ body.reads := fun other hother => by
      rw [hreads, List.append_cons]
      exact List.mem_append_left _ hother
    refine ⟨via, ⟨?_, before, after, hreads, fun other hother hback => ?_⟩, rfl⟩
    · exact (h.leadsBack_iff (hmem via (by simp))).2 ⟨hne, hreached⟩
    · obtain ⟨hne', hreached'⟩ := (h.leadsBack_iff (hmem other (by simp [hother]))).1 hback
      exact hbefore other hother hne' hreached'
  · rintro ⟨via, hfirst, rfl⟩
    obtain ⟨hne, hreached⟩ := (h.leadsBack_iff hfirst.mem_reads).1 hfirst.leadsBack
    obtain ⟨before, after, hreads, hbefore⟩ := hfirst.first
    refine ⟨before, via, after, hreads, fun other hother hne' hreached' => ?_, hne, hreached, rfl⟩
    have hmem : other ∈ body.reads := by
      rw [hreads]
      exact List.mem_append_left _ hother
    exact hbefore other hother ((h.leadsBack_iff hmem).2 ⟨hne', hreached'⟩)

/-- The second check refuses nothing that the first one has let pass: the snapshot reads what the
body reads, and what the former binding of the name reads. -/
theorem View.ReadsOnly.allowBinding_snapshot (h : view.ReadsOnly body) (hview : view.Acyclic)
    (hsnapshot : view.snapshot name body = .ok snapshot) :
    view.allowBinding name snapshot = .ok () := by
  obtain ⟨hbody, rfl⟩ := snapshot_eq_ok_iff.1 hsnapshot
  refine allowBinding_eq_ok_iff.2 fun via hvia => ?_
  rcases Expr.mem_reads_substitute.1 hvia with ⟨hvia, hne⟩ | ⟨hname, hformer⟩
  · exact ⟨hne, hbody via hvia hne⟩
  · have hread : view.Reads name via := reads_iff.2 hformer
    refine ⟨?_, fun hreached => hview name (TransGen.head hread ?_)⟩
    · rintro rfl
      exact hview via (TransGen.single hread)
    · exact (h.mem_reached_meaning_iff ((Reaches.direct hname).next hread)).1 hreached

/-! ### Refusal -/

section

variable {run : Except Stop AddressSet × View} {addresses : AddressSet} {touched : Set Name}
  {writes : Environment} {budget : ℕ}

/-- The second check finds the meanings that the first one has found. -/
theorem Denoted.allowBinding_snapshot {readable : Set Name}
    (hbody : Denoted readable view body run addresses touched writes)
    (hview : view.Acyclic) (hreads : view.ReadsOnly body)
    (hsnapshot : view.snapshot name body = .ok snapshot) :
    (view.bindAll writes).allowBinding name snapshot = .ok () := by
  rw [← allowBinding_congr (closed_univ view) (fun other _ => hbody.effect.meaning_eq other)
    (by simp)]
  exact hreads.allowBinding_snapshot hview hsnapshot

/-- A plain definition that passes the first check ends well. -/
theorem View.ReadsOnly.exists_evaluate_define (hreads : view.ReadsOnly body) (hview : view.Acyclic)
    (hbudget : (view.reached body).size ≤ budget)
    (hsnapshot : view.snapshot name body = .ok snapshot) :
    ∃ addresses after, evaluate budget (.define name body) view = (.ok addresses, after) := by
  have hends := (CleanRun.of_closed hreads.closed hreads.within).not_exhausted hview hbudget
  obtain ⟨addresses, touched, writes, hbody⟩ :=
    evaluate_denotes budget body view hreads.closed hreads.within hends
  exact ⟨addresses, _, evaluate_define_of_ok hsnapshot hbody.run
    (hbody.allowBinding_snapshot hview hreads hsnapshot)⟩

/-- **Which plain definitions are refused**, in a view without loops: exactly those whose body reads
another name that leads back to the name to be defined.  The first such read is reported, and the
view is left as it was, without as much as a first read.  Reads of the name itself do not count. -/
theorem define_refused_iff (hview : view.Acyclic) (hreads : view.ReadsOnly body)
    (hbudget : (view.reached body).size ≤ budget) (name : Name) :
    ((∃ stop, (evaluate budget (.define name body) view).1 = .error stop) ↔
        ∃ via ∈ body.reads, view.LeadsBack name via) ∧
      ∀ stop after, evaluate budget (.define name body) view = (.error stop, after) →
        after = view ∧ ∃ via, view.FirstBack name body via ∧ stop = .failed (.cycle name via) := by
  cases hsnapshot : view.snapshot name body with
  | error error =>
      obtain ⟨via, hfirst, rfl⟩ := hreads.snapshot_eq_error_iff.1 hsnapshot
      rw [evaluate_define_of_refused hsnapshot]
      refine ⟨iff_of_true ⟨_, rfl⟩ ⟨via, hfirst.mem_reads, hfirst.leadsBack⟩, ?_⟩
      rintro stop after ⟨⟩
      exact ⟨rfl, via, hfirst, rfl⟩
  | ok snapshot =>
      obtain ⟨addresses, after, hrun⟩ := hreads.exists_evaluate_define hview hbudget hsnapshot
      have hnone : ¬ ∃ via ∈ body.reads, view.LeadsBack name via := by
        rintro ⟨via, hvia, hback⟩
        obtain ⟨hne, hreached⟩ := (hreads.leadsBack_iff hvia).1 hback
        exact (snapshot_eq_ok_iff.1 hsnapshot).1 via hvia hne hreached
      rw [hrun]
      refine ⟨iff_of_false ?_ hnone, ?_⟩
      · rintro ⟨stop, ⟨⟩⟩
      · rintro stop after ⟨⟩

/-- The body reads its own name, an unbound name, and a list that reads the name to be defined: only
the last read is to blame, and the unbound name stays unbound. -/
theorem define_refused_iff_own_read :
    ((base ∅).bind ⟨"x"⟩ (.read ⟨"y"⟩)).Acyclic ∧
      ((base ∅).bind ⟨"x"⟩ (.read ⟨"y"⟩)).ReadsOnly
        (.combine .union (.read ⟨"y"⟩) (.combine .union (.read ⟨"c"⟩) (.read ⟨"x"⟩))) ∧
      (∃ via ∈ (Expr.combine .union (.read ⟨"y"⟩)
          (.combine .union (.read ⟨"c"⟩) (.read ⟨"x"⟩))).reads,
        ((base ∅).bind ⟨"x"⟩ (.read ⟨"y"⟩)).LeadsBack ⟨"y"⟩ via) ∧
      ∃ via, ((base ∅).bind ⟨"x"⟩ (.read ⟨"y"⟩)).FirstBack ⟨"y"⟩
          (.combine .union (.read ⟨"y"⟩) (.combine .union (.read ⟨"c"⟩) (.read ⟨"x"⟩))) via ∧
        evaluate 3 (.define ⟨"y"⟩ (.combine .union (.read ⟨"y"⟩)
            (.combine .union (.read ⟨"c"⟩) (.read ⟨"x"⟩)))) ((base ∅).bind ⟨"x"⟩ (.read ⟨"y"⟩)) =
          (.error (.failed (.cycle ⟨"y"⟩ via)), (base ∅).bind ⟨"x"⟩ (.read ⟨"y"⟩)) := by
  have hview : ((base ∅).bind ⟨"x"⟩ (.read ⟨"y"⟩)).Acyclic := acyclic_empty.define rfl
  have hreads : ((base ∅).bind ⟨"x"⟩ (.read ⟨"y"⟩)).ReadsOnly
      (.combine .union (.read ⟨"y"⟩) (.combine .union (.read ⟨"c"⟩) (.read ⟨"x"⟩))) :=
    .bind_empty rfl rfl
  have hbudget : (((base ∅).bind ⟨"x"⟩ (.read ⟨"y"⟩)).reached (.combine .union (.read ⟨"y"⟩)
      (.combine .union (.read ⟨"c"⟩) (.read ⟨"x"⟩)))).size ≤ 3 := by
    decide +kernel
  obtain ⟨hrefused, hblamed⟩ := define_refused_iff hview hreads hbudget ⟨"y"⟩
  obtain ⟨-, via, hvia, hstop⟩ := hblamed _ _ rfl
  cases hstop
  exact ⟨hview, hreads, hrefused.1 ⟨_, rfl⟩, _, hvia, rfl⟩

/-! ### Reading back -/

/-- A name denotes what is bound to it, if that does not lead to the name. -/
theorem View.Denotes.bind {e : Expr} {set : AddressSet} (h : view.Denotes e set)
    (hname : ¬ view.Reaches e name) : (view.bind name e).Denotes (.read name) set := by
  have hsame : SameOn (view.Reaches e) view (view.bind name e) := by
    intro other hother
    rw [meaning_bind, if_neg]
    rintro rfl
    exact hname hother
  refine Denotes.bound (by rw [lookup_bind, if_pos rfl]) ?_
  exact h.congr_on (view.closed_reaches e) hsame fun _ => Reaches.direct

/-- A closed set of names is closed with a name that is bound to an expression within it. -/
theorem View.Closed.bind {readable definable : Set Name} (hview : view.Closed readable definable)
    {e : Expr} (he : e.Within readable definable) :
    (view.bind name e).Closed (insert name readable) definable := by
  intro other hother b hb
  rw [lookup_bind] at hb
  split at hb
  · cases hb
    exact he.mono (Set.subset_insert name readable) subset_rfl
  · rename_i hne
    have hother : other ∈ readable := hother.resolve_left fun heq => hne heq.symm
    exact (hview other hother b hb).mono (Set.subset_insert name readable) subset_rfl

/-- All names that are read when a plain definition is read back are bound by then: the evaluation
of the body has touched them. -/
theorem Denoted.lookup_ne_none
    (hbody : Denoted (view.Reaches body) view body run addresses touched writes)
    {after : View} (hafter : after = (view.bindAll writes).bind name snapshot)
    (hclosed : after.Closed (insert name (view.Reaches body)) ∅) {other : Name}
    (hother : after.Reaches (.read name) other) : after.lookup other ≠ none := by
  have hcases : other = name ∨ view.Reaches body other :=
    hclosed.of_reaches (e := .read name) (fun _ hread => Or.inl (List.mem_singleton.1 hread)) hother
  rw [hafter, lookup_bind]
  split
  · simp
  · rename_i hne
    have hreaches : view.Reaches body other := hcases.resolve_left fun heq => hne heq.symm
    intro hunbound
    exact ((hbody.effect.lookup_eq_none_iff (Set.notMem_empty other)).1 hunbound).2
      ((hbody.reads other).2 hreaches)

/-- **What a plain definition gives is what a later read gives.**  If the definition ends well, the
name is bound to the body with its former binding in place of its reads, and to read the name gives
the same addresses and changes nothing.  The number of names that the read depends on is budget
enough. -/
theorem read_of_define (hview : view.Acyclic) (hreads : view.ReadsOnly body) {after : View}
    (hrun : evaluate budget (.define name body) view = (.ok addresses, after)) :
    after.lookup name = some (body.substitute name (view.meaning name)) ∧
      ∀ larger, (after.reached (.read name)).size ≤ larger →
        evaluate larger (.read name) after = (.ok addresses, after) := by
  obtain ⟨snapshot, middle, hsnapshot, hrun, hallow, hafter⟩ := of_evaluate_define_eq_ok hrun
  obtain ⟨_, touched, writes, hbody⟩ :=
    evaluate_denotes budget body view hreads.closed hreads.within (by simp [hrun])
  obtain ⟨⟨⟩, rfl⟩ := Prod.mk.inj (hrun.symm.trans hbody.run)
  have hmeaning := hbody.effect.meaning_eq
  have hsubstitute := (snapshot_eq_ok_iff.1 hsnapshot).2
  -- the read denotes what the body denoted, as the snapshot does not lead to its name
  have hdenotes : after.Denotes (.read name) addresses := by
    have hsame := (hbody.denotes.substitute name).congr hmeaning
    rw [hsubstitute] at hsame
    rw [hafter]
    exact hsame.bind (not_reaches_of_allowBinding hallow)
  have hclosed : after.Closed (insert name (view.Reaches body)) ∅ := by
    rw [hafter]
    exact (hreads.closed.after hbody.effect).bind
      (hreads.closed.within_snapshot hreads.within hsnapshot)
  have hacyclic : after.Acyclic := by
    rw [hafter]
    exact (hview.congr hmeaning).define hallow
  have hwithin : (Expr.read name).Within (insert name (view.Reaches body)) ∅ :=
    Expr.within_read.2 (Set.mem_insert name _)
  refine ⟨by rw [hafter, lookup_bind, if_pos rfl, hsubstitute], fun larger hlarger => ?_⟩
  have hends := (CleanRun.of_closed hclosed hwithin).not_exhausted hacyclic hlarger
  obtain ⟨set, _, more, hread⟩ := evaluate_denotes larger (.read name) after hclosed hwithin hends
  obtain rfl := hdenotes.unique hread.denotes
  have hmore : more = ∅ := hread.writes_eq_empty fun other hother =>
    hbody.lookup_ne_none hafter hclosed hother
  rw [hread.run, hmore, bindAll_empty]

/-- A list that read an unbound name is defined anew, with an address more. -/
theorem read_of_define_own_read :
    ((base ∅).bind ⟨"x"⟩ (.read ⟨"y"⟩)).Acyclic ∧
      ((base ∅).bind ⟨"x"⟩ (.read ⟨"y"⟩)).ReadsOnly
        (.combine .union (.read ⟨"x"⟩) (.address "a@b")) ∧
      ∃ addresses after,
        evaluate 2 (.define ⟨"x"⟩ (.combine .union (.read ⟨"x"⟩) (.address "a@b")))
            ((base ∅).bind ⟨"x"⟩ (.read ⟨"y"⟩)) = (.ok addresses, after) ∧
          after.lookup ⟨"x"⟩ = some (.combine .union (.read ⟨"y"⟩) (.address "a@b")) ∧
          evaluate 2 (.read ⟨"x"⟩) after = (.ok addresses, after) := by
  have hview : ((base ∅).bind ⟨"x"⟩ (.read ⟨"y"⟩)).Acyclic := acyclic_empty.define rfl
  have hreads : ((base ∅).bind ⟨"x"⟩ (.read ⟨"y"⟩)).ReadsOnly
      (.combine .union (.read ⟨"x"⟩) (.address "a@b")) := .bind_empty rfl rfl
  have hrun : evaluate 2 (.define ⟨"x"⟩ (.combine .union (.read ⟨"x"⟩) (.address "a@b")))
      ((base ∅).bind ⟨"x"⟩ (.read ⟨"y"⟩)) = (.ok _, _) := rfl
  obtain ⟨hlookup, hread⟩ := read_of_define hview hreads hrun
  exact ⟨hview, hreads, _, _, hrun, hlookup, hread 2 (by decide +kernel)⟩

end

end

end Roster
