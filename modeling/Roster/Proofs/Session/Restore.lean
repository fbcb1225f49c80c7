/-
**Loading a saved session restores it.**

A saved text binds the names in alphabetical order, whatever the order of the definitions was, and
so a line may read names that only later lines bind.  The read binds such a name to the empty list,
and the later line replaces this binding.  While the lines are evaluated, each name is therefore
unbound, or bound to the empty list, or bound as it was when the text was saved.

Such a view on the way back reads no more than the environment that was saved.  A definition in it
finds no loop, since a loop would have been there before; and as no other definition stands in what
is bound, evaluating a body does no more than bind unbound names to the empty list.  So each line
brings its binding back, and no later line takes it away again.

Main definitions:

* `Environment.Restorable`: an environment without loops and nested definitions, all names of which
  are bound;
* `View.Restoring`: a view on the way back to an environment.

Main results:

* `View.Restoring.after_line`: **a line brings its binding back**, and keeps those that are back;
* `Session.evalLines_restoring`: so do all lines together;
* `load_restores`: **what sources have left in a session is restored** by saving it to a file and
  loading the file.
-/

import Roster.Proofs.Evaluation.ReadOnly
import Roster.Proofs.Session.Saving

set_option relaxedAutoImplicit false
set_option autoImplicit false

namespace Roster

open View Relation

/-- An environment that its saved text brings back: there are no loops, no nested definitions and no
names that are not bound. -/
structure Environment.Restorable (env : Environment) : Prop where
  complete : (base env).Complete
  acyclic : (base env).Acyclic
  defineFree : ∀ (name : Name) (e : Expr), env[name]? = some e → e.DefineFree

/-- A view on the way back to an environment: names are bound as they are there, or for the time
being to the empty list. -/
def View.Restoring (env : Environment) (view : View) : Prop :=
  ∀ name e, view.lookup name = some e →
    env[name]? = some e ∨ e = .empty ∧ name ∈ (base env).bound

section

variable {env : Environment} {view : View} {name via : Name} {body : Expr} {budget : ℕ}

theorem Environment.Restorable.within (h : env.Restorable) {e : Expr} (he : env[name]? = some e) :
    e.Within (base env).bound ∅ := by
  refine ⟨(h.complete name e he).reads, fun other hother => ?_⟩
  rw [h.defineFree name e he] at hother
  cases hother

/-- No definition is nested in the bindings on the way back, and all names in them are bound in the
end. -/
theorem View.Restoring.within (hview : view.Restoring env) (henv : env.Restorable) {e : Expr}
    (he : view.lookup name = some e) : e.Within (base env).bound ∅ := by
  rcases hview name e he with he | ⟨rfl, -⟩
  · exact henv.within he
  · exact Expr.within_empty

theorem View.Restoring.closed (hview : view.Restoring env) (henv : env.Restorable) :
    view.Closed (base env).bound ∅ :=
  fun _ _ _ he => hview.within henv he

/-- What is read on the way back is read in the end. -/
theorem View.Restoring.reads (hview : view.Restoring env) (h : view.Reads name via) :
    (base env).Reads name via := by
  obtain ⟨e, he, hvia⟩ := h
  rcases hview name e he with he | ⟨rfl, -⟩
  · exact ⟨e, he, hvia⟩
  · cases hvia

theorem View.Restoring.acyclic (hview : view.Restoring env) (henv : env.Restorable) :
    view.Acyclic := fun name hloop =>
  henv.acyclic name (TransGen.mono (fun _ _ => hview.reads) _ _ hloop)

/-- A name that another one reads in the end never depends on that one, as this would be a loop. -/
theorem View.Restoring.not_mem_reached (hview : view.Restoring env) (henv : env.Restorable)
    (hread : (base env).Reads name via) : name ∉ view.reached (view.meaning via) := by
  -- what `via` leads to in the end is closed on the way
  have hclosed : view.Closed {other | ReflTransGen (base env).Reads via other} ∅ := by
    intro other hother e he
    exact ⟨fun next hnext => hother.tail (hview.reads ⟨e, he, hnext⟩),
      (hview.within henv he).targets⟩
  intro hname
  rcases hclosed.of_mem_reached (hclosed.meaning ReflTransGen.refl) hname with hback | hdefined
  · exact henv.acyclic name (TransGen.head' hread hback)
  · exact hdefined

theorem View.Restoring.bind (hview : view.Restoring env) (hbody : env[name]? = some body) :
    (view.bind name body).Restoring env := by
  intro other e he
  rw [lookup_bind] at he
  split at he
  · rename_i heq
    cases he
    exact Or.inl (heq ▸ hbody)
  · exact hview other e he

/-- The evaluation of a body binds unbound names to the empty list, which is on the way. -/
theorem View.Restoring.after {touched : Set Name} {writes : Environment}
    (hview : view.Restoring env) (h : Effect (base env).bound ∅ touched view writes) :
    (view.bindAll writes).Restoring env := by
  intro other e he
  rw [lookup_bindAll, Option.or_eq_some_iff] at he
  rcases he with he | ⟨-, he⟩
  · obtain ⟨hbound, -, rfl⟩ := h.eq_empty (Set.notMem_empty other) he
    exact Or.inr ⟨rfl, hbound⟩
  · exact hview other e he

/-- The snapshot of a binding that comes back is the binding. -/
theorem View.Restoring.snapshot_eq (hview : view.Restoring env) (henv : env.Restorable)
    (hbody : env[name]? = some body) : view.snapshot name body = .ok body := by
  refine snapshot_eq_ok_iff.2 ⟨fun via hvia _ => hview.not_mem_reached henv ⟨body, hbody, hvia⟩, ?_⟩
  exact Expr.substitute_of_not_mem_reads (fun hname =>
    henv.acyclic name (TransGen.single ⟨body, hbody, hname⟩)) _

theorem View.Restoring.allowBinding_eq (hview : view.Restoring env) (henv : env.Restorable)
    (hbody : env[name]? = some body) : view.allowBinding name body = .ok () := by
  refine allowBinding_eq_ok_iff.2 fun via hvia => ?_
  have hread : (base env).Reads name via := ⟨body, hbody, hvia⟩
  refine ⟨?_, hview.not_mem_reached henv hread⟩
  rintro rfl
  exact henv.acyclic via (TransGen.single hread)

/-- **A line brings its binding back**, and keeps the bindings that are back already. -/
theorem View.Restoring.after_line (hview : view.Restoring env) (henv : env.Restorable)
    (hbody : env[name]? = some body) (hbudget : env.size ≤ budget) :
    ∃ addresses after, evaluate budget (.define name body) view = (.ok addresses, after) ∧
      after.Restoring env ∧ after.lookup name = some body ∧
      ∀ other e, view.lookup other = some e → env[other]? = some e →
        after.lookup other = some e := by
  have hclosed := hview.closed henv
  have hwithin := henv.within hbody
  have hends : (evaluate budget body view).1 ≠ .error .exhausted :=
    (CleanRun.of_closed hclosed hwithin).not_exhausted_of_bound (hview.acyclic henv) hclosed
      hwithin hbudget
  obtain ⟨addresses, touched, writes, hrun, -, -, heffect⟩ :=
    evaluate_denotes budget body view hclosed hwithin hends
  have hafter := hview.after heffect
  refine ⟨addresses, (view.bindAll writes).bind name body,
    evaluate_define_of_ok (hview.snapshot_eq henv hbody) hrun (hafter.allowBinding_eq henv hbody),
    hafter.bind hbody, ?_, fun other e he hother => ?_⟩
  · rw [lookup_bind, if_pos rfl]
  · rw [lookup_bind]
    split
    · rename_i heq
      rw [← hbody, heq, hother]
    · -- the body has only bound names that were unbound
      rw [lookup_bindAll]
      cases hwrites : writes[other]? with
      | none => rw [Option.none_or, he]
      | some b =>
          have hunbound := (heffect.eq_empty (Set.notMem_empty other) hwrites).2.1
          rw [he] at hunbound
          cases hunbound

end

/-! ### All lines -/

section

variable {env : Environment}

/-- The lines of a saved text bring back their bindings, and keep those that are back already. -/
theorem Session.evalLines_restoring (henv : env.Restorable) {entries : List (Name × Expr)}
    (hentries : ∀ entry ∈ entries, env[entry.1]? = some entry.2)
    (hlines : ∀ entry ∈ entries, SavableBinding entry.1 entry.2) (session : Session) (number : Nat)
    (hsession : (base session.environment).Restoring env)
    (hbudget : env.size ≤ session.settings.readBudget) :
    ∃ after, session.evalLines (definitionLines entries number) =
        (.ok (), { session with environment := after }) ∧
      (base after).Restoring env ∧ (∀ entry ∈ entries, after[entry.1]? = some entry.2) ∧
      ∀ (name : Name) (e : Expr), session.environment[name]? = some e → env[name]? = some e →
        after[name]? = some e := by
  -- on the lines that are left: the last part is what keeps the bindings of the lines before
  induction entries generalizing session number with
  | nil => exact ⟨session.environment, rfl, hsession, by simp, fun _ _ he _ => he⟩
  | cons entry rest ih =>
      obtain ⟨hentry, hrest⟩ := List.forall_mem_cons.1 hentries
      obtain ⟨hline, hlines⟩ := List.forall_mem_cons.1 hlines
      obtain ⟨addresses, view, hrun, hview, hback, hkept⟩ :=
        hsession.after_line henv hentry hbudget
      obtain ⟨middle, rfl⟩ : ∃ middle, view = base middle := by
        have hafter := exists_evaluate_base session.settings.readBudget
          (.define entry.1 entry.2) session.environment
        rwa [hrun] at hafter
      obtain ⟨after, hall, hafter, hrestored, hkept'⟩ :=
        ih hrest hlines { session with environment := middle } (number + 1) hview hbudget
      refine ⟨after, ?_, hafter, List.forall_mem_cons.2 ⟨?_, hrestored⟩, fun name e he hname => ?_⟩
      · rw [evalLines_definitionLines_of_ok hline (evalExpr_of_ok hrun), hall]
      · exact hkept' entry.1 entry.2 hback hentry
      · exact hkept' name e (hkept name e he hname) hname

/-- A view that has brought back all bindings of an environment is the environment. -/
theorem eq_of_restoring {after : Environment} (h : (base after).Restoring env)
    (hentries : ∀ entry ∈ env.toList, after[entry.1]? = some entry.2) : after = env := by
  refine Std.ExtTreeMap.ext_getElem? fun name => ?_
  cases hname : env[name]? with
  | some e => exact hentries (name, e) (Std.ExtTreeMap.mem_toList_iff_getElem?_eq_some.2 hname)
  | none =>
      cases hafter : after[name]? with
      | none => rfl
      | some e =>
          rcases h name e hafter with he | ⟨-, hbound⟩
          · rw [hname] at he
            cases he
          · exact absurd hname hbound

end

/-- All lines of a saved text end well in an empty session, and leave the environment that was
saved. -/
theorem Environment.Restorable.loadContents {env : Environment} (henv : env.Restorable)
    (hsavable : ∀ entry ∈ env.toList, SavableBinding entry.1 entry.2) {fresh : Session}
    (hfresh : fresh.environment = ∅) (hbudget : env.size ≤ fresh.settings.readBudget)
    (path : String) :
    fresh.loadContents path env.savedText.toUTF8 =
      (.ok (.loaded path env.size), { fresh with environment := env }) := by
  have hstart : (base fresh.environment).Restoring env := by
    intro name e he
    simp [hfresh] at he
  obtain ⟨after, hrun, hview, hback, -⟩ := Session.evalLines_restoring henv
    (fun _ => Std.ExtTreeMap.mem_toList_iff_getElem?_eq_some.1) hsavable fresh 1 hstart hbudget
  obtain rfl := eq_of_restoring hview hback
  rw [Session.loadContents_savedText fresh path fun entry hentry =>
    (hsavable entry hentry).toWritableBinding, hrun]
  rfl

/-- **What sources have left in a session is restored** by saving it to a file and loading the file,
if there are no loops and no nested definitions in it.  Whichever sources were evaluated, and
whether or not each of them ended well: if the session has been saved, then a fresh session that
loads the file evaluates all lines without an error, and is left with the same bindings.  The files
stay as they are. -/
theorem load_restores {settings : Settings} {sources : List String} {session : Session}
    (hsources : ∀ source ∈ sources, source.utf8ByteSize ≤ Span.limit)
    (hsession : Session.evalSources ⟨settings, ∅⟩ sources = session)
    (hacyclic : (base session.environment).Acyclic)
    (hfree : ∀ entry ∈ session.environment.toList, entry.2.DefineFree)
    (hlines : ∀ entry ∈ session.environment.toList,
      (definitionLine entry.1 entry.2).utf8ByteSize ≤ Span.limit)
    {file : String} {tree after : DirectoryTree} {response : Response}
    (hsave : (session.save file : StateM DirectoryTree (Except Failure Response)).run tree =
      (.ok response, after))
    {fresh : Session} {other : String} (hfresh : fresh.environment = ∅)
    (hpath : fresh.path other = session.path file)
    (hbudget : session.environment.size ≤ fresh.settings.readBudget) :
    (fresh.load other : StateM DirectoryTree (Except Failure Response × Session)).run after =
      ((.ok (.loaded (session.path file) session.environment.size),
        { fresh with environment := session.environment }), after) := by
  subst hsession
  have hsavable := Session.savable_evalSources rfl hsources hlines
  have henv : (Session.evalSources ⟨settings, ∅⟩ sources).environment.Restorable := by
    refine ⟨Session.complete_evalSources rfl sources, hacyclic, fun name e he => ?_⟩
    exact hfree (name, e) (Std.ExtTreeMap.mem_toList_iff_getElem?_eq_some.2 he)
  rw [Session.run_load_of_save hsave hpath, henv.loadContents hsavable hfresh hbudget]

/-- The first line of the saved text reads a list that is only bound by the second one, which again
reads a list of a later line.  The third source has been refused, since it would close a loop. -/
theorem load_restores_later_lines : ∃ (session : Session) (response : Response)
    (after : DirectoryTree),
    Session.evalSources ⟨{ directory := "" }, ∅⟩ ["a = all ! bob@x", "all = staff, eve@x",
      "staff = all", "staff = bob@x, kim"] = session ∧
    session.environment.savedText =
      "a = (all ! bob@x)\nall = (staff, eve@x)\nkim = \nstaff = (bob@x, kim)\n" ∧
    (session.save "t" : StateM DirectoryTree (Except Failure Response)).run (.empty []) =
      (.ok response, after) ∧
    ((⟨{ directory := "" }, ∅⟩ : Session).load "t" :
        StateM DirectoryTree (Except Failure Response × Session)).run after =
      ((.ok (.loaded "t" session.environment.size),
        ⟨{ directory := "" }, session.environment⟩), after) := by
  obtain ⟨session, hsession⟩ : ∃ session, Session.evalSources ⟨{ directory := "" }, ∅⟩
    ["a = all ! bob@x", "all = staff, eve@x", "staff = all", "staff = bob@x, kim"] = session :=
    ⟨_, rfl⟩
  obtain ⟨hpath, response, after, hsave⟩ := Session.exists_run_save rfl hsession
  have hacyclic : (base session.environment).Acyclic := by
    rw [← hsession]
    exact (Session.parallelFree_evalSources rfl (by decide) (by decide)).2
  have hfree : ∀ entry ∈ session.environment.toList, entry.2.DefineFree := by
    have hall : (session.environment.toList.all fun entry => entry.2.targets.isEmpty) = true := by
      rw [← hsession]
      decide +kernel
    exact fun entry hentry => List.isEmpty_iff.1 (List.all_eq_true.1 hall entry hentry)
  have hlines : ∀ entry ∈ session.environment.toList,
      (definitionLine entry.1 entry.2).utf8ByteSize ≤ Span.limit := by
    rw [← hsession]
    decide +kernel
  have hbudget : session.environment.size ≤ ({ directory := "" } : Settings).readBudget := by
    rw [← hsession]
    decide +kernel
  have hload := @load_restores _ _ session (by decide) hsession hacyclic hfree hlines "t" _ after
    response hsave ⟨{ directory := "" }, ∅⟩ "t" rfl
    ((Session.path_of_directory rfl).trans hpath.symm) hbudget
  rw [hpath] at hload
  refine ⟨session, response, after, hsession, ?_, hsave, hload⟩
  rw [← hsession]
  decide +kernel

end Roster
