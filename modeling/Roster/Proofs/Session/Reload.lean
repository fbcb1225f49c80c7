/-
**Loading a saved session fails at cycles only.**

Loading evaluates the lines of a saved text, and definitions that are nested in a line run again.
They run over bindings that come back in alphabetical order, so that their checks are made in
environments that the session has never been in.  Such a check can fail.  After `a = (z = a)` the
list `a` is bound to the definition of `z` as the empty list, and `z` is bound to `a`; the line of
`a` comes first, and the line of `z` is then refused, as `z` would read a list that defines `z`.

Without compositions nothing else can go wrong: each line is parsed, no evaluation goes on for ever,
and a cycle is the only error that the check of a definition reports.  There is no cycle either if
the definitions in the text are orderly, that is, if no name leads through reads back to itself or
to a name that defines it.  They then keep to a plan, and go on doing so while they are evaluated.

Main definitions:

* `Environment.definitions`: the definitions that a saved text runs;
* `Environment.Orderly`: these definitions stand in an order;
* `View.Reloading`: what holds while the lines are evaluated.

Main results:

* `Session.evalLines_reloading`: **if a line fails, a check of a definition has failed**;
* `Environment.orderly_iff_exists_plan`: **definitions are orderly if they keep to a plan**;
* `Environment.Orderly.of_rank`: definitions that are orderly, as their names have ranks;
* `load_fails_at_cycles`: **what sources without compositions have left in a session** is saved to a
  file that can be loaded unless there is a cycle;
* `not_load_nested_definition`: a saved file that cannot be loaded.
-/

import Roster.Proofs.Evaluation.Order
import Roster.Proofs.Session.Restore

set_option relaxedAutoImplicit false
set_option autoImplicit false

namespace Roster

open View Relation

/-! ### The definitions in a saved text -/

namespace Environment

/-- The definitions that a saved text runs: those of its lines, and those nested in them. -/
def definitions (env : Environment) : List (Name × Expr) :=
  env.toList.flatMap fun entry => (Expr.define entry.1 entry.2).definitions

/-- A definition of `name` reads another name. -/
def Uses (env : Environment) (name other : Name) : Prop :=
  other ≠ name ∧ ∃ body, (name, body) ∈ env.definitions ∧ other ∈ body.reads

/-- No name leads through reads back to itself or to a name that defines it. -/
def Orderly (env : Environment) : Prop :=
  ∀ name via, TransGen env.Uses name via →
    via ≠ name ∧ ∀ body, (via, body) ∈ env.definitions → name ∉ body.targets

variable {env : Environment}

/-- The plan of orderly definitions: they may read what they lead to, and define what they
define. -/
def Orderly.plan (h : env.Orderly) : Plan where
  readable name := {via | TransGen env.Uses name via}
  definable name := {target | ∃ via, ReflTransGen env.Uses name via ∧
    ∃ body, (via, body) ∈ env.definitions ∧ target ∈ body.targets}
  readable_subset hvia _ hother := TransGen.trans hvia hother
  definable_subset := by
    rintro name via hvia target ⟨other, hpath, hdefines⟩
    exact ⟨other, hvia.to_reflTransGen.trans hpath, hdefines⟩
  not_readable name hname := (h name name hname).1 rfl
  not_definable := by
    rintro name via hvia ⟨other, hpath, body, hbody, hname⟩
    exact (h name other (hvia.trans_left hpath)).2 body hbody hname

/-- **Definitions are orderly exactly if the lines keep to some plan.** -/
theorem orderly_iff_exists_plan :
    env.Orderly ↔ ∃ plan : Plan, ∀ entry ∈ env.toList, plan.Keeps (.define entry.1 entry.2) := by
  constructor
  · intro h
    refine ⟨h.plan, fun entry hentry name body hbody => ?_⟩
    have hmem : (name, body) ∈ env.definitions := List.mem_flatMap.2 ⟨entry, hentry, hbody⟩
    refine ⟨fun via hvia => ?_, fun target htarget => ?_⟩
    · by_cases hname : via = name
      · exact Or.inl hname
      · exact Or.inr (TransGen.single ⟨hname, body, hmem, hvia⟩)
    · exact ⟨name, ReflTransGen.refl, body, hmem, htarget⟩
  · rintro ⟨plan, hplan⟩
    have hwithin : ∀ {name body}, (name, body) ∈ env.definitions →
        body.Within (insert name (plan.readable name)) (plan.definable name) := by
      intro name body hbody
      obtain ⟨entry, hentry, hmem⟩ := List.mem_flatMap.1 hbody
      exact hplan entry hentry name body hmem
    have huses : ∀ {name via}, env.Uses name via → via ∈ plan.readable name := by
      rintro name via ⟨hne, body, hbody, hvia⟩
      exact ((hwithin hbody).reads via hvia).resolve_left hne
    intro name via hpath
    have hreadable : via ∈ plan.readable name := by
      induction hpath with
      | single hstep => exact huses hstep
      | tail _ hstep ih => exact plan.readable_subset ih (huses hstep)
    refine ⟨?_, fun body hbody hname => ?_⟩
    · rintro rfl
      exact plan.not_readable via hreadable
    · exact plan.not_definable hreadable ((hwithin hbody).targets name hname)

/-- Definitions are orderly if they read names of lower rank, and define none of higher rank. -/
theorem Orderly.of_rank (rank : Name → ℕ)
    (h : ∀ definition ∈ env.definitions,
      (∀ via ∈ definition.2.reads, via ≠ definition.1 → rank via < rank definition.1) ∧
        ∀ target ∈ definition.2.targets, rank target ≤ rank definition.1) : env.Orderly := by
  have huses : ∀ {name via}, env.Uses name via → rank via < rank name := by
    rintro name via ⟨hne, body, hbody, hvia⟩
    exact (h (name, body) hbody).1 via hvia hne
  intro name via hpath
  have hlower : rank via < rank name := by
    induction hpath with
    | single hstep => exact huses hstep
    | tail _ hstep ih => exact (huses hstep).trans ih
  refine ⟨?_, fun body hbody hname => ?_⟩
  · rintro rfl
    exact lt_irrefl _ hlower
  · exact absurd hlower ((h (via, body) hbody).2 name hname).not_gt

end Environment

/-! ### The lines -/

section

variable {env : Environment} {evaluable : Expr → Prop} {bindable : Name → Expr → Prop}

/-- What holds while the lines of a saved text are evaluated: what is bound has a property, and
reads and defines only names that the text binds, without loops. -/
structure View.Reloading (env : Environment) (bindable : Name → Expr → Prop) (view : View) :
    Prop where
  all : view.All bindable
  acyclic : view.Acyclic
  closed : view.Closed (base env).bound (base env).bound

section

variable {view : View} {e : Expr} (h : Hereditary evaluable bindable)
  (hfree : ∀ e, evaluable e → e.ParallelFree)

include h hfree

/-- Without compositions the evaluation of a line is a clean run. -/
theorem View.Reloading.cleanRun (hview : view.Reloading env bindable) (he : evaluable e)
    (budget : ℕ) : CleanRun budget e view :=
  h.cleanRun (fun _ _ heval => (hfree _ heval).1 rfl) hview.all he

theorem View.Reloading.after_line (hview : view.Reloading env bindable) (he : evaluable e)
    (hwithin : e.Within (base env).bound (base env).bound) (budget : ℕ) :
    (evaluate budget e view).2.Reloading env bindable where
  all := h.all_evaluate budget e view hview.all he
  acyclic := CleanRun.acyclic budget e view hview.acyclic (hview.cleanRun h hfree he budget)
  closed := hview.closed.evaluate budget hwithin

/-- A line that stops has failed at a check. -/
theorem View.Reloading.failedCheck (hview : view.Reloading env bindable) (he : evaluable e)
    (hwithin : e.Within (base env).bound (base env).bound) {budget : ℕ}
    (hbudget : env.size ≤ budget) {stop : Stop} (hstop : (evaluate budget e view).1 = .error stop) :
    ∃ error, stop = .failed error ∧ FailedCheck evaluable bindable error := by
  cases stop with
  | exhausted =>
      exact absurd hstop ((hview.cleanRun h hfree he budget).not_exhausted_of_bound hview.acyclic
        hview.closed hwithin hbudget)
  | failed error =>
      have hnone : ∀ left right, ¬ evaluable (.combine .parallel left right) :=
        fun _ _ heval => (hfree _ heval).1 rfl
      exact ⟨error, rfl, _, h.of_failed hnone budget e view hview.all he hstop⟩

/-- **If a line fails, a check of a definition has failed**: all lines end well, or the first one
that does not reports the error of a check. -/
theorem Session.evalLines_reloading {entries : List (Name × Expr)}
    (hentries : ∀ entry ∈ entries, evaluable (.define entry.1 entry.2) ∧
      (Expr.define entry.1 entry.2).Within (base env).bound (base env).bound)
    (hlines : ∀ entry ∈ entries, SavableBinding entry.1 entry.2) (session : Session) (number : Nat)
    (hsession : (base session.environment).Reloading env bindable)
    (hbudget : env.size ≤ session.settings.readBudget) :
    (session.evalLines (definitionLines entries number)).1 = .ok () ∨
      ∃ line error, (session.evalLines (definitionLines entries number)).1 =
        .error (line, .evaluation error) ∧ FailedCheck evaluable bindable error := by
  induction entries generalizing session number with
  | nil => exact Or.inl rfl
  | cons entry rest ih =>
      obtain ⟨⟨heval, hwithin⟩, hrest⟩ := List.forall_mem_cons.1 hentries
      obtain ⟨hline, hlines⟩ := List.forall_mem_cons.1 hlines
      have hafter := hsession.after_line h hfree heval hwithin session.settings.readBudget
      obtain ⟨addresses, after, hrun, hall⟩ | ⟨stop, after, hrun, hall⟩ :=
        session.evalExpr_cases (.define entry.1 entry.2)
      · -- the view that the line leaves is again one of the kind
        rw [hrun] at hafter
        rw [evalLines_definitionLines_of_ok hline hall]
        exact ih hrest hlines { session with environment := after } (number + 1) hafter hbudget
      · obtain ⟨error, rfl, hfailed⟩ := hsession.failedCheck h hfree heval hwithin hbudget
          (congrArg Prod.fst hrun)
        rw [evalLines_definitionLines_of_error hline hall]
        exact Or.inr ⟨number, error, rfl, hfailed⟩

end

end

/-! ### Loading -/

/-- What is known of an environment that sources without compositions have left: all names in it are
bound, and the lines of its saved text can be parsed. -/
structure Environment.Reloadable (env : Environment) : Prop where
  complete : (base env).Complete
  parallelFree : ∀ entry ∈ env.toList, entry.2.ParallelFree
  savable : ∀ entry ∈ env.toList, SavableBinding entry.1 entry.2

section

variable {env : Environment} {fresh : Session}

theorem Session.reloadable_evalSources {session : Session} {sources : List String}
    (hsession : session.environment = ∅)
    (hsources : ∀ source ∈ sources, source.utf8ByteSize ≤ Span.limit ∧ '|' ∉ source.toList)
    (hlines : ∀ entry ∈ (session.evalSources sources).environment.toList,
      (definitionLine entry.1 entry.2).utf8ByteSize ≤ Span.limit) :
    (session.evalSources sources).environment.Reloadable := by
  have hsize := fun source hsource => (hsources source hsource).1
  have hbar := fun source hsource => (hsources source hsource).2
  refine ⟨complete_evalSources hsession sources, fun entry hentry => ?_,
    savable_evalSources hsession hsize hlines⟩
  exact (parallelFree_evalSources hsession hsize hbar).1 entry.1 entry.2
    (Std.ExtTreeMap.mem_toList_iff_getElem?_eq_some.1 hentry)

namespace Environment.Reloadable

/-- Each line can be parsed. -/
theorem parse_programLines (henv : env.Reloadable) {line : Nat × String}
    (hline : line ∈ programLines env.savedText) : ∃ e, parse line.2 = .ok e := by
  rw [programLines_savedText fun entry hentry => (henv.savable entry hentry).toWritableBinding]
    at hline
  obtain ⟨entry, hentry, hline⟩ := exists_entry_of_mem_definitionLines hline
  exact ⟨.define entry.1 entry.2, by rw [hline, parse_definitionLine (henv.savable entry hentry)]⟩

theorem within (henv : env.Reloadable) {entry : Name × Expr} (hentry : entry ∈ env.toList) :
    (Expr.define entry.1 entry.2).Within (base env).bound (base env).bound := by
  have hlookup := Std.ExtTreeMap.mem_toList_iff_getElem?_eq_some.1 hentry
  exact Expr.within_define.2
    ⟨mem_bound_of_lookup hlookup, henv.complete entry.1 entry.2 hlookup⟩

/-- Loading what was saved ends well, or a check of a definition fails. -/
theorem load_cases (henv : env.Reloadable) {evaluable : Expr → Prop}
    {bindable : Name → Expr → Prop} (h : Hereditary evaluable bindable)
    (hfree : ∀ e, evaluable e → e.ParallelFree)
    (heval : ∀ entry ∈ env.toList, evaluable (.define entry.1 entry.2))
    (hfresh : fresh.environment = ∅) (hbudget : env.size ≤ fresh.settings.readBudget)
    (path : String) :
    (fresh.loadContents path env.savedText.toUTF8).1 = .ok (.loaded path env.size) ∨
      ∃ line error, (fresh.loadContents path env.savedText.toUTF8).1 =
        .error (.inFile path line (.evaluation error)) ∧ FailedCheck evaluable bindable error := by
  have hstart : (base fresh.environment).Reloading env bindable := by
    rw [hfresh]
    exact ⟨View.All.empty, acyclic_empty, fun name _ e he => by simp at he⟩
  rw [Session.loadContents_savedText fresh path fun entry hentry =>
    (henv.savable entry hentry).toWritableBinding]
  obtain hok | ⟨line, error, herror, hfailed⟩ := Session.evalLines_reloading h hfree
    (fun entry hentry => ⟨heval entry hentry, henv.within hentry⟩) henv.savable fresh 1 hstart
    hbudget
  · exact Or.inl (by rw [hok]; rfl)
  · exact Or.inr ⟨line, error, by rw [herror]; rfl, hfailed⟩

end Environment.Reloadable

end

/-- **What sources without compositions have left in a session** is saved to a file that can be
loaded unless there is a cycle.  If the session has been saved, the file holds its saved text, and
all lines of it are parsed.  A fresh session that loads the file evaluates all lines without an
error, or it stops at a line that reports a cycle.  If the definitions in the text are orderly, no
line fails at all. -/
theorem load_fails_at_cycles {settings : Settings} {sources : List String} {session : Session}
    (hsources : ∀ source ∈ sources, source.utf8ByteSize ≤ Span.limit ∧ '|' ∉ source.toList)
    (hsession : Session.evalSources ⟨settings, ∅⟩ sources = session)
    (hlines : ∀ entry ∈ session.environment.toList,
      (definitionLine entry.1 entry.2).utf8ByteSize ≤ Span.limit)
    {file : String} {tree after : DirectoryTree} {response : Response}
    (hsave : (session.save file : StateM DirectoryTree (Except Failure Response)).run tree =
      (.ok response, after))
    {fresh : Session} {other : String} (hfresh : fresh.environment = ∅)
    (hpath : fresh.path other = session.path file)
    (hbudget : session.environment.size ≤ fresh.settings.readBudget) :
    (after.readFile (session.path file) = .ok session.environment.savedText.toUTF8 ∧
        ∀ line ∈ programLines session.environment.savedText, ∃ e, parse line.2 = .ok e) ∧
      ∃ result loaded,
        (fresh.load other : StateM DirectoryTree (Except Failure Response × Session)).run after =
          ((result, loaded), after) ∧
        (result = .ok (.loaded (session.path file) session.environment.size) ∨
          ∃ line target via, result =
            .error (.inFile (session.path file) line (.evaluation (.cycle target via)))) ∧
        (session.environment.Orderly →
          result = .ok (.loaded (session.path file) session.environment.size)) := by
  subst hsession
  have henv := Session.reloadable_evalSources rfl hsources hlines
  refine ⟨⟨Session.readFile_of_save hsave, fun _ => henv.parse_programLines⟩, _, _,
    Session.run_load_of_save hsave hpath, ?_, fun horderly => ?_⟩
  · obtain hok | ⟨line, error, herror, hfailed⟩ := henv.load_cases hereditary_parallelFree
      (fun _ hfree => hfree) henv.parallelFree hfresh hbudget _
    · exact Or.inl hok
    · obtain ⟨target, via, rfl⟩ := hfailed.eq_cycle
      exact Or.inr ⟨line, target, via, herror⟩
  · -- the same lines again, now with the plan as what is kept
    obtain ⟨plan, hplan⟩ := Environment.orderly_iff_exists_plan.1 horderly
    obtain hok | ⟨_, error, -, hfailed⟩ := henv.load_cases plan.hereditary
      (fun _ hkept => hkept.2)
      (fun entry hentry => ⟨hplan entry hentry, henv.parallelFree entry hentry⟩)
      hfresh hbudget _
    · exact hok
    · exact absurd hfailed (plan.not_failedCheck error)

/-- The line of `y` defines `b` again, and so leaves it with another definition than the line of `b`
before. -/
theorem load_fails_at_cycles_nested : ∃ (session loaded : Session) (response : Response)
    (after : DirectoryTree),
    Session.evalSources ⟨{ directory := "" }, ∅⟩ ["y = (b = c), a", "b = z@z", "a = q@r"] =
      session ∧
    session.environment.savedText = "a = q@r\nb = z@z\nc = \ny = ((b = c), a)\n" ∧
    (∀ line ∈ programLines session.environment.savedText, ∃ e, parse line.2 = .ok e) ∧
    (session.save "t" : StateM DirectoryTree (Except Failure Response)).run (.empty []) =
      (.ok response, after) ∧
    ((⟨{ directory := "" }, ∅⟩ : Session).load "t" :
        StateM DirectoryTree (Except Failure Response × Session)).run after =
      ((.ok (.loaded "t" session.environment.size), loaded), after) := by
  obtain ⟨session, hsession⟩ : ∃ session, Session.evalSources ⟨{ directory := "" }, ∅⟩
    ["y = (b = c), a", "b = z@z", "a = q@r"] = session := ⟨_, rfl⟩
  obtain ⟨hpath, response, after, hsave⟩ := Session.exists_run_save rfl hsession
  have hlines : ∀ entry ∈ session.environment.toList,
      (definitionLine entry.1 entry.2).utf8ByteSize ≤ Span.limit := by
    rw [← hsession]
    decide +kernel
  have hbudget : session.environment.size ≤ ({ directory := "" } : Settings).readBudget := by
    rw [← hsession]
    decide +kernel
  have horderly : session.environment.Orderly := by
    refine Environment.Orderly.of_rank
      (fun name => if name = ⟨"y"⟩ then 2 else if name = ⟨"b"⟩ then 1 else 0) ?_
    rw [← hsession]
    decide +kernel
  obtain ⟨⟨-, hparse⟩, result, loaded, hload, -, hok⟩ :=
    @load_fails_at_cycles _ _ session (by decide) hsession hlines "t" _ after response hsave
      ⟨{ directory := "" }, ∅⟩ "t" rfl ((Session.path_of_directory rfl).trans hpath.symm) hbudget
  rw [hok horderly, hpath] at hload
  refine ⟨session, loaded, response, after, hsession, ?_, hparse, hsave, hload⟩
  rw [← hsession]
  decide +kernel

/-- The line of `a` holds the definition of `z` as the empty list, and the line of `z`, which is
`a`, is refused after it. -/
theorem not_load_nested_definition : ∃ (session loaded : Session) (response : Response)
    (after : DirectoryTree),
    (∀ source ∈ ["a = (z = a)"],
      source.utf8ByteSize ≤ Span.limit ∧ '|' ∉ source.toList) ∧
    Session.evalSources ⟨{ directory := "" }, ∅⟩ ["a = (z = a)"] = session ∧
    (∀ entry ∈ session.environment.toList,
      (definitionLine entry.1 entry.2).utf8ByteSize ≤ Span.limit) ∧
    session.environment.savedText = "a = (z = )\nz = a\n" ∧
    (session.save "t" : StateM DirectoryTree (Except Failure Response)).run (.empty []) =
      (.ok response, after) ∧
    ((⟨{ directory := "" }, ∅⟩ : Session).load "t" :
        StateM DirectoryTree (Except Failure Response × Session)).run after =
      ((.error (.inFile "t" 2 (.evaluation (.cycle ⟨"z"⟩ ⟨"a"⟩))), loaded), after) := by
  obtain ⟨session, hsession⟩ : ∃ session, Session.evalSources ⟨{ directory := "" }, ∅⟩
    ["a = (z = a)"] = session := ⟨_, rfl⟩
  obtain ⟨hpath, response, after, hsave⟩ := Session.exists_run_save rfl hsession
  have hsources : ∀ source ∈ ["a = (z = a)"],
      source.utf8ByteSize ≤ Span.limit ∧ '|' ∉ source.toList := by
    decide
  have hlines : ∀ entry ∈ session.environment.toList,
      (definitionLine entry.1 entry.2).utf8ByteSize ≤ Span.limit := by
    rw [← hsession]
    decide +kernel
  have henv : session.environment.Reloadable := by
    subst hsession
    exact Session.reloadable_evalSources rfl hsources hlines
  have hrun : (Session.evalLines ⟨{ directory := "" }, ∅⟩
      (definitionLines session.environment.toList 1)).1 =
        .error (2, .evaluation (.cycle ⟨"z"⟩ ⟨"a"⟩)) := by
    rw [← hsession]
    decide +kernel
  have hload := @Session.run_load_of_save session "t" _ after response hsave
    ⟨{ directory := "" }, ∅⟩ "t" ((Session.path_of_directory rfl).trans hpath.symm)
  rw [Session.loadContents_savedText _ _ fun entry hentry =>
    (henv.savable entry hentry).toWritableBinding, hrun, hpath] at hload
  refine ⟨session, _, response, after, hsources, hsession, hlines, ?_, hsave, hload⟩
  rw [← hsession]
  decide +kernel

end Roster
