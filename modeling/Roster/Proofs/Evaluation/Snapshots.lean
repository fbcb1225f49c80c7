/-
**A snapshot is a checked substitution.**

A snapshot is taken in one pass over a body, in which reads are replaced and checked at the same
time.  What comes of it can be said without the pass: either some read is to be refused, and then
the first one from left to right is blamed, or the reads of the name give way to its binding and
nothing else changes.

The expression that is written in the place of a read is not checked itself.  In a view without
loops it need not be.  What it reads is read by the binding of the name, and a path from there back
to the name would have been a loop; and the reads that the body keeps have been checked.  So the
snapshot does not lead back to its name, not even through definitions that are older than it.

Main definitions:

* `View.RefusesRead`: a read that stands in the way of a snapshot;
* `View.FirstRefused`: the first such read of a body.

Main results:

* `View.Acyclic.not_reaches_substitute`: **no way leads back from a substitution** whose reads are
  not refused;
* `snapshot_checks_and_substitutes`: **when a snapshot may be taken, which read is blamed if it may
  not, and what it is**.
-/

import Roster.Proofs.Evaluation.Acyclic

set_option relaxedAutoImplicit false
set_option autoImplicit false

namespace Roster

open View Relation

/-! ### Reads that are refused -/

namespace View

/-- The read of `via` stands in the way of a snapshot for `target`: `via` is another name, and what
is bound to it leads to `target` or defines it on the way. -/
def RefusesRead (view : View) (target via : Name) : Prop :=
  via ≠ target ∧ ∃ b, view.lookup via = some b ∧
    target ∈ (view.dependencies .transitive b ∅).reported

/-- The first read of an expression that stands in the way, from left to right. -/
structure FirstRefused (view : View) (target : Name) (e : Expr) (via : Name) : Prop where
  refused : view.RefusesRead target via
  first : ∃ before after, e.reads = before ++ via :: after ∧
    ∀ other ∈ before, ¬ view.RefusesRead target other

variable {view : View} {target via : Name} {e : Expr}

theorem refusesRead_iff :
    view.RefusesRead target via ↔ via ≠ target ∧ target ∈ view.reached (view.meaning via) := by
  refine and_congr_right fun _ => ⟨?_, exists_lookup_of_mem_reached_meaning⟩
  rintro ⟨b, hb, htarget⟩
  rwa [meaning_of_lookup hb]

theorem not_refusesRead_iff :
    ¬ view.RefusesRead target via ↔ via ≠ target → target ∉ view.reached (view.meaning via) := by
  rw [refusesRead_iff, not_and]

/-- A read that is not refused begins no path to the name. -/
theorem not_reflTransGen_of_not_refusesRead (h : ¬ view.RefusesRead target via)
    (hne : via ≠ target) : ¬ ReflTransGen view.Reads via target := by
  intro hpath
  rcases reflTransGen_iff_eq_or_transGen.1 hpath with heq | hpath
  · exact hne heq.symm
  · exact not_refusesRead_iff.1 h hne (mem_reached_of_transGen hpath)

/-- **No way leads back from a substitution**, in a view without loops, if no read of the body is
refused. -/
theorem Acyclic.not_reaches_substitute (hview : view.Acyclic)
    (h : ∀ via ∈ e.reads, ¬ view.RefusesRead target via) :
    ¬ view.Reaches (e.substitute target (view.meaning target)) target := by
  intro hreaches
  obtain ⟨via, hvia, hpath⟩ := reaches_iff_exists_read.1 hreaches
  rcases Expr.mem_reads_substitute.1 hvia with ⟨hread, hne⟩ | ⟨-, hformer⟩
  · exact not_reflTransGen_of_not_refusesRead (h via hread) hne hpath
  · -- the read comes from the binding of the name, so that the path is a loop
    exact hview target (TransGen.head' (reads_iff.2 hformer) hpath)

end View

/-! ### Snapshots -/

/-- **A snapshot is a checked substitution.**  It may be taken exactly if no read of the body is
refused.  Otherwise the first read that is refused, from left to right, is reported with the name to
be defined.  If it may be taken, it is the body with the binding of the name, or the empty list if
there is none, in the places of the reads of the name; definitions of the name stay as they are.  In
a view without loops it does not lead to the name. -/
theorem snapshot_checks_and_substitutes (view : View) (target : Name) (e : Expr) :
    ((∃ snapshot, view.snapshot target e = .ok snapshot) ↔
        ∀ via ∈ e.reads, ¬ view.RefusesRead target via) ∧
      (∀ error, view.snapshot target e = .error error ↔
        ∃ via, view.FirstRefused target e via ∧ error = .cycle target via) ∧
      ∀ snapshot, view.snapshot target e = .ok snapshot →
        snapshot = e.substitute target ((view.lookup target).getD .empty) ∧
          (view.Acyclic → ¬ view.Reaches snapshot target) := by
  have hok : ∀ snapshot, view.snapshot target e = .ok snapshot ↔
      (∀ via ∈ e.reads, ¬ view.RefusesRead target via) ∧
        e.substitute target (view.meaning target) = snapshot := by
    intro snapshot
    simp only [snapshot_eq_ok_iff, not_refusesRead_iff]
  refine ⟨?_, fun error => ?_, fun snapshot hsnapshot => ?_⟩
  · constructor
    · rintro ⟨snapshot, hsnapshot⟩
      exact ((hok snapshot).1 hsnapshot).1
    · intro h
      exact ⟨_, (hok _).2 ⟨h, rfl⟩⟩
  · rw [snapshot_eq_error_iff]
    constructor
    · rintro ⟨before, via, after, hreads, hbefore, hne, hreached, rfl⟩
      refine ⟨via, ⟨refusesRead_iff.2 ⟨hne, hreached⟩, before, after, hreads, ?_⟩, rfl⟩
      exact fun other hother => not_refusesRead_iff.2 (hbefore other hother)
    · rintro ⟨via, ⟨hrefused, before, after, hreads, hbefore⟩, rfl⟩
      obtain ⟨hne, hreached⟩ := refusesRead_iff.1 hrefused
      refine ⟨before, via, after, hreads, ?_, hne, hreached, rfl⟩
      exact fun other hother => not_refusesRead_iff.1 (hbefore other hother)
  · obtain ⟨hreads, rfl⟩ := (hok snapshot).1 hsnapshot
    exact ⟨rfl, fun hview => hview.not_reaches_substitute hreads⟩

/-- The body reads its own name and defines it anew: the read gives way to the former binding, and
the definition stays.  With one more read, of a list that leads to the name through another one, the
body is refused. -/
theorem snapshot_checks_and_substitutes_redefinition :
    ∃ view : View, ∃ body snapshot : Expr,
      (view.lookup ⟨"a"⟩ = some (.read ⟨"c"⟩) ∧ view.lookup ⟨"b"⟩ = some (.read ⟨"d"⟩) ∧
        view.lookup ⟨"d"⟩ = some (.define ⟨"e"⟩ (.read ⟨"a"⟩))) ∧
      (body = .combine .union (.read ⟨"a"⟩) (.define ⟨"a"⟩ (.address "o@x")) ∧
        snapshot = .combine .union (.read ⟨"c"⟩) (.define ⟨"a"⟩ (.address "o@x"))) ∧
      (view.snapshot ⟨"a"⟩ body = .ok snapshot ∧
        ∀ via ∈ body.reads, ¬ view.RefusesRead ⟨"a"⟩ via) ∧
      (view.Acyclic ∧ ¬ view.Reaches snapshot ⟨"a"⟩) ∧
      view.snapshot ⟨"a"⟩ (.combine .sequence body (.read ⟨"b"⟩)) =
          .error (.cycle ⟨"a"⟩ ⟨"b"⟩) ∧
        view.FirstRefused ⟨"a"⟩ (.combine .sequence body (.read ⟨"b"⟩)) ⟨"b"⟩ := by
  let view := (((base ∅).bind ⟨"a"⟩ (.read ⟨"c"⟩)).bind ⟨"b"⟩ (.read ⟨"d"⟩)).bind ⟨"d"⟩
    (.define ⟨"e"⟩ (.read ⟨"a"⟩))
  let body := Expr.combine .union (.read ⟨"a"⟩) (.define ⟨"a"⟩ (.address "o@x"))
  have hview : view.Acyclic := ((acyclic_empty.define rfl).define rfl).define rfl
  have hsnapshot : view.snapshot ⟨"a"⟩ body =
      .ok (.combine .union (.read ⟨"c"⟩) (.define ⟨"a"⟩ (.address "o@x"))) := rfl
  have hrefused : view.snapshot ⟨"a"⟩ (.combine .sequence body (.read ⟨"b"⟩)) =
      .error (.cycle ⟨"a"⟩ ⟨"b"⟩) := rfl
  obtain ⟨hok, -, htaken⟩ := snapshot_checks_and_substitutes view ⟨"a"⟩ body
  obtain ⟨-, hfirst, -⟩ :=
    snapshot_checks_and_substitutes view ⟨"a"⟩ (.combine .sequence body (.read ⟨"b"⟩))
  obtain ⟨via, hvia, hcycle⟩ := (hfirst _).1 hrefused
  cases hcycle
  exact ⟨view, body, _, ⟨rfl, rfl, rfl⟩, ⟨rfl, rfl⟩, ⟨hsnapshot, hok.1 ⟨_, hsnapshot⟩⟩,
    ⟨hview, (htaken _ hsnapshot).2 hview⟩, hrefused, hvia⟩

end Roster
