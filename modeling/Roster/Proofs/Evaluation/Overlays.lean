/-
**Overlays make no difference.**

An evaluation reads a stack of overlays by looking names up, and writes it by binding names in the
top layer.  So all that matters about a stack is which expression it binds to which name, and the
same evaluation in the plain environment with these bindings goes the same way.  Inside the
evaluation more overlays may be opened for the sides of compositions; they are stacked on views that
differ in nothing but their layers, so that nothing new has to be said about them.

When the top overlay is committed, its writes are bound in the view below one at a time.  Each name
is written once, and therefore the order does not matter.

Main definitions:

* `View.bindEach`: binding the entries of a list one after the other.

Main results:

* `View.lookup_bindEach`: **the order of a commit does not matter**;
* `evaluate_stack`: **an evaluation through a stack of overlays** has the outcome of the evaluation
  in the plain environment and leaves the same bindings, also once the top overlay is committed.
-/

import Roster.Proofs.Evaluation.Simulation

set_option relaxedAutoImplicit false
set_option autoImplicit false

namespace Roster

open View

/-! ### The order of a commit -/

namespace View

/-- Binds the entries of a list one after the other. -/
def bindEach (view : View) : List (Name × Expr) → View
  | [] => view
  | (name, e) :: rest => (view.bind name e).bindEach rest

theorem lookup_bindEach_of_forall_ne {view : View} {entries : List (Name × Expr)} {name : Name}
    (h : ∀ entry ∈ entries, entry.1 ≠ name) :
    (view.bindEach entries).lookup name = view.lookup name := by
  induction entries generalizing view with
  | nil => rfl
  | cons entry entries ih =>
      rw [bindEach, ih fun other hother => h other (List.mem_cons_of_mem _ hother), lookup_bind,
        if_neg (h entry List.mem_cons_self)]

/-- Among entries with different names, each one is bound in the end. -/
theorem lookup_bindEach_of_mem {view : View} {entries : List (Name × Expr)} {name : Name} {e : Expr}
    (hnames : (entries.map Prod.fst).Nodup) (h : (name, e) ∈ entries) :
    (view.bindEach entries).lookup name = some e := by
  induction entries generalizing view with
  | nil => cases h
  | cons entry entries ih =>
      rw [List.map_cons, List.nodup_cons] at hnames
      rcases List.mem_cons.1 h with rfl | h
      · have hrest : ∀ other ∈ entries, other.1 ≠ name := fun other hother heq =>
          hnames.1 (List.mem_map.2 ⟨other, hother, heq⟩)
        rw [bindEach, lookup_bindEach_of_forall_ne hrest, lookup_bind, if_pos rfl]
      · exact ih hnames.2 h

/-- **The order of a commit does not matter**: whichever way the writes are listed, binding them one
after the other amounts to binding them all. -/
theorem lookup_bindEach {writes : Environment} {entries : List (Name × Expr)}
    (h : entries.Perm writes.toList) (view : View) (name : Name) :
    (view.bindEach entries).lookup name = (view.bindAll writes).lookup name := by
  have hnames : (entries.map Prod.fst).Nodup := by
    rw [(h.map Prod.fst).nodup_iff, Std.ExtTreeMap.map_fst_toList_eq_keys]
    exact Std.ExtTreeMap.nodup_keys
  rw [lookup_bindAll]
  cases hwrites : writes[name]? with
  | some e =>
      have hmem : (name, e) ∈ entries :=
        h.mem_iff.2 (Std.ExtTreeMap.mem_toList_iff_getElem?_eq_some.2 hwrites)
      rw [lookup_bindEach_of_mem hnames hmem, Option.some_or]
  | none =>
      rw [Option.none_or]
      refine lookup_bindEach_of_forall_ne fun entry hentry heq => ?_
      have hsome := Std.ExtTreeMap.mem_toList_iff_getElem?_eq_some.1 (h.mem_iff.1 hentry)
      rw [heq, hwrites] at hsome
      cases hsome

end View

/-! ### Evaluation -/

/-- **An evaluation through a stack of overlays.**  Take the environment that binds each name to
what a lookup in the stack gives.  The evaluation in this environment has the same outcome, and it
leaves the bindings that lookups in the stack give afterwards, whether it has failed or not.  If the
stack has a top overlay, the layers below it have stayed as they were, and they come to the same
bindings when its writes are committed to them, in whichever order. -/
theorem evaluate_stack {view : View} {env : Environment}
    (henv : ∀ name, env[name]? = view.lookup name) (budget : ℕ) (e : Expr) :
    ∃ after : Environment,
      evaluate budget e (.base env) = ((evaluate budget e view).1, .base after) ∧
      (∀ name, (evaluate budget e view).2.lookup name = after[name]?) ∧
      ∀ writes below, view = .overlay writes below → ∃ written : Environment,
        (evaluate budget e view).2 = .overlay written below ∧
        (∀ name, (below.bindAll written).lookup name = after[name]?) ∧
        ∀ order, order.Perm written.toList →
          ∀ name, (below.bindEach order).lookup name = after[name]? := by
  obtain ⟨touched, more, more', h⟩ := evaluate_alike budget e view (.base env) (closed_univ view)
    e.within_univ (Alike.of_lookup fun name => (henv name).symm)
  obtain rfl : more = more' :=
    Std.ExtTreeMap.ext_getElem? fun name => h.same name (Set.mem_univ name)
  have hlookup : ∀ name, (view.bindAll more).lookup name = (env ∪ more)[name]? := by
    intro name
    rw [lookup_bindAll, Std.ExtTreeMap.getElem?_union, henv]
  refine ⟨env ∪ more, Prod.ext h.result.symm h.right, ?_, ?_⟩
  · rw [h.left]
    exact hlookup
  · rintro writes below rfl
    have hcommit : ∀ name, (below.bindAll (writes ∪ more)).lookup name = (env ∪ more)[name]? := by
      intro name
      rw [← hlookup, ← bindAll_bindAll, lookup_bindAll, lookup_bindAll, lookup_bindAll,
        lookup_overlay]
    refine ⟨writes ∪ more, h.left, hcommit, fun order horder name => ?_⟩
    rw [lookup_bindEach horder, hcommit]

/-- Two definitions side by side, evaluated under an overlay that has bound what a list of the
environment reads. -/
theorem evaluate_stack_composition :
    ∃ after written : Environment,
      evaluate 3 (.combine .parallel (.define ⟨"c"⟩ (.read ⟨"x"⟩)) (.define ⟨"d"⟩ (.read ⟨"z"⟩)))
          (.base (View.flatten (.overlay ((∅ : Environment).insert ⟨"y"⟩ (.address "a@b"))
            (.base ((∅ : Environment).insert ⟨"x"⟩ (.read ⟨"y"⟩)))))) = (.ok ∅, .base after) ∧
        evaluate 3 (.combine .parallel (.define ⟨"c"⟩ (.read ⟨"x"⟩)) (.define ⟨"d"⟩ (.read ⟨"z"⟩)))
            (.overlay ((∅ : Environment).insert ⟨"y"⟩ (.address "a@b"))
              (.base ((∅ : Environment).insert ⟨"x"⟩ (.read ⟨"y"⟩)))) =
          (.ok ∅, .overlay written (.base ((∅ : Environment).insert ⟨"x"⟩ (.read ⟨"y"⟩)))) ∧
        ∀ order, order.Perm written.toList → ∀ name,
          (View.bindEach (.base ((∅ : Environment).insert ⟨"x"⟩ (.read ⟨"y"⟩))) order).lookup name =
            after[name]? := by
  obtain ⟨after, hrun, -, hcommit⟩ := evaluate_stack
    (getElem?_flatten (.overlay ((∅ : Environment).insert ⟨"y"⟩ (.address "a@b"))
      (.base ((∅ : Environment).insert ⟨"x"⟩ (.read ⟨"y"⟩))))) 3
    (.combine .parallel (.define ⟨"c"⟩ (.read ⟨"x"⟩)) (.define ⟨"d"⟩ (.read ⟨"z"⟩)))
  obtain ⟨written, hstack, -, horder⟩ := hcommit _ _ rfl
  exact ⟨after, written, hrun, Prod.ext rfl hstack, horder⟩

end Roster
