/-
**Views: environments under overlays.**

A view is what an evaluation reads and writes.  It is an environment, or an overlay of writes over
another view.  A lookup asks the writes first and then what lies below; a new binding goes into the
topmost layer only, so that the layers below an overlay stay as they are until its writes are
committed to them.

Main definitions:

* `View`, with `View.lookup` and `View.bind`;
* `View.bindAll`: committing writes to a view;
* `View.flatten`: the environment that a view amounts to.

Main results:

* `View.lookup_bind`, `View.lookup_bindAll`: what a lookup gives after a binding and after a
  commit;
* `View.getElem?_flatten`: the environment that a view amounts to has the same lookups.
-/

import Roster.Binding.Environment

set_option relaxedAutoImplicit false
set_option autoImplicit false

namespace Roster

/-- An environment under any number of overlays. -/
inductive View where
  | base (env : Environment)
  | overlay (writes : Environment) (below : View)

namespace View

/-- The expression bound to a name. -/
def lookup : View → Name → Option Expr
  | base env, name => env[name]?
  | overlay writes below, name => writes[name]?.or (below.lookup name)

/-- Binds a name in the topmost layer. -/
def bind (name : Name) (e : Expr) : View → View
  | base env => base (env.insert name e)
  | overlay writes below => overlay (writes.insert name e) below

/-- Binds everything that `more` binds in the topmost layer. -/
def bindAll (more : Environment) : View → View
  | base env => base (env ∪ more)
  | overlay writes below => overlay (writes ∪ more) below

/-- The bindings of the topmost layer. -/
def top : View → Environment
  | base env => env
  | overlay writes _ => writes

/-- The environment that binds each name as the view does. -/
def flatten : View → Environment
  | base env => env
  | overlay writes below => below.flatten ∪ writes

/-- The number of bindings in all layers, which is at least the number of bound names. -/
def bindingCount : View → Nat
  | base env => env.size
  | overlay writes below => writes.size + below.bindingCount

/-! ### What a lookup gives -/

@[simp] theorem lookup_base (env : Environment) (name : Name) :
    (base env).lookup name = env[name]? := rfl

@[simp] theorem lookup_overlay (writes : Environment) (below : View) (name : Name) :
    (overlay writes below).lookup name = writes[name]?.or (below.lookup name) := rfl

/-- A new overlay changes no lookup. -/
@[simp] theorem lookup_overlay_empty (below : View) (name : Name) :
    (overlay ∅ below).lookup name = below.lookup name := by
  simp

theorem lookup_bind (view : View) (name : Name) (e : Expr) (other : Name) :
    (view.bind name e).lookup other = if name = other then some e else view.lookup other := by
  cases view with
  | base env =>
    simp only [bind, lookup_base, Std.ExtTreeMap.getElem?_insert, Std.compare_eq_iff_eq]
  | overlay writes below =>
    simp only [bind, lookup_overlay, Std.ExtTreeMap.getElem?_insert, Std.compare_eq_iff_eq]
    split <;> simp

theorem lookup_bindAll (view : View) (more : Environment) (name : Name) :
    (view.bindAll more).lookup name = more[name]?.or (view.lookup name) := by
  cases view with
  | base env => simp [bindAll, Std.ExtTreeMap.getElem?_union]
  | overlay writes below =>
    simp [bindAll, Std.ExtTreeMap.getElem?_union, Option.or_assoc]

/-- The environment that a view amounts to has the same lookups as the view. -/
theorem getElem?_flatten (view : View) (name : Name) : view.flatten[name]? = view.lookup name := by
  induction view with
  | base env => rfl
  | overlay writes below ih =>
    simp [flatten, Std.ExtTreeMap.getElem?_union, ih]

end View

end Roster
