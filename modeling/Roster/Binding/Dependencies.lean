/-
**The names that an expression depends on.**

The analysis has two extents.  The definitions of an expression are the names that it defines
itself.  Its transitive dependencies are, in addition, the names that it reads and all that is
defined or read by the expressions bound to them.  A walk through the bindings keeps the set of
names that it has expanded already, and a caller may put names into that set from the start: such a
name is still reported, but what is bound to it is not looked into.

Main definitions:

* `Expr.definedNames`: the names that an expression defines;
* `Walk`: what a walk has reported and which names it has expanded;
* `Expr.visit`: the walk through one expression, given what to do at a read;
* `View.walk`: the walk through an expression and the bindings that it reaches;
* `View.dependencies`: the analysis;
* `View.reached`: the transitive dependencies when nothing has been expanded.
-/

import Roster.Binding.View

set_option relaxedAutoImplicit false
set_option autoImplicit false

namespace Roster

/-- How far the analysis goes. -/
inductive Extent where
  /-- Every name that is defined or read, in the expression or in a binding that it reaches. -/
  | transitive
  /-- The names that the expression itself defines. -/
  | definitions
deriving DecidableEq

/-- The names that an expression defines, in addition to `names`. -/
def Expr.definedNames : Expr → NameSet → NameSet
  | .address _, names => names
  | .empty, names => names
  | .read _, names => names
  | .combine _ left right, names => right.definedNames (left.definedNames names)
  | .define name body, names => body.definedNames (names.insert name)

/-- The state of a walk: the names that are reported, and the names whose bindings are not to be
expanded (again). -/
structure Walk where
  reported : NameSet
  expanded : NameSet

namespace Walk

/-- Reports a name. -/
def report (name : Name) (walk : Walk) : Walk :=
  { walk with reported := walk.reported.insert name }

/-- Marks a name as expanded. -/
def mark (name : Name) (walk : Walk) : Walk :=
  { walk with expanded := walk.expanded.insert name }

end Walk

/-- Walks through an expression from left to right; `onRead` says what happens at the read of a
list. -/
def Expr.visit (onRead : Name → Walk → Walk) : Expr → Walk → Walk
  | .address _, walk => walk
  | .empty, walk => walk
  | .read name, walk => onRead name walk
  | .combine _ left right, walk => right.visit onRead (left.visit onRead walk)
  | .define name body, walk => body.visit onRead (walk.report name)

namespace View

/-- The read of a list during a walk: the name is reported, and what is bound to it is walked
through unless the name has been expanded before.  At most `depth` bindings are expanded within one
another. -/
def expand (view : View) : Nat → Name → Walk → Walk
  | depth, name, walk =>
    let walk := walk.report name
    if name ∈ walk.expanded then
      walk
    else
      let walk := walk.mark name
      match depth, view.lookup name with
      | 0, _ => walk
      | _ + 1, none => walk
      | depth + 1, some e => e.visit (view.expand depth) walk

/-- Walks through an expression and the bindings that it reaches.  Every binding that is expanded
within another one belongs to a name that was not expanded before, so the number of bindings is
depth enough. -/
def walk (view : View) (e : Expr) (expanded : NameSet) : Walk :=
  e.visit (view.expand view.bindingCount) ⟨∅, expanded⟩

/-- The names that an expression depends on, and the names that have been expanded afterwards. -/
def dependencies (view : View) (extent : Extent) (e : Expr) (expanded : NameSet) : Walk :=
  match extent with
  | .transitive => view.walk e expanded
  | .definitions => ⟨e.definedNames ∅, expanded⟩

/-- The transitive dependencies of an expression when nothing has been expanded. -/
def reached (view : View) (e : Expr) : NameSet :=
  (view.walk e ∅).reported

end View

end Roster
