/-
**Reads and definitions: which names an expression holds, and the graph of a view.**

An expression holds names in two ways: as reads and as the names of definitions.  Both are listed
from left to right, and the body of a definition counts like any other part.  Through the
expressions bound in a view, reads become the edges of a graph on names.  No evaluation ends at a
name that leads back to itself, so what matters most about this graph is that it has no loop.

Main definitions:

* `Expr.reads`, `Expr.targets`: the names that an expression reads, and those that it defines;
* `Expr.Within`: all reads and all definitions lie in given sets of names;
* `View.meaning`: the expression that stands for a name, which is the empty list if the name is
  unbound;
* `View.Reads`, `View.Acyclic`: the graph of a view, and the views without loops;
* `View.Reaches`: the names that an expression leads to through reads;
* `View.Closed`: the bindings of some names lead to no others.

Main results:

* `Expr.mem_definedNames`: what the analysis calls the definitions of an expression;
* `View.Closed.of_reaches`: a closed set that holds the reads of an expression holds all that the
  expression leads to;
* `View.reaches_iff_exists_read`: an expression leads to what it reads, and to what can be reached
  from there;
* `View.Acyclic.not_reaches_self`: no list of an acyclic view leads to itself.
-/

import Mathlib.Data.Set.Basic
import Mathlib.Logic.Relation
import Roster.Binding.Dependencies

set_option relaxedAutoImplicit false
set_option autoImplicit false

namespace Roster

theorem NameSet.mem_insert_iff {names : NameSet} {name other : Name} :
    other ∈ names.insert name ↔ other = name ∨ other ∈ names := by
  rw [Std.ExtTreeSet.mem_insert, Std.compare_eq_iff_eq, eq_comm]

/-! ### The names that an expression holds -/

namespace Expr

/-- The names that an expression reads, from left to right. -/
def reads : Expr → List Name
  | .address _ => []
  | .empty => []
  | .read name => [name]
  | .combine _ left right => left.reads ++ right.reads
  | .define _ body => body.reads

/-- The names that an expression defines, from left to right. -/
def targets : Expr → List Name
  | .address _ => []
  | .empty => []
  | .read _ => []
  | .combine _ left right => left.targets ++ right.targets
  | .define name body => name :: body.targets

/-- An expression without definitions. -/
def DefineFree (e : Expr) : Prop := e.targets = []

@[simp] theorem reads_address (text : String) : (address text).reads = [] := rfl

@[simp] theorem reads_empty : empty.reads = [] := rfl

@[simp] theorem reads_read (name : Name) : (read name).reads = [name] := rfl

@[simp] theorem reads_combine (op : Operator) (left right : Expr) :
    (combine op left right).reads = left.reads ++ right.reads := rfl

@[simp] theorem reads_define (name : Name) (body : Expr) :
    (define name body).reads = body.reads := rfl

@[simp] theorem targets_address (text : String) : (address text).targets = [] := rfl

@[simp] theorem targets_empty : empty.targets = [] := rfl

@[simp] theorem targets_read (name : Name) : (read name).targets = [] := rfl

@[simp] theorem targets_combine (op : Operator) (left right : Expr) :
    (combine op left right).targets = left.targets ++ right.targets := rfl

@[simp] theorem targets_define (name : Name) (body : Expr) :
    (define name body).targets = name :: body.targets := rfl

/-- The analysis adds to the given names those that the expression defines. -/
theorem mem_definedNames {e : Expr} {names : NameSet} {name : Name} :
    name ∈ e.definedNames names ↔ name ∈ names ∨ name ∈ e.targets := by
  induction e generalizing names with
  | address text => simp [definedNames]
  | empty => simp [definedNames]
  | read other => simp [definedNames]
  | combine op left right ihl ihr =>
      rw [definedNames, ihr, ihl, targets_combine, List.mem_append, or_assoc]
  | define other body ih =>
      rw [definedNames, ih, NameSet.mem_insert_iff, targets_define, List.mem_cons, or_assoc,
        or_left_comm]

/-- The definitions of an expression, as the analysis reports them, are its targets. -/
@[simp] theorem mem_definedNames_empty {e : Expr} {name : Name} :
    name ∈ e.definedNames ∅ ↔ name ∈ e.targets := by
  simp [mem_definedNames]

/-- An expression that reads only names in `readable` and defines only names in `definable`. -/
structure Within (readable definable : Set Name) (e : Expr) : Prop where
  reads : ∀ name ∈ e.reads, name ∈ readable
  targets : ∀ name ∈ e.targets, name ∈ definable

theorem within_univ (e : Expr) : e.Within Set.univ Set.univ := ⟨by simp, by simp⟩

/-- An expression within given sets is within larger ones. -/
theorem Within.mono {readable definable readable' definable' : Set Name} {e : Expr}
    (h : e.Within readable definable) (hreadable : readable ⊆ readable')
    (hdefinable : definable ⊆ definable') : e.Within readable' definable' :=
  ⟨fun name hname => hreadable (h.reads name hname),
    fun name hname => hdefinable (h.targets name hname)⟩

section

variable {readable definable : Set Name}

@[simp] theorem within_address (text : String) : (address text).Within readable definable :=
  ⟨by simp, by simp⟩

@[simp] theorem within_empty : empty.Within readable definable := ⟨by simp, by simp⟩

@[simp] theorem within_read {name : Name} :
    (read name).Within readable definable ↔ name ∈ readable := by
  constructor
  · intro h
    exact h.reads name (by simp)
  · intro h
    exact ⟨by simpa using h, by simp⟩

@[simp] theorem within_combine {op : Operator} {left right : Expr} :
    (combine op left right).Within readable definable ↔
      left.Within readable definable ∧ right.Within readable definable := by
  constructor
  · intro h
    refine ⟨⟨?_, ?_⟩, ⟨?_, ?_⟩⟩
    · exact fun name hn => h.reads name (by simp [hn])
    · exact fun name hn => h.targets name (by simp [hn])
    · exact fun name hn => h.reads name (by simp [hn])
    · exact fun name hn => h.targets name (by simp [hn])
  · rintro ⟨hl, hr⟩
    refine ⟨fun name hn => ?_, fun name hn => ?_⟩
    · rcases List.mem_append.1 hn with hn | hn
      · exact hl.reads name hn
      · exact hr.reads name hn
    · rcases List.mem_append.1 hn with hn | hn
      · exact hl.targets name hn
      · exact hr.targets name hn

@[simp] theorem within_define {name : Name} {body : Expr} :
    (define name body).Within readable definable ↔
      name ∈ definable ∧ body.Within readable definable := by
  constructor
  · intro h
    exact ⟨h.targets name (by simp), h.reads, fun other ho => h.targets other (by simp [ho])⟩
  · rintro ⟨hname, hbody⟩
    refine ⟨hbody.reads, fun other ho => ?_⟩
    rcases List.mem_cons.1 ho with rfl | ho
    · exact hname
    · exact hbody.targets other ho

end

end Expr

/-! ### The graph of a view -/

namespace View

/-- The expression that stands for a name: what is bound to it, and the empty list if nothing
is. -/
def meaning (view : View) (name : Name) : Expr := (view.lookup name).getD .empty

theorem meaning_of_lookup {view : View} {name : Name} {e : Expr} (h : view.lookup name = some e) :
    view.meaning name = e := by
  rw [meaning, h, Option.getD_some]

theorem meaning_of_unbound {view : View} {name : Name} (h : view.lookup name = none) :
    view.meaning name = .empty := by
  rw [meaning, h, Option.getD_none]

/-- A name reads another one if what is bound to it does. -/
def Reads (view : View) (name other : Name) : Prop :=
  ∃ e, view.lookup name = some e ∧ other ∈ e.reads

/-- No name leads back to itself through one or more reads. -/
def Acyclic (view : View) : Prop := ∀ name, ¬ Relation.TransGen view.Reads name name

theorem reads_iff {view : View} {name other : Name} :
    view.Reads name other ↔ other ∈ (view.meaning name).reads := by
  constructor
  · rintro ⟨e, he, hother⟩
    rwa [meaning_of_lookup he]
  · intro h
    cases he : view.lookup name with
    | none => simp [meaning_of_unbound he] at h
    | some e => exact ⟨e, he, by rwa [meaning_of_lookup he] at h⟩

/-- Only the meanings of names matter for the graph of a view. -/
theorem reads_congr {view other : View} (h : ∀ name, view.meaning name = other.meaning name) :
    view.Reads = other.Reads := by
  funext name target
  rw [reads_iff, reads_iff, h]

theorem Acyclic.congr {view other : View} (hview : view.Acyclic)
    (h : ∀ name, view.meaning name = other.meaning name) : other.Acyclic := by
  rw [Acyclic, ← reads_congr h]
  exact hview

theorem meaning_overlay_empty (view : View) (name : Name) :
    (overlay ∅ view).meaning name = view.meaning name := by
  rw [meaning, meaning, lookup_overlay_empty]

theorem Acyclic.overlay {view : View} (hview : view.Acyclic) : (View.overlay ∅ view).Acyclic :=
  hview.congr fun name => (view.meaning_overlay_empty name).symm

/-- An environment without bindings has no loops. -/
theorem acyclic_empty : (base ∅).Acyclic := by
  intro name h
  obtain ⟨other, ⟨e, he, -⟩, -⟩ := Relation.TransGen.head'_iff.1 h
  simp at he

/-! ### What an expression leads to -/

/-- The names that an expression leads to through reads, where no name on the way, the last one
included, is among the names that have been expanded already. -/
inductive ReachesPast (view : View) (expanded : NameSet) (e : Expr) : Name → Prop
  | direct {name : Name} : name ∈ e.reads → name ∉ expanded → ReachesPast view expanded e name
  | next {via name : Name} : ReachesPast view expanded e via → view.Reads via name →
      name ∉ expanded → ReachesPast view expanded e name

/-- The names that an expression leads to through one or more reads. -/
abbrev Reaches (view : View) (e : Expr) : Name → Prop := view.ReachesPast ∅ e

theorem Reaches.direct {view : View} {e : Expr} {name : Name} (h : name ∈ e.reads) :
    view.Reaches e name :=
  ReachesPast.direct h (by simp)

theorem Reaches.next {view : View} {e : Expr} {via name : Name} (hvia : view.Reaches e via)
    (h : view.Reads via name) : view.Reaches e name :=
  ReachesPast.next hvia h (by simp)

/-- A combination leads to what either operand leads to. -/
theorem reaches_combine_iff {view : View} {op : Operator} {left right : Expr} {name : Name} :
    view.Reaches (.combine op left right) name ↔
      view.Reaches left name ∨ view.Reaches right name := by
  constructor
  · intro h
    induction h with
    | direct hmem _ =>
        rcases List.mem_append.1 hmem with hmem | hmem
        · exact Or.inl (Reaches.direct hmem)
        · exact Or.inr (Reaches.direct hmem)
    | next _ hread _ ih => exact ih.imp (·.next hread) (·.next hread)
  · rintro (h | h)
    · induction h with
      | direct hmem _ => exact Reaches.direct (List.mem_append_left _ hmem)
      | next _ hread _ ih => exact ih.next hread
    · induction h with
      | direct hmem _ => exact Reaches.direct (List.mem_append_right _ hmem)
      | next _ hread _ ih => exact ih.next hread

/-- A read leads to its name, and to all that what stands for the name leads to. -/
theorem reaches_read_iff {view : View} {name other : Name} :
    view.Reaches (.read name) other ↔ other = name ∨ view.Reaches (view.meaning name) other := by
  constructor
  · intro h
    induction h with
    | direct hmem _ => exact Or.inl (List.mem_singleton.1 hmem)
    | next _ hread _ ih =>
        rcases ih with rfl | hvia
        · exact Or.inr (Reaches.direct (reads_iff.1 hread))
        · exact Or.inr (hvia.next hread)
  · rintro (rfl | h)
    · exact Reaches.direct (by simp)
    · induction h with
      | direct hmem _ => exact (Reaches.direct (by simp)).next (reads_iff.2 hmem)
      | next _ hread _ ih => exact ih.next hread

/-- What stands for a name leads to what the name itself leads to. -/
theorem reaches_meaning_iff {view : View} {name other : Name} :
    view.Reaches (view.meaning name) other ↔ Relation.TransGen view.Reads name other := by
  constructor
  · intro h
    induction h with
    | direct hmem _ => exact Relation.TransGen.single (reads_iff.2 hmem)
    | next _ hread _ ih => exact ih.tail hread
  · intro h
    induction h with
    | single hread => exact Reaches.direct (reads_iff.1 hread)
    | tail _ hread ih => exact ih.next hread

/-- An expression leads to its reads and to what they lead to. -/
theorem reaches_iff_exists_read {view : View} {e : Expr} {name : Name} :
    view.Reaches e name ↔ ∃ via ∈ e.reads, Relation.ReflTransGen view.Reads via name := by
  constructor
  · intro h
    induction h with
    | direct hmem _ => exact ⟨_, hmem, Relation.ReflTransGen.refl⟩
    | next _ hread _ ih =>
        obtain ⟨via, hvia, hpath⟩ := ih
        exact ⟨via, hvia, hpath.tail hread⟩
  · rintro ⟨via, hvia, hpath⟩
    induction hpath with
    | refl => exact Reaches.direct hvia
    | tail _ hread ih => exact ih.next hread

/-- No list of an acyclic view leads to itself. -/
theorem Acyclic.not_reaches_self {view : View} (hview : view.Acyclic) {name : Name} {e : Expr}
    (he : view.lookup name = some e) : ¬ view.Reaches e name :=
  fun h => hview name (reaches_meaning_iff.1 (by rwa [meaning_of_lookup he]))

/-! ### Closed sets of names -/

/-- What is bound to a name in `readable` reads only names in `readable` and defines only names in
`definable`. -/
def Closed (readable definable : Set Name) (view : View) : Prop :=
  ∀ name ∈ readable, ∀ e, view.lookup name = some e → e.Within readable definable

theorem Closed.meaning {readable definable : Set Name} {view : View}
    (h : view.Closed readable definable) {name : Name} (hname : name ∈ readable) :
    (view.meaning name).Within readable definable := by
  cases he : view.lookup name with
  | none => simp [meaning_of_unbound he]
  | some e =>
      rw [meaning_of_lookup he]
      exact h name hname e he

theorem closed_univ (view : View) : view.Closed Set.univ Set.univ :=
  fun _ _ e _ => e.within_univ

/-- A closed set of names that holds the reads of an expression holds all names that the
expression leads to. -/
theorem Closed.of_reaches {readable definable : Set Name} {view : View}
    (h : view.Closed readable definable) {e : Expr} (he : ∀ name ∈ e.reads, name ∈ readable)
    {name : Name} (hname : view.Reaches e name) : name ∈ readable := by
  induction hname with
  | direct hmem _ => exact he _ hmem
  | next _ hread _ ih =>
      obtain ⟨e', he', hmem⟩ := hread
      exact (h _ ih e' he').reads _ hmem

/-- An expression without reads leads nowhere. -/
theorem not_reaches_of_reads_eq_nil {view : View} {e : Expr} (h : e.reads = []) {name : Name} :
    ¬ view.Reaches e name := by
  intro hname
  induction hname with
  | direct hmem _ => simp [h] at hmem
  | next _ _ _ ih => exact ih

/-- The names defined by an expression or by what is bound to the names that it leads to. -/
def Definable (view : View) (e : Expr) : Set Name :=
  {name | name ∈ e.targets ∨
    ∃ via b, view.Reaches e via ∧ view.lookup via = some b ∧ name ∈ b.targets}

/-- What an expression leads to is closed. -/
theorem closed_reaches (view : View) (e : Expr) :
    view.Closed (view.Reaches e) (view.Definable e) := by
  intro name hname b hb
  exact ⟨fun other hother => Reaches.next hname ⟨b, hb, hother⟩,
    fun other hother => Or.inr ⟨name, b, hname, hb, hother⟩⟩

theorem within_reaches (view : View) (e : Expr) :
    e.Within (view.Reaches e) (view.Definable e) :=
  ⟨fun _ h => Reaches.direct h, fun _ h => Or.inl h⟩

end View

end Roster
