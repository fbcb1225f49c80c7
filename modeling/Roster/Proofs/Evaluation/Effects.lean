/-
**What an evaluation may write.**

Which names an evaluation can read and which it can define is settled before it begins.  Take two
sets of names, the *readable* and the *definable* ones, such that what is bound to a readable name
stays within the two sets.  An evaluation of an expression within the sets then has an *effect* of a
simple form:

* a definable name may be bound to any expression that is again within the sets;
* every other name that is written is a readable name that was unbound, and is bound to the empty
  list.

Bindings of the second kind change no meaning, since an unbound name already stands for the empty
list.  So after an effect the sets are as good as before it, which is what lets effects follow each
other.

Main definitions:

* `View.Effect`: the writes that an evaluation within given sets can make; the names that it has
  touched without defining them are given by a third set, which does not depend on what was bound;
* `View.Alike`: views in which the definable names have the same bindings and the readable names the
  same meanings.

Main results:

* `View.Effect.trans`, `View.Effect.union`: effects one after the other and side by side;
* `View.Effect.ext`: effects that touch the same names differ at the definable names only;
* `View.Closed.after`, `View.Alike.after`: closed sets stay closed, and views alike stay alike.
-/

import Roster.Proofs.Evaluation.Checks

set_option relaxedAutoImplicit false
set_option autoImplicit false

namespace Roster.View

/-! ### Committing writes -/

@[simp] theorem bindAll_empty (view : View) : view.bindAll ∅ = view := by
  cases view with
  | base env =>
      refine congrArg base (Std.ExtTreeMap.ext_getElem? fun name => ?_)
      simp [Std.ExtTreeMap.getElem?_union]
  | overlay writes below =>
      refine congrArg (overlay · below) (Std.ExtTreeMap.ext_getElem? fun name => ?_)
      simp [Std.ExtTreeMap.getElem?_union]

theorem bindAll_bindAll (view : View) (first second : Environment) :
    (view.bindAll first).bindAll second = view.bindAll (first ∪ second) := by
  cases view with
  | base env =>
      refine congrArg base (Std.ExtTreeMap.ext_getElem? fun name => ?_)
      simp [Std.ExtTreeMap.getElem?_union, Option.or_assoc]
  | overlay writes below =>
      refine congrArg (overlay · below) (Std.ExtTreeMap.ext_getElem? fun name => ?_)
      simp [Std.ExtTreeMap.getElem?_union, Option.or_assoc]

/-- A binding on top of writes is one more write. -/
theorem bind_bindAll (view : View) (writes : Environment) (name : Name) (e : Expr) :
    (view.bindAll writes).bind name e = view.bindAll (writes.insert name e) := by
  cases view with
  | base env =>
      refine congrArg base (Std.ExtTreeMap.ext_getElem? fun other => ?_)
      simp only [Std.ExtTreeMap.getElem?_union, Std.ExtTreeMap.getElem?_insert]
      split <;> simp
  | overlay top below =>
      refine congrArg (overlay · below) (Std.ExtTreeMap.ext_getElem? fun other => ?_)
      simp only [Std.ExtTreeMap.getElem?_union, Std.ExtTreeMap.getElem?_insert]
      split <;> simp

theorem top_bindAll_overlay_empty (view : View) (writes : Environment) :
    ((overlay ∅ view).bindAll writes).top = writes := by
  refine Std.ExtTreeMap.ext_getElem? fun name => ?_
  simp [bindAll, top, Std.ExtTreeMap.getElem?_union]

/-! ### Effects -/

section

variable {readable definable touched touched' : Set Name} {view other : View}
  {writes writes' : Environment}

/-- The writes of an evaluation that reads and defines only names in given sets.  A name that is not
definable is written exactly if it has been touched and was unbound. -/
structure Effect (readable definable touched : Set Name) (view : View) (writes : Environment) :
    Prop where
  within : ∀ name ∈ definable, ∀ e, writes[name]? = some e → e.Within readable definable
  fresh : ∀ name ∉ definable, ∀ e,
    writes[name]? = some e ↔ name ∈ touched ∧ view.lookup name = none ∧ e = .empty
  readable : ∀ name ∈ touched, name ∈ readable

theorem Effect.none (view : View) : Effect readable definable ∅ view ∅ :=
  ⟨by simp, by simp, by simp⟩

/-- The first read of an unbound name. -/
theorem Effect.first_read {name : Name} (hname : name ∈ readable) (h : view.lookup name = .none) :
    Effect readable definable {name} view ((∅ : Environment).insert name .empty) := by
  refine ⟨?_, ?_, by simpa using hname⟩
  · intro other _ e he
    simp only [Std.ExtTreeMap.getElem?_insert, Std.compare_eq_iff_eq] at he
    split at he
    · cases he
      exact Expr.within_empty
    · simp at he
  · intro other _ e
    simp only [Std.ExtTreeMap.getElem?_insert, Std.compare_eq_iff_eq]
    by_cases hother : name = other
    · subst hother
      simp [h, eq_comm]
    · simp [hother, Ne.symm hother]

/-- The read of a bound name writes nothing, and would do so only if the name were unbound. -/
theorem Effect.read_bound {name : Name} (hname : name ∈ readable)
    (h : view.lookup name ≠ .none) : Effect readable definable {name} view ∅ := by
  refine ⟨by simp, ?_, by simpa using hname⟩
  intro other _ e
  simp only [Std.ExtTreeMap.getElem?_empty, reduceCtorEq, Set.mem_singleton_iff, false_iff]
  rintro ⟨rfl, hnone, -⟩
  exact h hnone

theorem Effect.congr (h : ∀ name, view.lookup name = other.lookup name)
    (heffect : Effect readable definable touched view writes) :
    Effect readable definable touched other writes :=
  ⟨heffect.within, fun name hname e => by rw [heffect.fresh name hname, h], heffect.readable⟩

/-- A write outside the definable names binds an unbound name to the empty list. -/
theorem Effect.eq_empty (h : Effect readable definable touched view writes) {name : Name}
    (hname : name ∉ definable) {e : Expr} (he : writes[name]? = some e) :
    name ∈ readable ∧ view.lookup name = .none ∧ e = .empty := by
  obtain ⟨htouched, hnone, rfl⟩ := (h.fresh name hname e).1 he
  exact ⟨h.readable name htouched, hnone, rfl⟩

/-- Everything written is within the sets. -/
theorem Effect.within_of_some (h : Effect readable definable touched view writes) {name : Name}
    {e : Expr} (he : writes[name]? = some e) : e.Within readable definable := by
  by_cases hname : name ∈ definable
  · exact h.within name hname e he
  · rw [(h.eq_empty hname he).2.2]
    exact Expr.within_empty

/-- Outside the definable names nothing changes its meaning. -/
theorem Effect.meaning (h : Effect readable definable touched view writes) {name : Name}
    (hname : name ∉ definable) : (view.bindAll writes).meaning name = view.meaning name := by
  rw [View.meaning, View.meaning, lookup_bindAll]
  cases he : writes[name]? with
  | none => rw [Option.none_or]
  | some e =>
      obtain ⟨-, hnone, rfl⟩ := h.eq_empty hname he
      simp [hnone]

/-- An unbound name that is not definable stays unbound exactly if it is not touched. -/
theorem Effect.lookup_eq_none_iff (h : Effect readable definable touched view writes) {name : Name}
    (hname : name ∉ definable) :
    (view.bindAll writes).lookup name = .none ↔ view.lookup name = .none ∧ name ∉ touched := by
  rw [lookup_bindAll, Option.or_eq_none_iff, and_comm]
  refine and_congr_right fun hnone => ?_
  constructor
  · intro hwrites htouched
    have hsome := (h.fresh name hname .empty).2 ⟨htouched, hnone, rfl⟩
    rw [hwrites] at hsome
    cases hsome
  · intro htouched
    cases he : writes[name]? with
    | none => rfl
    | some e => exact absurd ((h.fresh name hname e).1 he).1 htouched

/-- Of two sets of writes within the sets, the union is within them. -/
theorem Effect.within_union (h : Effect readable definable touched view writes)
    (h' : Effect readable definable touched' other writes') :
    ∀ name ∈ definable, ∀ e, (writes ∪ writes')[name]? = some e → e.Within readable definable := by
  intro name hname e he
  rw [Std.ExtTreeMap.getElem?_union, Option.or_eq_some_iff] at he
  rcases he with he | ⟨-, he⟩
  · exact h'.within name hname e he
  · exact h.within name hname e he

theorem Effect.readable_union (h : Effect readable definable touched view writes)
    (h' : Effect readable definable touched' other writes') :
    ∀ name ∈ touched ∪ touched', name ∈ readable := by
  rintro name (hname | hname)
  · exact h.readable name hname
  · exact h'.readable name hname

/-- Effects one after the other. -/
theorem Effect.trans (h : Effect readable definable touched view writes)
    (h' : Effect readable definable touched' (view.bindAll writes) writes') :
    Effect readable definable (touched ∪ touched') view (writes ∪ writes') := by
  refine ⟨h.within_union h', ?_, h.readable_union h'⟩
  intro name hname e
  rw [Std.ExtTreeMap.getElem?_union, Option.or_eq_some_iff, h'.fresh name hname,
    h.fresh name hname, h.lookup_eq_none_iff hname, Set.mem_union]
  constructor
  · rintro (⟨htouched, ⟨hnone, -⟩, he⟩ | ⟨-, htouched, hnone, he⟩)
    · exact ⟨Or.inr htouched, hnone, he⟩
    · exact ⟨Or.inl htouched, hnone, he⟩
  · rintro ⟨htouched, hnone, he⟩
    -- a name that the first effect has touched is bound by now, and the second one spares it
    by_cases hfirst : name ∈ touched
    · refine Or.inr ⟨?_, hfirst, hnone, he⟩
      cases hwrites : writes'[name]? with
      | none => rfl
      | some e' =>
          have hlookup := (h'.eq_empty hname hwrites).2.1
          exact absurd hfirst ((h.lookup_eq_none_iff hname).1 hlookup).2
    · exact Or.inl ⟨htouched.resolve_left hfirst, ⟨hnone, hfirst⟩, he⟩

/-- Effects side by side. -/
theorem Effect.union (h : Effect readable definable touched view writes)
    (h' : Effect readable definable touched' view writes') :
    Effect readable definable (touched ∪ touched') view (writes ∪ writes') := by
  refine ⟨h.within_union h', ?_, h.readable_union h'⟩
  intro name hname e
  rw [Std.ExtTreeMap.getElem?_union, Option.or_eq_some_iff, h'.fresh name hname,
    h.fresh name hname, Set.mem_union]
  constructor
  · rintro (⟨htouched, hnone, he⟩ | ⟨-, htouched, hnone, he⟩)
    · exact ⟨Or.inr htouched, hnone, he⟩
    · exact ⟨Or.inl htouched, hnone, he⟩
  · rintro ⟨htouched, hnone, rfl⟩
    by_cases hsecond : name ∈ touched'
    · exact Or.inl ⟨hsecond, hnone, rfl⟩
    · refine Or.inr ⟨?_, htouched.resolve_right hsecond, hnone, rfl⟩
      cases hwrites : writes'[name]? with
      | none => rfl
      | some e' => exact absurd ((h'.fresh name hname e').1 hwrites).1 hsecond

/-- A definition after an effect. -/
theorem Effect.insert (h : Effect readable definable touched view writes) {name : Name}
    (hname : name ∈ definable) {e : Expr} (he : e.Within readable definable) :
    Effect readable definable touched view (writes.insert name e) := by
  refine ⟨?_, ?_, h.readable⟩
  · intro other hother e' he'
    simp only [Std.ExtTreeMap.getElem?_insert, Std.compare_eq_iff_eq] at he'
    split at he'
    · cases he'
      exact he
    · exact h.within other hother e' he'
  · intro other hother e'
    have hne : name ≠ other := fun heq => hother (heq ▸ hname)
    simp only [Std.ExtTreeMap.getElem?_insert, Std.compare_eq_iff_eq, if_neg hne]
    exact h.fresh other hother e'

/-- An effect within larger sets: more may be read, and more may be defined. -/
theorem Effect.mono {readable' definable' : Set Name} (hreadable : readable ⊆ readable')
    (hdefinable : definable ⊆ definable') (h : Effect readable definable touched view writes) :
    Effect readable' definable' touched view writes := by
  refine ⟨?_, ?_, fun name hname => hreadable (h.readable name hname)⟩
  · intro name _ e he
    exact (h.within_of_some he).mono hreadable hdefinable
  · intro name hname e
    exact h.fresh name (fun hn => hname (hdefinable hn)) e

/-- An effect is given by what it writes at the definable names, and by what it has touched. -/
theorem Effect.ext (h : Effect readable definable touched view writes)
    (h' : Effect readable definable touched view writes')
    (hsame : ∀ name ∈ definable, writes[name]? = writes'[name]?) : writes = writes' := by
  refine Std.ExtTreeMap.ext_getElem? fun name => ?_
  by_cases hname : name ∈ definable
  · exact hsame name hname
  · exact Option.ext fun e => (h.fresh name hname e).trans (h'.fresh name hname e).symm

/-! ### Views before and after -/

/-- Views in which the definable names have the same bindings, and the readable ones the same
meanings. -/
structure Alike (readable definable : Set Name) (view other : View) : Prop where
  meaning : SameOn readable view other
  lookup : ∀ name ∈ definable, view.lookup name = other.lookup name

theorem Alike.refl (view : View) : Alike readable definable view view :=
  ⟨fun _ _ => rfl, fun _ _ => rfl⟩

theorem Alike.of_lookup (h : ∀ name, view.lookup name = other.lookup name) :
    Alike readable definable view other :=
  ⟨fun name _ => by rw [View.meaning, View.meaning, h], fun name _ => h name⟩

theorem Alike.overlay (h : Alike readable definable view other) :
    Alike readable definable (overlay ∅ view) (overlay ∅ other) := by
  refine ⟨fun name hname => ?_, fun name hname => ?_⟩
  · have hmeaning := h.meaning name hname
    rw [View.meaning, View.meaning] at hmeaning ⊢
    rwa [lookup_overlay_empty, lookup_overlay_empty]
  · rw [lookup_overlay_empty, lookup_overlay_empty]
    exact h.lookup name hname

theorem Closed.overlay (h : view.Closed readable definable) :
    (overlay ∅ view).Closed readable definable := fun name hname e he =>
  h name hname e (by rwa [lookup_overlay_empty] at he)

/-- A closed view stays closed. -/
theorem Closed.after (hview : view.Closed readable definable)
    (h : Effect readable definable touched view writes) :
    (view.bindAll writes).Closed readable definable := by
  intro name hname e he
  rw [lookup_bindAll, Option.or_eq_some_iff] at he
  rcases he with he | ⟨-, he⟩
  · exact h.within_of_some he
  · exact hview name hname e he

/-- Views alike stay alike after effects that agree on the definable names. -/
theorem Alike.after (hview : Alike readable definable view other)
    (h : Effect readable definable touched view writes)
    (h' : Effect readable definable touched' other writes')
    (hsame : ∀ name ∈ definable, writes[name]? = writes'[name]?) :
    Alike readable definable (view.bindAll writes) (other.bindAll writes') := by
  have hlookup : ∀ name ∈ definable,
      (view.bindAll writes).lookup name = (other.bindAll writes').lookup name := by
    intro name hname
    rw [lookup_bindAll, lookup_bindAll, hsame name hname, hview.lookup name hname]
  refine ⟨fun name hname => ?_, hlookup⟩
  by_cases hdefinable : name ∈ definable
  · rw [View.meaning, View.meaning, hlookup name hdefinable]
  · rw [h.meaning hdefinable, h'.meaning hdefinable]
    exact hview.meaning name hname

end

end Roster.View
