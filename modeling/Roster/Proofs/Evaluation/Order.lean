/-
**Definitions in an order never close a cycle.**

A definition is refused if it reads a list that leads back to its name or defines the name on the
way.  Whether this happens depends on the bindings at the moment of the check, and definitions that
stand inside of others may change them before it comes to the check.  No binding can do harm,
though, if all definitions keep to a common order, in which the definitions of a name only read
names further down, and nothing further down defines the name.

A snapshot keeps to the order as well.  It holds what the name was bound to before, which reads
names further down than the name itself, and hence further down than any name whose definition reads
it.

Main definitions:

* `Expr.definitions`: the definitions in an expression;
* `Plan`: an order, given by the names that the definitions of each name may read and define;
* `Plan.Keeps`, `Plan.Binds`: the expressions and the bindings that keep to a plan.

Main results:

* `Plan.hereditary`: **what keeps to a plan only binds what keeps to it**;
* `Plan.not_failedCheck`: **no definition that keeps to a plan is refused**.
-/

import Roster.Proofs.Evaluation.Hereditary

set_option relaxedAutoImplicit false
set_option autoImplicit false

namespace Roster

open View

/-! ### Definitions -/

/-- The definitions in an expression, each with its body, from left to right. -/
def Expr.definitions : Expr → List (Name × Expr)
  | .address _ => []
  | .empty => []
  | .read _ => []
  | .combine _ left right => left.definitions ++ right.definitions
  | .define name body => (name, body) :: body.definitions

/-! ### Plans -/

/-- A plan says which names the definitions of a name may read, apart from the name itself, and
which names they may define.  It lets no name read itself through others, nor read another name
whose definitions define it. -/
structure Plan where
  readable : Name → Set Name
  definable : Name → Set Name
  readable_subset {name via : Name} : via ∈ readable name → readable via ⊆ readable name
  definable_subset {name via : Name} : via ∈ readable name → definable via ⊆ definable name
  not_readable (name : Name) : name ∉ readable name
  not_definable {name via : Name} : via ∈ readable name → name ∉ definable via

namespace Plan

variable {plan : Plan} {view : View} {name target : Name} {e body former : Expr}

/-- All definitions in an expression are such as the plan lets them be. -/
def Keeps (plan : Plan) (e : Expr) : Prop :=
  ∀ name body, (name, body) ∈ e.definitions →
    body.Within (insert name (plan.readable name)) (plan.definable name)

/-- An expression that may be bound to a name: it keeps to the plan, and no longer reads the
name. -/
structure Binds (plan : Plan) (name : Name) (e : Expr) : Prop where
  within : e.Within (plan.readable name) (plan.definable name)
  keeps : plan.Keeps e

theorem keeps_combine {op : Operator} {left right : Expr} :
    plan.Keeps (.combine op left right) ↔ plan.Keeps left ∧ plan.Keeps right := by
  constructor
  · intro h
    exact ⟨fun name body hmem => h name body (List.mem_append_left _ hmem),
      fun name body hmem => h name body (List.mem_append_right _ hmem)⟩
  · rintro ⟨hl, hr⟩ name body hmem
    rcases List.mem_append.1 hmem with hmem | hmem
    · exact hl name body hmem
    · exact hr name body hmem

theorem keeps_define :
    plan.Keeps (.define name body) ↔
      body.Within (insert name (plan.readable name)) (plan.definable name) ∧ plan.Keeps body := by
  constructor
  · intro h
    exact ⟨h name body List.mem_cons_self,
      fun other b hmem => h other b (List.mem_cons_of_mem _ hmem)⟩
  · rintro ⟨hwithin, hkeeps⟩ other b hmem
    rcases List.mem_cons.1 hmem with heq | hmem
    · cases heq
      exact hwithin
    · exact hkeeps other b hmem

/-- An expression without definitions keeps to every plan. -/
theorem keeps_of_definitions_eq_nil (h : e.definitions = []) : plan.Keeps e := by
  intro name body hmem
  rw [h] at hmem
  cases hmem

/-- A substitution keeps to the plan, as what replaces a read of `target` reads and defines no more
than what may be read and defined where `target` may be read. -/
theorem Keeps.substitute (he : plan.Keeps e) (hformer : plan.Binds target former) :
    plan.Keeps (e.substitute target former) := by
  induction e with
  | address text => exact he
  | empty => exact he
  | read other =>
      rw [Expr.substitute]
      split
      · exact hformer.keeps
      · exact he
  | combine op left right ihl ihr =>
      obtain ⟨hl, hr⟩ := keeps_combine.1 he
      exact keeps_combine.2 ⟨ihl hl, ihr hr⟩
  | define other body ih =>
      obtain ⟨hwithin, hkeeps⟩ := keeps_define.1 he
      refine keeps_define.2 ⟨hwithin.substitute fun hread => ?_, ih hkeeps⟩
      rcases hwithin.reads target hread with rfl | hbelow
      · exact ⟨fun via hvia => Or.inr (hformer.within.reads via hvia), hformer.within.targets⟩
      · exact ⟨fun via hvia => Or.inr (plan.readable_subset hbelow (hformer.within.reads via hvia)),
          fun via hvia => plan.definable_subset hbelow (hformer.within.targets via hvia)⟩

/-- The snapshot of a definition that keeps to the plan no longer reads the name. -/
theorem binds_substitute (hdefine : plan.Keeps (.define name body))
    (hformer : plan.Binds name former) : plan.Binds name (body.substitute name former) := by
  obtain ⟨hwithin, hkeeps⟩ := keeps_define.1 hdefine
  refine ⟨⟨fun via hvia => ?_, fun via hvia => ?_⟩, hkeeps.substitute hformer⟩
  · rcases Expr.mem_reads_substitute.1 hvia with ⟨hvia, hne⟩ | ⟨-, hvia⟩
    · exact (hwithin.reads via hvia).resolve_left hne
    · exact hformer.within.reads via hvia
  · rcases Expr.mem_targets_substitute.1 hvia with hvia | ⟨-, hvia⟩
    · exact hwithin.targets via hvia
    · exact hformer.within.targets via hvia

/-- **What keeps to a plan only binds what keeps to it**, and brings in no compositions. -/
theorem hereditary (plan : Plan) :
    Hereditary (fun e => plan.Keeps e ∧ e.ParallelFree)
      (fun name e => plan.Binds name e ∧ e.ParallelFree) where
  read _ := ⟨⟨Expr.within_empty, keeps_of_definitions_eq_nil rfl⟩, trivial⟩
  bound _ h := ⟨h.1.keeps, h.2⟩
  operands h := ⟨⟨(keeps_combine.1 h.1).1, h.2.2.1⟩, (keeps_combine.1 h.1).2, h.2.2.2⟩
  body h := ⟨(keeps_define.1 h.1).2, h.2⟩
  define _ := ⟨⟨Expr.within_empty, keeps_of_definitions_eq_nil rfl⟩, trivial⟩
  snapshot h hformer := ⟨binds_substitute h.1 hformer.1, Expr.ParallelFree.substitute h.2 hformer.2⟩

/-! ### No cycles -/

/-- What may be read by the definitions of a name does not lead back to the name. -/
theorem not_mem_reached {via : Name} (hview : view.All plan.Binds)
    (hvia : via ∈ plan.readable name) : name ∉ view.reached (view.meaning via) := by
  -- the names further down are closed, and nothing that is bound to them defines the name
  have hclosed : view.Closed (plan.readable name)
      {other | ∃ below ∈ plan.readable name, other ∈ plan.definable below} := by
    intro below hbelow b hb
    have hwithin := (hview below b hb).within
    exact ⟨fun other hother => plan.readable_subset hbelow (hwithin.reads other hother),
      fun other hother => ⟨below, hbelow, hwithin.targets other hother⟩⟩
  intro hname
  rcases hclosed.of_mem_reached (hclosed.meaning hvia) hname with hname | ⟨below, hbelow, hname⟩
  · exact plan.not_readable name hname
  · exact plan.not_definable hbelow hname

/-- **No definition that keeps to a plan is refused**, in a view that keeps to it. -/
theorem not_failedCheck (plan : Plan) (error : EvalError) :
    ¬ FailedCheck (fun e => plan.Keeps e ∧ e.ParallelFree)
      (fun name e => plan.Binds name e ∧ e.ParallelFree) error := by
  rintro ⟨view, @⟨name, body, hview, hdefine, hsnapshot⟩ |
    @⟨name, snapshot, hview, hbinds, hallow⟩⟩
  · have hok : view.snapshot name body = .ok (body.substitute name (view.meaning name)) := by
      refine snapshot_eq_ok_iff.2 ⟨fun via hvia hne => ?_, rfl⟩
      have hreadable := ((keeps_define.1 hdefine.1).1.reads via hvia).resolve_left hne
      exact not_mem_reached (fun other b hb => (hview other b hb).1) hreadable
    rw [hok] at hsnapshot
    cases hsnapshot
  · have hok : view.allowBinding name snapshot = .ok () := by
      refine allowBinding_eq_ok_iff.2 fun via hvia => ?_
      have hreadable := hbinds.1.within.reads via hvia
      refine ⟨?_, not_mem_reached (fun other b hb => (hview other b hb).1) hreadable⟩
      rintro rfl
      exact plan.not_readable via hreadable
    rw [hok] at hallow
    cases hallow

end Plan

end Roster
