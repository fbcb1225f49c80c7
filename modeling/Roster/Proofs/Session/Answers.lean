/-
**An answer is a program for itself.**

The addresses of an answer were cut out of sources, now or when a binding was made, so that each of
them is spelled as the grammar demands.  An answer is printed with commas between its addresses, and
a comma is also the sign of a union.  What is printed is therefore parsed, to the union of the
addresses, and this union is the answer: it reads and defines nothing, so that it is the same in all
environments, and leaves them as they are.

Main definition:

* `Expr.addresses`: the union of addresses.

Main results:

* `evaluate_addresses`: this union is evaluated to the addresses;
* `parse_listed`: **addresses as they are printed** are parsed to their union;
* `answer_is_program`: **an answer that is printed is a program for itself**.
-/

import Roster.Proofs.Parse.Chains
import Roster.Proofs.Session.Sources

set_option relaxedAutoImplicit false
set_option autoImplicit false

namespace Roster

/-- The union of addresses, in the order in which they are given. -/
def Expr.addresses (texts : List String) : Expr :=
  Expr.chain .union (texts.map .address)

theorem Expr.addresses_concat {front : List String} (hfront : front ≠ []) (text : String) :
    Expr.addresses (front ++ [text]) =
      .combine .union (Expr.addresses front) (.address text) := by
  rw [addresses, List.map_append, List.map_singleton,
    Expr.chain_concat _ (by simpa using hfront)]
  rfl

/-- The union of addresses is evaluated to a set that holds these addresses, and no others. -/
theorem exists_evaluate_addresses (texts : List String) (budget : ℕ) (view : View) :
    ∃ answer, evaluate budget (Expr.addresses texts) view = (.ok answer, view) ∧
      ∀ text, text ∈ answer ↔ text ∈ texts := by
  induction texts using List.reverseRecOn with
  | nil => exact ⟨∅, evaluate_empty budget view, by simp⟩
  | append_singleton front text ih =>
      obtain ⟨answer, hrun, hanswer⟩ := ih
      cases front with
      | nil =>
          refine ⟨{text}, evaluate_address budget text view, fun other => ?_⟩
          rw [AddressSet.mem_singleton, List.nil_append, List.mem_singleton]
      | cons first front =>
          refine ⟨answer ∪ {text}, ?_, fun other => ?_⟩
          · rw [Expr.addresses_concat (by simp), evaluate_combine_of_ok (by decide) hrun,
              evaluate_address]
            rfl
          · rw [Std.ExtTreeSet.mem_union_iff, hanswer, AddressSet.mem_singleton, List.mem_append,
              List.mem_singleton]

/-- The union of the addresses of a set is evaluated to the set, in each environment. -/
theorem evaluate_addresses (set : AddressSet) (budget : ℕ) (view : View) :
    evaluate budget (Expr.addresses set.toList) view = (.ok set, view) := by
  obtain ⟨answer, hrun, hanswer⟩ := exists_evaluate_addresses set.toList budget view
  have heq : answer = set :=
    Std.ExtTreeSet.ext_mem fun text => (hanswer text).trans Std.ExtTreeSet.mem_toList
  rw [hrun, heq]

/-- **Addresses as they are printed** are parsed to their union. -/
theorem parse_listed {set : AddressSet} (haddresses : ∀ text ∈ set, AddressText text.toList)
    (hsize : (AddressSet.listed set).utf8ByteSize ≤ Span.limit) :
    parse (AddressSet.listed set) = .ok (Expr.addresses set.toList) := by
  have hparts : ∀ part ∈ set.toList.map fun text => (text, Expr.address text),
      Spells Operator.union.link part.1 part.2 := by
    intro part hpart
    obtain ⟨text, htext, rfl⟩ := List.mem_map.1 hpart
    have haddress := spells_address (haddresses text (Std.ExtTreeSet.mem_toList.1 htext))
    exact haddress.loosen (Nonterminal.level_le_primary _)
  have hspells := spells_chain hparts
  rw [List.map_map, List.map_map, Function.comp_def, List.map_id'] at hspells
  exact hspells.parse_eq hsize

/-- The addresses of an answer are well spelled, if all that is bound is. -/
theorem addressText_of_evalSource {session after : Session} {source : String}
    {addresses : AddressSet} (hview : (View.base session.environment).All WritableBinding)
    (hsize : source.utf8ByteSize ≤ Span.limit)
    (h : session.evalSource source = (.ok addresses, after)) :
    ∀ text ∈ addresses, AddressText text.toList := by
  cases he : parse source with
  | error error =>
      rw [Session.evalSource_of_parse_error he] at h
      cases h
  | ok e =>
      rw [Session.evalSource_of_parse he] at h
      obtain ⟨_, _, hrun, heval⟩ | ⟨_, _, -, heval⟩ := session.evalExpr_cases e
      · rw [heval] at h
        obtain rfl := Except.ok.inj (Prod.mk.inj h).1
        exact hereditary_writable.evaluable_of_mem _ e _ hview (writable_of_parse hsize he) _
          (by rw [hrun])
      · rw [heval] at h
        cases h

/-- **An answer that is printed is a program for itself.**  Let a session that began without
bindings answer with a set of addresses, after any sources.  The text of this answer is parsed, if
it is not too long, and evaluates to the answer in each view and so in each session, where it
changes nothing. -/
theorem answer_is_program {settings : Settings} {sources : List String} {source : String}
    {session after : Session} {addresses : AddressSet}
    (hsources : ∀ other ∈ sources, other.utf8ByteSize ≤ Span.limit)
    (hsource : source.utf8ByteSize ≤ Span.limit)
    (hsession : Session.evalSources ⟨settings, ∅⟩ sources = session)
    (hanswer : session.evalSource source = (.ok addresses, after))
    (hsize : (AddressSet.listed addresses).utf8ByteSize ≤ Span.limit) :
    ∃ e, parse (AddressSet.listed addresses) = .ok e ∧
      (∀ (budget : ℕ) (view : View), evaluate budget e view = (.ok addresses, view)) ∧
      ∀ other : Session,
        other.evalSource (AddressSet.listed addresses) = (.ok addresses, other) := by
  have hview : (View.base session.environment).All WritableBinding := by
    rw [← hsession]
    exact Session.writable_evalSources rfl hsources
  have haddresses := addressText_of_evalSource hview hsource hanswer
  have hparse := parse_listed haddresses hsize
  refine ⟨_, hparse, evaluate_addresses addresses, fun other => ?_⟩
  rw [Session.evalSource_of_parse hparse, Session.evalExpr_of_ok (evaluate_addresses _ _ _)]

/-- The answer comes from two bindings, one of which reads the other; the last source is refused. -/
theorem answer_is_program_two_lists : ∃ (session after : Session) (addresses : AddressSet),
    Session.evalSources ⟨{}, ∅⟩ ["b = c@y, a@x", "d = (b, e@z)", "c = (b"] = session ∧
    session.evalSource "d ! (b * a@x)" = (.ok addresses, after) ∧
    AddressSet.listed addresses = "c@y, e@z" ∧
    ∃ e, parse "c@y, e@z" = .ok e ∧
      (∀ (budget : ℕ) (view : View), evaluate budget e view = (.ok addresses, view)) ∧
      ∀ other : Session, other.evalSource "c@y, e@z" = (.ok addresses, other) := by
  have hlisted : ((Session.evalSources ⟨{}, ∅⟩
      ["b = c@y, a@x", "d = (b, e@z)", "c = (b"]).evalSource "d ! (b * a@x)").1.toOption.map
        AddressSet.listed = some "c@y, e@z" := by
    decide +kernel
  obtain ⟨session, hsession⟩ : ∃ session, Session.evalSources ⟨{}, ∅⟩
    ["b = c@y, a@x", "d = (b, e@z)", "c = (b"] = session := ⟨_, rfl⟩
  rw [hsession] at hlisted
  cases hanswer : session.evalSource "d ! (b * a@x)" with
  | mk result after =>
      rw [hanswer] at hlisted
      cases result with
      | error failure => cases hlisted
      | ok addresses =>
          have htext : AddressSet.listed addresses = "c@y, e@z" := Option.some.inj hlisted
          have hprogram := answer_is_program (by decide) (by decide) hsession hanswer
            (by rw [htext]; decide)
          rw [htext] at hprogram
          exact ⟨session, after, addresses, hsession, hanswer, htext, hprogram⟩

end Roster
