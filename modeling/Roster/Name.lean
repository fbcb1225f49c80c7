/-
**Names of mailing lists and sets of names.**

A name is a piece of text of its own kind, so that a list is never mistaken for an address.  Names
are ordered by their code points, which is also the order of their UTF-8 bytes.

Main definitions:

* `Name` with its order;
* `NameSet`, `AddressSet`: finite sets of names and of addresses, listed in ascending order.

The order is total, and two names that compare as equal are equal (`Name.instTransOrd`,
`Name.instLawfulEqOrd`), so sets and maps over names are equal as soon as they have the same
members.
-/

import Std.Data.ExtTreeSet

set_option relaxedAutoImplicit false
set_option autoImplicit false

namespace Roster

/-- The name of a mailing list. -/
structure Name where
  text : String
deriving DecidableEq, Inhabited

namespace Name

/-- Names are ordered as their texts are. -/
instance instOrd : Ord Name := ⟨fun first second => compare first.text second.text⟩

theorem compare_def (first second : Name) :
    compare first second = compare first.text second.text := rfl

instance instTransOrd : Std.TransOrd Name where
  eq_swap := by
    intro first second
    rw [compare_def, compare_def]
    exact Std.OrientedCmp.eq_swap
  isLE_trans := by
    intro first second third
    rw [compare_def, compare_def, compare_def]
    exact Std.TransCmp.isLE_trans

instance instLawfulEqOrd : Std.LawfulEqOrd Name where
  compare_self := by
    intro name
    rw [compare_def]
    exact Std.ReflCmp.compare_self
  eq_of_compare := by
    intro first second h
    rw [compare_def] at h
    have htext : first.text = second.text := Std.LawfulEqCmp.eq_of_compare h
    cases first
    cases second
    exact congrArg Name.mk htext

/-- The number of bytes of a name. -/
def byteLength (name : Name) : Nat := name.text.utf8ByteSize

end Name

/-- A finite set of names. -/
abbrev NameSet := Std.ExtTreeSet Name

/-- A finite set of addresses. -/
abbrev AddressSet := Std.ExtTreeSet String

end Roster
