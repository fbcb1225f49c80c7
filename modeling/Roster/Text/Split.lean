/-
**Cutting texts.**

Main definitions:

* `cutAt`: the parts of a list between the members of a class, which are dropped; there is one part
  more than there are such members;
* `isWhiteSpace`, `trim`, `words`: the white space of the Unicode standard, a text without the white
  space around it, and the parts of a text between white space;
* `textLines`: the lines of a text, each of which ends at a line feed or at a carriage return and a
  line feed;
* `after?`: what follows a given beginning of a text.

Main result:

* `cutAt_append_cons`: a part that holds no member of the class, and such a member after it, are cut
  off as the first part.
-/

set_option relaxedAutoImplicit false
set_option autoImplicit false

namespace Roster

/-! ### Parts -/

/-- The first part and the other parts of a list that is cut at the members that satisfy `p`. -/
def cutAt {α : Type} (p : α → Bool) (items : List α) : List α × List (List α) :=
  items.foldr
    (fun item parts => if p item then ([], parts.1 :: parts.2) else (item :: parts.1, parts.2))
    ([], [])

@[simp] theorem cutAt_nil {α : Type} (p : α → Bool) : cutAt p [] = ([], []) := rfl

theorem cutAt_cons {α : Type} (p : α → Bool) (item : α) (items : List α) :
    cutAt p (item :: items) =
      if p item then ([], (cutAt p items).1 :: (cutAt p items).2)
      else (item :: (cutAt p items).1, (cutAt p items).2) := rfl

/-- A first part that ends at a member of the class is cut off. -/
theorem cutAt_append_cons {α : Type} {p : α → Bool} {part : List α} {item : α} (items : List α)
    (hpart : ∀ x ∈ part, p x = false) (hitem : p item = true) :
    cutAt p (part ++ item :: items) = (part, (cutAt p items).1 :: (cutAt p items).2) := by
  induction part with
  | nil => simp [cutAt_cons, hitem]
  | cons x part ih =>
    rw [List.cons_append, cutAt_cons, hpart x (by simp), ih fun y hy => hpart y (by simp [hy])]
    simp

/-! ### White space -/

/-- The characters with the property `White_Space`. -/
def isWhiteSpace (c : Char) : Bool :=
  let code := c.toNat
  (0x9 ≤ code && code ≤ 0xd) || code == 0x20 || code == 0x85 || code == 0xa0 || code == 0x1680 ||
    (0x2000 ≤ code && code ≤ 0x200a) || code == 0x2028 || code == 0x2029 || code == 0x202f ||
    code == 0x205f || code == 0x3000

/-- A text without the white space around it. -/
def trim (text : List Char) : List Char :=
  ((text.dropWhile isWhiteSpace).reverse.dropWhile isWhiteSpace).reverse

/-- The nonempty parts of a text between white space. -/
def words (text : List Char) : List (List Char) :=
  let parts := cutAt isWhiteSpace text
  (parts.1 :: parts.2).filter fun part => !part.isEmpty

/-! ### Lines -/

/-- The parts of a list that each ended at a member of the class, and the part after the last of
them, which may be empty. -/
def terminated {α : Type} (p : α → Bool) (items : List α) : List (List α) × List α :=
  let parts := cutAt p items
  ((parts.1 :: parts.2).dropLast, (parts.1 :: parts.2).getLast (List.cons_ne_nil _ _))

/-- A line without the carriage return at its end, if there is one. -/
def dropCarriageReturn (line : List Char) : List Char :=
  if line.getLast? = some '\r' then line.dropLast else line

/-- The lines of a text.  Text after the last line feed is a line unless it is empty. -/
def textLines (text : List Char) : List (List Char) :=
  let parts := terminated (· == '\n') text
  parts.1.map dropCarriageReturn ++ if parts.2.isEmpty then [] else [parts.2]

/-! ### Beginnings -/

/-- What follows `start` in a text that begins with it. -/
def after? (start text : String) : Option String :=
  if start.toList.isPrefixOf text.toList then
    some (String.ofList (text.toList.drop start.length))
  else
    none

end Roster
