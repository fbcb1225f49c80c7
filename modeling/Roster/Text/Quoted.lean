/-
**Texts between quotation marks.**

In a diagnostic a text is written between quotation marks.  A character that would be mistaken for
something else is escaped: the quotation mark and the backslash by a backslash in front of them, the
common control characters by a letter, and every other character that is not shown as it is by its
code point in hexadecimal digits.

Main definitions:

* `escapeChar`, `quoted`: the written form of a character and of a text;
* `Name.diagnostic`: the written form of a name.
-/

import Roster.Name
import Roster.Text.Printable

set_option relaxedAutoImplicit false
set_option autoImplicit false

namespace Roster

/-- The written form of a character between quotation marks. -/
def escapeChar (c : Char) : List Char :=
  if c = '\x00' then ['\\', '0']
  else if c = '\t' then ['\\', 't']
  else if c = '\r' then ['\\', 'r']
  else if c = '\n' then ['\\', 'n']
  else if c = '\\' then ['\\', '\\']
  else if c = '"' then ['\\', '"']
  else if isShownAsIs c then [c]
  else ['\\', 'u', '\x7b'] ++ Nat.toDigits 16 c.toNat ++ ['\x7d']

/-- A text between quotation marks. -/
def quoted (text : String) : String :=
  String.ofList ('"' :: text.toList.flatMap escapeChar ++ ['"'])

/-- A name as it is written in a diagnostic. -/
def Name.diagnostic (name : Name) : String :=
  "Name(" ++ Roster.quoted name.text ++ ")"

end Roster
