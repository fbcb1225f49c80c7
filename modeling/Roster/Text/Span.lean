/-
**Byte spans of a source text.**

A text is a list of characters; its size is the number of bytes of its UTF-8 encoding, and every
position in a source text is counted in those bytes.  A span is a pair of such positions.  Spans
that come from positions past `Span.limit` are clamped to it.

Main definitions:

* `byteCount`: the number of bytes that a text takes;
* `splitBytes`: cutting a text after a given number of bytes, which fails inside a character and
  past the end;
* `Span`, `Span.between`, `Span.textIn`: spans, the clamped span of two positions, and the text that
  a span covers.

Main results:

* `byteCount_toList`: the characters of a string take as many bytes as the string;
* `splitBytes_byteCount`: cutting after the bytes of a first part returns the two parts.
-/

set_option relaxedAutoImplicit false
set_option autoImplicit false

namespace Roster

/-! ### Counting bytes -/

/-- The number of bytes in the UTF-8 encoding of a text. -/
def byteCount (text : List Char) : Nat :=
  text.foldr (fun c count => c.utf8Size + count) 0

@[simp] theorem byteCount_nil : byteCount [] = 0 := rfl

@[simp] theorem byteCount_cons (c : Char) (text : List Char) :
    byteCount (c :: text) = c.utf8Size + byteCount text := rfl

@[simp] theorem byteCount_append (first second : List Char) :
    byteCount (first ++ second) = byteCount first + byteCount second := by
  induction first with
  | nil => simp
  | cons c first ih => rw [List.cons_append, byteCount_cons, ih, byteCount_cons, Nat.add_assoc]

/-- The characters of a string take as many bytes as the string. -/
theorem byteCount_toList (text : String) : byteCount text.toList = text.utf8ByteSize := by
  have hsize : ∀ chars : List Char, byteCount chars = chars.utf8Encode.size := by
    intro chars
    induction chars with
    | nil => simp
    | cons c chars ih =>
      rw [byteCount_cons, ih, List.utf8Encode_cons, ByteArray.size_append,
        List.utf8Encode_singleton, List.size_toByteArray, String.length_utf8EncodeChar]
  rw [hsize, String.utf8Encode_toList, String.size_toByteArray]

/-- Cuts a text after exactly `count` bytes.  There is no cut inside a character or past the
end. -/
def splitBytes : Nat → List Char → Option (List Char × List Char)
  | 0, text => some ([], text)
  | _ + 1, [] => none
  | count + 1, c :: text =>
    if c.utf8Size ≤ count + 1 then
      match splitBytes (count + 1 - c.utf8Size) text with
      | none => none
      | some (first, second) => some (c :: first, second)
    else
      none

/-- Cutting after the bytes of a first part returns the two parts. -/
theorem splitBytes_byteCount (first second : List Char) :
    splitBytes (byteCount first) (first ++ second) = some (first, second) := by
  induction first with
  | nil => simp [splitBytes]
  | cons c first ih =>
    obtain ⟨n, hn⟩ : ∃ n, byteCount (c :: first) = n + 1 := by
      have := c.utf8Size_pos
      exact ⟨byteCount (c :: first) - 1, by simp only [byteCount_cons]; omega⟩
    have hc : c.utf8Size ≤ n + 1 := by rw [← hn]; simp
    have hsub : n + 1 - c.utf8Size = byteCount first := by rw [← hn]; simp
    rw [hn, List.cons_append, splitBytes, if_pos hc, hsub, ih]

/-! ### Spans -/

/-- The bytes from `start` up to, and without, `stop`. -/
structure Span where
  start : Nat
  stop : Nat
deriving DecidableEq, Inhabited

namespace Span

/-- The largest position that a span can hold. -/
def limit : Nat := 4294967295

/-- The span of two positions, each clamped to `limit`. -/
def between (start stop : Nat) : Span :=
  ⟨min start limit, min stop limit⟩

theorem between_of_le {start stop : Nat} (hstart : start ≤ limit) (hstop : stop ≤ limit) :
    between start stop = ⟨start, stop⟩ := by
  simp [between, Nat.min_eq_left hstart, Nat.min_eq_left hstop]

/-- The text that a span covers: empty for a span that is reversed, reaches past the end of the
source, or has an end inside a character. -/
def textIn (span : Span) (source : String) : String :=
  if span.start ≤ span.stop then
    match splitBytes span.start source.toList with
    | none => ""
    | some (_, rest) =>
      match splitBytes (span.stop - span.start) rest with
      | none => ""
      | some (covered, _) => String.ofList covered
  else
    ""

/-- The text between a first and a last part of the source is the text of its span. -/
theorem textIn_middle (before covered after : List Char) :
    textIn ⟨byteCount before, byteCount before + byteCount covered⟩
      (String.ofList (before ++ (covered ++ after))) = String.ofList covered := by
  simp [textIn, splitBytes_byteCount]

/-- A span is shown as its two positions, joined by two dots. -/
def display (span : Span) : String :=
  toString span.start ++ ".." ++ toString span.stop

end Span

end Roster
