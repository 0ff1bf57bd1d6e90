/-!
# `Source.Lines` — where the lines of a source text lie

A line is the range of byte offsets between two line feeds, neither of which belongs to it. There
is always a line: an empty text has one, and so has what follows a final line feed.
-/

namespace Script

/-- The byte offsets `start ≤ i < stop`. -/
structure Span where
  start : Nat
  stop : Nat
  deriving Repr, DecidableEq, Inhabited

/-- The lines of a text of which `start` is where the current line began, and `offset` where the
    text stands. -/
def lineSpansFrom (start offset : Nat) : List Char → List Span
  | [] => [⟨start, offset⟩]
  | c :: cs =>
    if c = '\n' then ⟨start, offset⟩ :: lineSpansFrom (offset + 1) (offset + 1) cs
    else lineSpansFrom start (offset + c.utf8Size) cs

/-- The lines of a source text. -/
def lineSpans (source : String) : List Span := lineSpansFrom 0 0 source.toList

/-- The span of a line counted from one. A line before the first is the first, and one after the
    last is the last. -/
def lineSpan (source : String) (line : Nat) : Span :=
  let spans := lineSpans source
  spans.getD (min (line - 1) (spans.length - 1)) default

end Script
