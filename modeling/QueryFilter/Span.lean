import QueryFilter.Text.Numeral

/-!
# Spans

A span is the part of a source text between two byte offsets.
-/

namespace QueryFilter

/-- The part of a source between two byte offsets. -/
structure Span where
  start : Nat
  stop : Nat
deriving DecidableEq

namespace Span

/-- The empty span at an offset. -/
def point (offset : Nat) : Span := ⟨offset, offset⟩

/-- The span moved behind `n` more bytes. -/
def shift (n : Nat) (s : Span) : Span := ⟨s.start + n, s.stop + n⟩

/-- A span in messages. -/
def text (s : Span) : String := Text.natText s.start ++ ".." ++ Text.natText s.stop

end Span

end QueryFilter
