import Mustache.Text.Basic

/-!
# Spans

A span is a range of byte offsets into the source of a template. Literal text, tags and the places
of errors are spans, so that a compiled template never copies text it can point at. This file
also turns the start of a span into a line and a column, as an editor counts them.
-/

namespace Mustache

/-- The bytes from offset `start` up to, and without, offset `stop`. -/
structure Span where
  start : Nat
  stop : Nat
  deriving DecidableEq, Repr

/-- A line and a column, both counted from one; columns count bytes. -/
structure Position where
  line : Nat
  column : Nat
  deriving DecidableEq, Repr

/-- The largest number that an offset, a line or a column can take. -/
def maxOffset : Nat := 0xFFFFFFFF

namespace Span

/-- Number of bytes covered. -/
def length (s : Span) : Nat := s.stop - s.start

/-- Whether no byte is covered. -/
def isEmpty (s : Span) : Bool := s.start = s.stop

/-- The text covered in `source`; empty if the span does not lie on characters of `source`. -/
def slice (s : Span) (source : Text) : Text := source.slice s.start s.stop

/-- The text in front of the span; all of `source` if the span does not start on a character. -/
def before (s : Span) (source : Text) : Text := (source.takeBytes? s.start).getD source

/-- The line and column at which the span starts: one more than the line feeds in front of it, and
one more than the bytes since the last of them. Both stop at `maxOffset`. -/
def position (s : Span) (source : Text) : Position where
  line := min ((s.before source).count '\n' + 1) maxOffset
  column := min ((s.before source).lastLine.byteSize + 1) maxOffset

/-- The span moved right by `n` bytes. -/
def shift (s : Span) (n : Nat) : Span := ⟨s.start + n, s.stop + n⟩

end Span

end Mustache
