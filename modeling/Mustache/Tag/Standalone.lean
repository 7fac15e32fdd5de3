import Mustache.Span

/-!
# Standalone lines

A tag stands alone if it shares its lines with nothing but spaces and tabs. Then the whole line
goes: the indentation in front of the tag and the line ending after it. A carriage return in front
of the line feed, or in front of the end of the source, belongs to the ending.
-/

namespace Mustache

/-- What goes when a tag stands alone. -/
structure StandaloneLine where
  /-- The spaces and tabs between the start of the line and the tag. -/
  indent : Span
  /-- The end of the line, line ending included. -/
  stop : Nat
  deriving DecidableEq, Repr

/-- Whether a text holds only spaces and tabs. -/
def isIndentation (t : Text) : Bool := t.all fun c => c = ' ' || c = '\t'

/-- A text without the carriage return at its end. -/
def dropReturn (t : Text) : Text := if t.getLast? = some '\r' then t.dropLast else t

/-- What is left of the line at the head of a text, and how many bytes the line takes up with its
ending. -/
def headLine (t : Text) : Text × Nat :=
  match Text.cut? ['\n'] t with
  | some (line, _) => (line, line.byteSize + 1)
  | none           => (t, t.byteSize)

/-- The line of the tag at `tag`, if the tag stands alone on it. -/
def standaloneLine? (source : Text) (tag : Span) : Option StandaloneLine :=
  match source.takeBytes? tag.start, source.dropBytes? tag.stop with
  | some before, some after =>
    if isIndentation before.lastLine && isIndentation (dropReturn (headLine after).1) then
      some ⟨⟨tag.start - before.lastLine.byteSize, tag.start⟩, tag.stop + (headLine after).2⟩
    else none
  | _, _ => none

end Mustache
