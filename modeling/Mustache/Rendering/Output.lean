import Mustache.Escape
import Mustache.Rendering.State

/-!
# Writing output

Literal text of an indented partial is indented at the start of each of its lines. Data that a
host writes is indented only if it begins a line, never inside. Nothing is ever written for an
empty text. The output knows whether it stands at the start of a line from the last text written.
-/

namespace Mustache.Sink

variable {F σ τ : Type} (sink : Sink τ)

/-- One write, to the sink or aside. -/
def put (text : Text) : WriteM F σ τ Unit := fun s =>
  match s.output.scratch with
  | some kept =>
    .ok () { s with output := { s.output with scratch := some (kept ++ text.bytes) } }
  | none =>
    match sink.write text.bytes s.sink with
    | (.ok (), after)   => .ok () ({ s with sink := after }.record (.wrote text))
    | (.error e, after) => .error e ({ s with sink := after }.record (.refused e))

/-- Notes whether the text just written ends a line. -/
def endText (text : Text) : WriteM F σ τ Unit :=
  modify fun s => { s with output := { s.output with atLineStart := text.endsLine } }

/-- Writes a text as it is. -/
def emit (text : Text) : WriteM F σ τ Unit := do
  sink.put text
  endText text

/-- Writes the indentation if a line starts here. -/
def indent : WriteM F σ τ Unit := do
  let output := (← get).output
  if output.atLineStart && output.indent ≠ [] then sink.put output.indent

/-- Notes where the output stands. -/
def noteOutput : WriteM F σ τ Unit := modify fun s => s.record (.writing s.output)

/-- Writes literal text. -/
def writeText (text : Text) : WriteM F σ τ Unit := do
  noteOutput
  if text = [] then return
  if (← get).output.indent = [] then
    sink.emit text
  else
    text.lines.forM fun line => do
      sink.indent
      sink.emit line

/-- Writes a text with its reserved characters replaced, piece by piece. -/
def emitEscaped (text : Text) : WriteM F σ τ Unit := do
  (escapedPieces text).forM sink.put
  endText text

/-- Writes data, escaped or as it is. -/
def writeData (text : Text) (escaped : Bool) : WriteM F σ τ Unit := do
  noteOutput
  if text = [] then return
  sink.indent
  if escaped then sink.emitEscaped text else sink.emit text

/-- Flushes the sink. -/
def finish : WriteM F σ τ Unit := fun s =>
  match sink.flush s.sink with
  | (.ok (), after)   => .ok () ({ s with sink := after }.record (.flushed (.ok ())))
  | (.error e, after) => .error e ({ s with sink := after }.record (.flushed (.error e)))

end Mustache.Sink
