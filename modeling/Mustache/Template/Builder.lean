import Mustache.Template
import Mustache.Tag
import Mustache.Tag.Standalone

/-!
# Building the nodes of a template

The builder takes the tokens of a template in order. It keeps the sections that are still open,
innermost first, each with the nodes read since; nodes in the making are kept newest first. When
a section closes, its body moves to the table and its node to the body around it.

A tag that stands alone on its line cuts in both directions: the indentation in front of it goes
from the text just read, and text up to the end of the line is skipped when it comes.
-/

namespace Mustache

/-- A section whose closing tag has not been read. -/
structure OpenSection where
  path : Path
  inverted : Bool
  /-- The opening tag. -/
  span : Span
  delimiters : Delimiters
  /-- The nodes of the body so far, newest first. -/
  body : List Node
  deriving DecidableEq

/-- A template in the making. -/
structure Builder where
  table : NodeTable
  /-- The nodes outside every section so far, newest first. -/
  root : List Node
  /-- The open sections, innermost first. -/
  pending : List OpenSection
  /-- Text in front of this offset belongs to a line that goes. -/
  skipUntil : Nat
  deriving DecidableEq

namespace Builder

/-- The builder of which no token has been read. -/
def empty : Builder := ⟨.empty, [], [], 0⟩

/-- The nodes of the innermost open section so far, newest first. -/
def current (b : Builder) : List Node :=
  match b.pending with
  | []     => b.root
  | s :: _ => s.body

/-- Replaces the nodes of the innermost open section. -/
def setCurrent (b : Builder) (nodes : List Node) : Builder :=
  match b.pending with
  | []        => { b with root := nodes }
  | s :: rest => { b with pending := { s with body := nodes } :: rest }

/-- Adds a node to the innermost open section. -/
def push (b : Builder) (node : Node) : Builder := b.setCurrent (node :: b.current)

@[simp] theorem current_setCurrent (b : Builder) (nodes : List Node) :
    (b.setCurrent nodes).current = nodes := by
  obtain ⟨table, root, pending, skipUntil⟩ := b
  cases pending <;> rfl

/-- Adds literal text, less what is skipped. -/
def addText (b : Builder) (span : Span) : Builder :=
  let start := max span.start b.skipUntil
  if start < span.stop then b.push (.text ⟨start, span.stop⟩) else b

/-- Cuts an indentation off the end of nodes, newest first, if they end in text that ends with
it. -/
def trimIndent (indent : Span) : List Node → List Node
  | .text t :: older =>
    if t.stop = indent.stop then
      let kept : Span := ⟨t.start, max indent.start t.start⟩
      if kept.isEmpty then older else .text kept :: older
    else .text t :: older
  | nodes => nodes

/-- Takes away the line of a tag that stands alone. -/
def removeLine (b : Builder) (line : StandaloneLine) : Builder :=
  let b := if line.indent.isEmpty then b else b.setCurrent (trimIndent line.indent b.current)
  { b with skipUntil := line.stop }

/-- Closes the innermost open section at a closing tag for `path`. -/
def closeSection (b : Builder) (path : Path) (span : Span) : Except ParseError Builder :=
  match b.pending with
  | [] => .error ⟨.unexpectedClose path.display, span⟩
  | s :: rest =>
    if s.path = path then
      let (body, table) := b.table.append s.body.reverse
      let node := Node.sectionTag
        { path := s.path, inverted := s.inverted, body, inner := ⟨s.span.stop, span.start⟩,
          delimiters := s.delimiters, span := s.span }
      .ok (push { b with table, pending := rest } node)
    else .error ⟨.mismatchedClose s.path.display path.display, span⟩

/-- Adds a tag found at `span`; `delimiters` are those in effect after it. -/
def addTag (b : Builder) (source : Text) (tag : Tag) (span : Span) (delimiters : Delimiters) :
    Except ParseError Builder :=
  let line := if tag.canStandAlone then standaloneLine? source span else none
  let b := match line with
    | some line => b.removeLine line
    | none      => b
  match tag with
  | .variableTag path escaped => .ok (b.push (.variableTag ⟨path, escaped, span⟩))
  | .openTag path inverted =>
    .ok { b with pending := ⟨path, inverted, span, delimiters, []⟩ :: b.pending }
  | .closeTag path => b.closeSection path span
  | .partialTag name =>
    let indent := match line with
      | some line => line.indent.slice source
      | none      => []
    .ok (b.push (.partialTag ⟨name, indent, span⟩))
  | .commentTag | .delimiterTag => .ok b

/-- Adds a token. -/
def addToken (source : Text) (b : Builder) : Token → Except ParseError Builder
  | .text span => .ok (b.addText span)
  | .tag raw   => do
    let tag ← Tag.ofRaw raw source
    b.addTag source tag raw.span raw.delimiters

/-- The template, once all tokens have been added; every section must be closed. -/
def finish (b : Builder) (source : Text) : Except ParseError Template :=
  match b.pending with
  | s :: _ => .error ⟨.unclosedSection s.path.display, s.span⟩
  | []     =>
    let (root, table) := b.table.append b.root.reverse
    .ok ⟨source, table, root⟩

end Builder

end Mustache
