import Mustache.Span
import Mustache.Delimiters
import Mustache.Path

/-!
# Nodes

A compiled template is a flat table of nodes. The body of a section is not stored in its node: it
is a range of consecutive nodes of the table, appended when the closing tag of the section has
been read, so that the nodes of a body are neighbours.
-/

namespace Mustache

/-- Consecutive nodes of a table. -/
structure NodeRange where
  start : Nat
  length : Nat
  deriving DecidableEq, Repr

namespace NodeRange

/-- The range of a body without nodes. -/
def empty : NodeRange := ⟨0, 0⟩

/-- Whether the range has no nodes. -/
def isEmpty (r : NodeRange) : Bool := r.length = 0

/-- The first index after the range. -/
def stop (r : NodeRange) : Nat := r.start + r.length

end NodeRange

/-- A tag that is replaced by a value. -/
structure Variable where
  path : Path
  /-- Whether characters reserved in HTML are replaced. -/
  escaped : Bool
  span : Span
  deriving DecidableEq, Repr

/-- What a section is, its body left aside. -/
structure Heading where
  path : Path
  inverted : Bool
  /-- The source between the opening and the closing tag. -/
  inner : Span
  /-- The delimiters in effect in front of the body. -/
  delimiters : Delimiters
  /-- The opening tag. -/
  span : Span
  deriving DecidableEq

/-- A tag with a body that is rendered for each element of a value, or, if it is inverted, when
there is none. -/
structure Section extends Heading where
  body : NodeRange
  deriving DecidableEq

/-- A tag that is replaced by another template. -/
structure Partial where
  name : Text
  /-- The blanks in front of the tag if it stands alone on its line; they go in front of every
  line of the other template. -/
  indent : Text
  span : Span
  deriving DecidableEq, Repr

/-- A part of a template: literal text, or a tag that writes something. -/
inductive Node
  | text (span : Span)
  | variableTag (tag : Variable)
  | sectionTag (tag : Section)
  | partialTag (tag : Partial)
  deriving DecidableEq

/-- All nodes of a template, those of a body before the section that has it. -/
structure NodeTable where
  nodes : List Node
  deriving DecidableEq

namespace NodeTable

/-- The table without nodes. -/
def empty : NodeTable := ⟨[]⟩

/-- Number of nodes. -/
def size (t : NodeTable) : Nat := t.nodes.length

/-- Appends the nodes of a body and returns their range; a body without nodes takes no place. -/
def append (t : NodeTable) (body : List Node) : NodeRange × NodeTable :=
  if body = [] then (.empty, t) else (⟨t.size, body.length⟩, ⟨t.nodes ++ body⟩)

/-- The nodes in a range; none if the range goes past the end of the table. -/
def get (t : NodeTable) (r : NodeRange) : List Node :=
  if r.stop ≤ t.size then (t.nodes.drop r.start).take r.length else []

/-- The range returned for a body holds that body. -/
theorem get_append (t : NodeTable) (body : List Node) :
    (t.append body).2.get (t.append body).1 = body := by
  unfold append
  split
  · next h => simp [get, NodeRange.empty, h]
  · simp [get, NodeRange.stop, size]

end NodeTable

end Mustache
