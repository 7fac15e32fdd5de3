import Mustache.Node

/-!
# Templates

A compiled template is its source together with the table of nodes built over it and the range of
the nodes outside every section. Literal text stays in the source, where nodes point at it.
-/

namespace Mustache

/-- A compiled template. -/
structure Template where
  source : Text
  table : NodeTable
  /-- The nodes that lie in no section. -/
  root : NodeRange
  deriving DecidableEq

/-- The members of a list without repetitions, each where it comes first. -/
def distinct : List Text → List Text
  | []      => []
  | x :: xs => x :: (distinct xs).filter (· ≠ x)

namespace Template

/-- The nodes in a range. -/
def nodes (t : Template) (r : NodeRange) : List Node := t.table.get r

/-- The nodes that lie in no section. -/
def rootNodes (t : Template) : List Node := t.nodes t.root

/-- The source text covered by a span. -/
def text (t : Template) (s : Span) : Text := s.slice t.source

/-- Number of nodes, at every depth. -/
def nodeCount (t : Template) : Nat := t.table.size

/-- The names of the partials used anywhere in the template, each once, in the order of the
table. -/
def partialNames (t : Template) : List Text :=
  distinct <| t.table.nodes.filterMap fun
    | .partialTag tag => some tag.name
    | _               => none

end Template

end Mustache
