import Mustache.Template

/-!
# Templates as trees

The table of a compiled template stands for a tree: each section holds the nodes of its body. The
tree is what a template means; two tables may hold the same tree.
-/

namespace Mustache

/-- A part of a template with its body in place. -/
inductive Tree
  | text (span : Span)
  | variableTag (tag : Variable)
  | sectionTag (heading : Heading) (body : List Tree)
  | partialTag (tag : Partial)

namespace Template

/-- The trees of a range of nodes, so many levels down. -/
def unfold (t : Template) : Nat → NodeRange → List Tree
  | 0,     _     => []
  | n + 1, range =>
    (t.nodes range).map fun
      | .text span       => .text span
      | .variableTag tag => .variableTag tag
      | .sectionTag tag  => .sectionTag tag.toHeading (unfold t n tag.body)
      | .partialTag tag  => .partialTag tag

/-- The template as a sequence of trees. Nesting is never deeper than there are nodes. -/
def trees (t : Template) : List Tree := t.unfold (t.nodeCount + 1) t.root

end Template

namespace Tree

mutual

/-- The spans of literal text, in the order of the source. -/
def texts : Tree → List Span
  | .text span         => [span]
  | .sectionTag _ body => textsAll body
  | .variableTag _     => []
  | .partialTag _      => []

/-- The spans of literal text in a sequence of trees. -/
def textsAll : List Tree → List Span
  | []      => []
  | t :: ts => t.texts ++ textsAll ts

end

mutual

/-- The tree with every span moved right by `n` bytes. -/
def shift (n : Nat) : Tree → Tree
  | .text span               => .text (span.shift n)
  | .variableTag tag         => .variableTag { tag with span := tag.span.shift n }
  | .sectionTag heading body =>
    .sectionTag { heading with inner := heading.inner.shift n, span := heading.span.shift n }
      (shiftAll n body)
  | .partialTag tag          => .partialTag { tag with span := tag.span.shift n }

/-- A sequence of trees with every span moved right by `n` bytes. -/
def shiftAll (n : Nat) : List Tree → List Tree
  | []      => []
  | t :: ts => t.shift n :: shiftAll n ts

end

@[simp] theorem textsAll_nil : textsAll [] = [] := by simp [textsAll]

@[simp] theorem textsAll_cons (t : Tree) (ts : List Tree) :
    textsAll (t :: ts) = t.texts ++ textsAll ts := by simp [textsAll]

@[simp] theorem textsAll_append (ts us : List Tree) :
    textsAll (ts ++ us) = textsAll ts ++ textsAll us := by
  induction ts with
  | nil => simp
  | cons t ts ih => simp [ih, List.append_assoc]

theorem shiftAll_eq_map (n : Nat) (ts : List Tree) : shiftAll n ts = ts.map (shift n) := by
  induction ts with
  | nil => simp [shiftAll]
  | cons t ts ih => simp [shiftAll, ih]

end Tree

end Mustache
