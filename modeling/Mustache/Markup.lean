import Mustache.Template.Tree

/-!
# Markup

Markup is what an author has in mind: literal text, values, sections with a body, and partials,
without the places where they stand in a source and without the delimiters they are written with.
-/

namespace Mustache

/-- A part of a template as an author thinks of it. -/
inductive Markup
  | text (text : Text)
  | variableTag (path : Path) (escaped : Bool)
  | sectionTag (path : Path) (inverted : Bool) (body : List Markup)
  | partialTag (name indent : Text)

mutual

/-- The markup that a tree stands for in its source. -/
def Tree.markup (source : Text) : Tree → Markup
  | .text span               => .text (span.slice source)
  | .variableTag tag         => .variableTag tag.path tag.escaped
  | .sectionTag heading body =>
    .sectionTag heading.path heading.inverted (Tree.markupAll source body)
  | .partialTag tag          => .partialTag tag.name tag.indent

/-- The markup that a sequence of trees stands for. -/
def Tree.markupAll (source : Text) : List Tree → List Markup
  | []      => []
  | t :: ts => t.markup source :: Tree.markupAll source ts

end

/-- The markup of a template. -/
def Template.markup (t : Template) : List Markup := Tree.markupAll t.source t.trees

end Mustache
