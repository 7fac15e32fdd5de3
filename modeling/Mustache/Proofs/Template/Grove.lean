import Mustache.Proofs.Template.Layout
import Mustache.Template.Builder

/-!
# Growing trees

A grove is what a builder stands for: the trees read so far, and the open sections with the trees
of their bodies. It grows by fragments, which are the tokens of a template after the lines of the
tags that stand alone have been cut out, so nothing in it is ever taken back. `Grove.builder` lays
a grove out, and the operations of the two agree.
-/

namespace Mustache

/-- An open section with the trees of its body so far, newest first. -/
structure OpenTree where
  path : Path
  inverted : Bool
  /-- The opening tag. -/
  span : Span
  delimiters : Delimiters
  body : List Tree

/-- Trees in the making, newest first, and the open sections, innermost first. -/
structure Grove where
  root : List Tree
  pending : List OpenTree

/-- A part of a template without the lines that go: text that stays, or a tag with the indentation
that went with it. -/
inductive Fragment
  | text (span : Span)
  | tag (raw : RawTag) (indent : Text)

namespace Grove

/-- The grove of which no fragment has been read. -/
def empty : Grove := ⟨[], []⟩

/-- All trees that are not in the body of another. -/
def trees (g : Grove) : List Tree := g.root ++ g.pending.flatMap (·.body)

/-- Adds a tree to the innermost open section. -/
def push (g : Grove) (t : Tree) : Grove :=
  match g.pending with
  | []         => { g with root := t :: g.root }
  | s :: outer => { g with pending := { s with body := t :: s.body } :: outer }

/-- Closes the innermost open section at a closing tag for `path`. -/
def close (g : Grove) (path : Path) (span : Span) : Except ParseError Grove :=
  match g.pending with
  | []         => .error ⟨.unexpectedClose path.display, span⟩
  | s :: outer =>
    if s.path = path then
      .ok (push { g with pending := outer } (.sectionTag
        ⟨s.path, s.inverted, ⟨s.span.stop, span.start⟩, s.delimiters, s.span⟩ s.body.reverse))
    else .error ⟨.mismatchedClose s.path.display path.display, span⟩

/-- Adds a tag found at `span`, whose line, if it stands alone, begins with `indent`. -/
def addTag (g : Grove) (tag : Tag) (span : Span) (delimiters : Delimiters) (indent : Text) :
    Except ParseError Grove :=
  match tag with
  | .variableTag path escaped => .ok (g.push (.variableTag ⟨path, escaped, span⟩))
  | .openTag path inverted    =>
    .ok { g with pending := ⟨path, inverted, span, delimiters, []⟩ :: g.pending }
  | .closeTag path            => g.close path span
  | .partialTag name          => .ok (g.push (.partialTag ⟨name, indent, span⟩))
  | .commentTag               => .ok g
  | .delimiterTag             => .ok g

/-- Adds a fragment. -/
def add (source : Text) (g : Grove) : Fragment → Except ParseError Grove
  | .text span       => .ok (g.push (.text span))
  | .tag raw indent  => (Tag.ofRaw raw source).bind fun tag =>
      g.addTag tag raw.span raw.delimiters indent

lemma add_text (source : Text) (g : Grove) (span : Span) :
    g.add source (.text span) = .ok (g.push (.text span)) := rfl

lemma add_tag (source : Text) (g : Grove) (raw : RawTag) (indent : Text) :
    g.add source (.tag raw indent) = (Tag.ofRaw raw source).bind fun tag =>
      g.addTag tag raw.span raw.delimiters indent := rfl

/-- The trees, once all fragments have been added; every section must be closed. -/
def finish (g : Grove) : Except ParseError (List Tree) :=
  match g.pending with
  | s :: _ => .error ⟨.unclosedSection s.path.display, s.span⟩
  | []     => .ok g.root.reverse

/-! ### The builder of a grove -/

/-- The open sections laid out, from the outermost inwards. -/
def layPending (table : NodeTable) : List OpenTree → List OpenSection × NodeTable
  | []         => ([], table)
  | s :: outer =>
    let laid := layPending table outer
    let body := Tree.layAll laid.2 s.body.reverse
    (⟨s.path, s.inverted, s.span, s.delimiters, body.1.reverse⟩ :: laid.1, body.2)

/-- The builder that a grove is laid out in. -/
def builder (g : Grove) (skipUntil : Nat) : Builder :=
  let root := Tree.layAll .empty g.root.reverse
  let pending := layPending root.2 g.pending
  ⟨pending.2, root.1.reverse, pending.1, skipUntil⟩

variable {g : Grove} {t : Tree} {k : Nat} {span : Span}

@[simp] lemma builder_empty (k : Nat) :
    empty.builder k = { Builder.empty with skipUntil := k } := by
  simp [builder, empty, layPending, Builder.empty]

@[simp] lemma skipUntil_builder (g : Grove) (k : Nat) : (g.builder k).skipUntil = k := rfl

/-- A tree without a body is laid out as one node. -/
lemma builder_push_of_lay {node : Node} (h : ∀ table, t.lay table = (node, table)) (g : Grove)
    (k : Nat) : (g.push t).builder k = (g.builder k).push node := by
  obtain ⟨root, pending⟩ := g
  cases pending with
  | nil =>
    simp only [push, builder, layPending, List.reverse_cons, Tree.layAll_concat, h,
      List.reverse_append]
    rfl
  | cons s outer =>
    simp only [push, builder, layPending, List.reverse_cons, Tree.layAll_concat, h,
      List.reverse_append]
    rfl

lemma builder_open (g : Grove) (k : Nat) (path : Path) (inverted : Bool) (span : Span)
    (d : Delimiters) :
    builder { g with pending := ⟨path, inverted, span, d, []⟩ :: g.pending } k =
      { g.builder k with pending := ⟨path, inverted, span, d, []⟩ :: (g.builder k).pending } := by
  simp [builder, layPending]

/-- A section is laid out where it is closed. -/
lemma builder_close (g : Grove) (k : Nat) (path : Path) (span : Span) :
    (g.builder k).closeSection path span = (g.close path span).map (·.builder k) := by
  obtain ⟨root, pending⟩ := g
  cases pending with
  | nil => rfl
  | cons s outer =>
    by_cases hp : s.path = path
    · simp only [close, builder, layPending, Builder.closeSection, if_pos hp, List.reverse_reverse,
        Except.map, Except.ok.injEq]
      cases outer with
      | nil =>
        simp only [push, layPending, List.reverse_cons, Tree.layAll_concat, Tree.lay_sectionTag,
          List.reverse_append]
        rfl
      | cons s' outer =>
        simp only [push, layPending, List.reverse_cons, Tree.layAll_concat, Tree.lay_sectionTag,
          List.reverse_append]
        rfl
    · simp only [close, builder, layPending, Builder.closeSection, if_neg hp, Except.map]

/-- A finished builder is the template laid out from the trees of its grove. -/
lemma builder_finish (g : Grove) (k : Nat) (source : Text) :
    (g.builder k).finish source = g.finish.map (Template.ofTrees source) := by
  obtain ⟨root, pending⟩ := g
  cases pending with
  | nil => simp [builder, layPending, Builder.finish, finish, Except.map, Template.ofTrees]
  | cons s outer => rfl

end Grove

end Mustache
