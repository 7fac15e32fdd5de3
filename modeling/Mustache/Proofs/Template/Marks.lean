import Mustache.Proofs.Template.Fragments

/-!
# Marks

Read from left to right, a sequence of trees is a sequence of marks: one for each part without a
body, and one for either end of a section. The marks of a template come from its fragments, one
by one, whatever sections are opened and closed around them.
-/

namespace Mustache

/-- What is known of a section where it is opened. -/
structure Opening where
  path : Path
  inverted : Bool
  /-- The opening tag. -/
  span : Span
  /-- Where the body starts. -/
  bodyStart : Nat
  delimiters : Delimiters
  deriving DecidableEq

/-- A heading without the end of its body. -/
def Heading.opening (h : Heading) : Opening :=
  ⟨h.path, h.inverted, h.span, h.inner.start, h.delimiters⟩

/-- A part without a body, or one of the two ends of a section. -/
inductive Mark (α : Type)
  | leaf (a : α)
  | opening (o : Opening)
  /-- The body of a section over `path` ends at `bodyStop`. -/
  | closing (path : Path) (bodyStop : Nat)

/-! ### Marks of trees -/

namespace Tree

mutual

/-- The marks of a tree. -/
def marks : Tree → List (Mark Tree)
  | .text span               => [.leaf (.text span)]
  | .variableTag tag         => [.leaf (.variableTag tag)]
  | .sectionTag heading body =>
    .opening heading.opening :: (marksAll body ++ [.closing heading.path heading.inner.stop])
  | .partialTag tag          => [.leaf (.partialTag tag)]

/-- The marks of a sequence of trees. -/
def marksAll : List Tree → List (Mark Tree)
  | []      => []
  | t :: ts => t.marks ++ marksAll ts

end

@[simp] lemma marks_text (span : Span) : marks (.text span) = [.leaf (.text span)] := by
  simp [marks]

@[simp] lemma marks_variableTag (tag : Variable) :
    marks (.variableTag tag) = [.leaf (.variableTag tag)] := by simp [marks]

@[simp] lemma marks_sectionTag (heading : Heading) (body : List Tree) :
    marks (.sectionTag heading body) = .opening heading.opening ::
      (marksAll body ++ [.closing heading.path heading.inner.stop]) := by simp [marks]

@[simp] lemma marks_partialTag (tag : Partial) :
    marks (.partialTag tag) = [.leaf (.partialTag tag)] := by simp [marks]

@[simp] lemma marksAll_nil : marksAll [] = [] := by simp [marksAll]

@[simp] lemma marksAll_cons (t : Tree) (ts : List Tree) :
    marksAll (t :: ts) = t.marks ++ marksAll ts := by simp [marksAll]

lemma marksAll_eq_flatMap (ts : List Tree) : marksAll ts = ts.flatMap marks := by
  induction ts with
  | nil => simp
  | cons t ts ih => simp [ih]

@[simp] lemma marksAll_append (ts us : List Tree) :
    marksAll (ts ++ us) = marksAll ts ++ marksAll us := by
  simp only [marksAll_eq_flatMap, List.flatMap_append]

end Tree

/-! ### Marks of fragments -/

/-- The mark that a tag adds, if its line begins with `indent` where it stands alone. -/
def Tag.mark? (tag : Tag) (span : Span) (delimiters : Delimiters) (indent : Text) :
    Option (Mark Tree) :=
  match tag with
  | .variableTag path escaped => some (.leaf (.variableTag ⟨path, escaped, span⟩))
  | .openTag path inverted    => some (.opening ⟨path, inverted, span, span.stop, delimiters⟩)
  | .closeTag path            => some (.closing path span.start)
  | .partialTag name          => some (.leaf (.partialTag ⟨name, indent, span⟩))
  | .commentTag               => none
  | .delimiterTag             => none

/-- The mark that a fragment adds. -/
def Fragment.mark? (source : Text) : Fragment → Option (Mark Tree)
  | .text span      => some (.leaf (.text span))
  | .tag raw indent =>
    match Tag.ofRaw raw source with
    | .ok means => means.mark? raw.span raw.delimiters indent
    | .error _  => none

namespace Grove

/-- The marks of open sections, those of outer sections first. -/
def marksPending : List OpenTree → List (Mark Tree)
  | []         => []
  | s :: outer => marksPending outer ++
      .opening ⟨s.path, s.inverted, s.span, s.span.stop, s.delimiters⟩ ::
        Tree.marksAll s.body.reverse

/-- The marks of all trees in the making. -/
def marks (g : Grove) : List (Mark Tree) :=
  Tree.marksAll g.root.reverse ++ marksPending g.pending

variable {g g' : Grove} {source : Text}

@[simp] lemma marks_empty : empty.marks = [] := by simp [marks, empty, marksPending]

@[simp] lemma marks_push (g : Grove) (t : Tree) : (g.push t).marks = g.marks ++ t.marks := by
  obtain ⟨root, pending⟩ := g
  cases pending with
  | nil => simp [push, marks, marksPending]
  | cons s outer => simp [push, marks, marksPending]

/-- Closing a section leaves its marks where they are. -/
lemma marks_close {path : Path} {span : Span} (h : g.close path span = .ok g') :
    g'.marks = g.marks ++ [.closing path span.start] := by
  obtain ⟨root, pending⟩ := g
  cases pending with
  | nil => simp [close] at h
  | cons s outer =>
    simp only [close] at h
    split at h
    · next hpath =>
      rw [Except.ok.injEq] at h
      rw [← h, marks_push, Tree.marks_sectionTag]
      simp [marks, marksPending, Heading.opening, hpath]
    · simp at h

lemma marks_addTag {tag : Tag} {span : Span} {d : Delimiters} {indent : Text}
    (h : g.addTag tag span d indent = .ok g') :
    g'.marks = g.marks ++ (tag.mark? span d indent).toList := by
  cases tag with
  | closeTag path => exact marks_close h
  | variableTag path escaped =>
    rw [addTag, Except.ok.injEq] at h
    rw [← h, marks_push, Tree.marks_variableTag]
    rfl
  | partialTag name =>
    rw [addTag, Except.ok.injEq] at h
    rw [← h, marks_push, Tree.marks_partialTag]
    rfl
  | openTag path inverted =>
    rw [addTag, Except.ok.injEq] at h
    simp [← h, marks, marksPending, Tag.mark?]
  | commentTag | delimiterTag =>
    rw [addTag, Except.ok.injEq] at h
    simp [← h, Tag.mark?]

lemma marks_add {fragment : Fragment} (h : g.add source fragment = .ok g') :
    g'.marks = g.marks ++ (fragment.mark? source).toList := by
  cases fragment with
  | text span =>
    rw [add_text, Except.ok.injEq] at h
    rw [← h, marks_push, Tree.marks_text]
    rfl
  | tag raw indent =>
    rw [add_tag] at h
    rw [Fragment.mark?]
    cases hraw : Tag.ofRaw raw source with
    | error e => simp [hraw, Except.bind] at h
    | ok tag =>
      simp only [hraw, Except.bind] at h
      exact marks_addTag h

lemma marks_foldlM {fs : List Fragment} (h : fs.foldlM (add source) g = .ok g') :
    g'.marks = g.marks ++ fs.filterMap (Fragment.mark? source) := by
  induction fs generalizing g with
  | nil =>
    obtain rfl : g = g' := Except.ok.inj h
    simp
  | cons f fs ih =>
    rw [List.foldlM_cons] at h
    cases hadd : g.add source f with
    | error e => simp [hadd, bind, Except.bind] at h
    | ok next =>
      simp only [hadd, bind, Except.bind] at h
      rw [ih h, marks_add hadd, List.append_assoc, List.filterMap_cons]
      cases f.mark? source <;> rfl

lemma marksAll_of_finish {ts : List Tree} (h : g.finish = .ok ts) :
    Tree.marksAll ts = g.marks := by
  obtain ⟨root, pending⟩ := g
  cases pending with
  | nil =>
    rw [finish, Except.ok.injEq] at h
    simp [← h, marks, marksPending]
  | cons s outer => simp [finish] at h

end Grove

/-! ### Marks of templates -/

namespace Template

variable {source : Text} {d : Delimiters} {t : Template}

/-- The trees of a source that compiles are grown from the fragments of a scan without failure. -/
lemma exists_grove_of_forest {trees : List Tree} (h : forest source d = .ok trees) :
    source.byteSize ≤ maxOffset ∧ (scan source d).failure = none ∧ ∃ grove,
      (fragments source 0 (scan source d).tokens).foldlM (Grove.add source) .empty = .ok grove ∧
        grove.finish = .ok trees := by
  rw [forest] at h
  split at h
  · simp at h
  next hsize =>
  refine ⟨Nat.not_lt.1 hsize, ?_⟩
  cases hfold : (fragments source 0 (scan source d).tokens).foldlM (Grove.add source)
      Grove.empty with
  | error e => simp [hfold] at h
  | ok grove =>
    cases hfailure : (scan source d).failure with
    | some failure => simp [hfold, hfailure] at h
    | none =>
      simp only [hfold, hfailure] at h
      exact ⟨rfl, grove, rfl, h⟩

/-- The marks of a template are those of its fragments, one after the other. -/
theorem marksAll_of_compile (h : compile source d = .ok t) :
    Tree.marksAll t.trees =
      (fragments source 0 (scan source d).tokens).filterMap (Fragment.mark? source) := by
  obtain ⟨-, -, grove, hfold, hfinish⟩ := exists_grove_of_forest (eq_ofTrees_of_compile h).1
  rw [Grove.marksAll_of_finish hfinish, Grove.marks_foldlM hfold, Grove.marks_empty,
    List.nil_append]

end Template

end Mustache
