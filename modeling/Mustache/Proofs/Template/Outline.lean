import Mustache.Proofs.Template.Acceptance
import Mustache.Proofs.Template.Marks
import Mustache.Proofs.Template.Trimming
import Mustache.Proofs.Token.Cuts

/-!
# Outlines

The outline of a template is its trees without what standalone lines have to do with: of a text only
the characters that are not layout are kept, and the indentation of partials is left aside. It is
told by the tokens alone, whatever lines go, and its marks tell the outline.
-/

namespace Mustache

/-- A part of a template without layout. -/
inductive Outline
  | text (text : Text)
  | variableTag (tag : Variable)
  | sectionTag (heading : Heading) (body : List Outline)
  | partialTag (name : Text) (span : Span)

/-! ### Outlines of trees -/

namespace Tree

mutual

/-- The outline of a tree over a source; a text that is all layout has none. -/
def outline (source : Text) : Tree → List Outline
  | .text span               =>
    if (span.slice source).ink = [] then [] else [.text (span.slice source).ink]
  | .variableTag tag         => [.variableTag tag]
  | .sectionTag heading body => [.sectionTag heading (outlineAll source body)]
  | .partialTag tag          => [.partialTag tag.name tag.span]

/-- The outlines of a sequence of trees. -/
def outlineAll (source : Text) : List Tree → List Outline
  | []      => []
  | t :: ts => t.outline source ++ outlineAll source ts

end

end Tree

/-- A heading moved right by `n` bytes. -/
def Heading.shift (h : Heading) (n : Nat) : Heading :=
  { h with inner := h.inner.shift n, span := h.span.shift n }

/-- What is known of a section where it is opened, moved right by `n` bytes. -/
def Opening.shift (o : Opening) (n : Nat) : Opening :=
  { o with span := o.span.shift n, bodyStart := o.bodyStart + n }

namespace Outline

mutual

/-- An outline moved right by `n` bytes. -/
def shift (n : Nat) : Outline → Outline
  | .text t                  => .text t
  | .variableTag tag         => .variableTag { tag with span := tag.span.shift n }
  | .sectionTag heading body => .sectionTag (heading.shift n) (shiftAll n body)
  | .partialTag name span    => .partialTag name (span.shift n)

/-- A sequence of outlines moved right by `n` bytes. -/
def shiftAll (n : Nat) : List Outline → List Outline
  | []      => []
  | o :: os => o.shift n :: shiftAll n os

end

/-! ### Marks of outlines -/

mutual

/-- The marks of an outline. -/
def marks : Outline → List (Mark Outline)
  | .text t                  => [.leaf (.text t)]
  | .variableTag tag         => [.leaf (.variableTag tag)]
  | .sectionTag heading body =>
    .opening heading.opening :: (marksAll body ++ [.closing heading.path heading.inner.stop])
  | .partialTag name span    => [.leaf (.partialTag name span)]

/-- The marks of a sequence of outlines. -/
def marksAll : List Outline → List (Mark Outline)
  | []      => []
  | o :: os => o.marks ++ marksAll os

end

@[simp] lemma marks_text (t : Text) : marks (.text t) = [.leaf (.text t)] := by simp [marks]

@[simp] lemma marks_variableTag (tag : Variable) :
    marks (.variableTag tag) = [.leaf (.variableTag tag)] := by simp [marks]

@[simp] lemma marks_sectionTag (heading : Heading) (body : List Outline) :
    marks (.sectionTag heading body) = .opening heading.opening ::
      (marksAll body ++ [.closing heading.path heading.inner.stop]) := by simp [marks]

@[simp] lemma marks_partialTag (name : Text) (span : Span) :
    marks (.partialTag name span) = [.leaf (.partialTag name span)] := by simp [marks]

@[simp] lemma marksAll_nil : marksAll [] = [] := by simp [marksAll]

@[simp] lemma marksAll_cons (o : Outline) (os : List Outline) :
    marksAll (o :: os) = o.marks ++ marksAll os := by simp [marksAll]

@[simp] lemma marksAll_append (os ps : List Outline) :
    marksAll (os ++ ps) = marksAll os ++ marksAll ps := by
  induction os with
  | nil => simp
  | cons o os ih => simp [ih]

/-- The first mark of an outline does not end a section. -/
lemma exists_marks_eq_cons (o : Outline) :
    ∃ m ms, o.marks = m :: ms ∧ ∀ path stop, m ≠ .closing path stop := by
  cases o <;> simp

/-- Whether no outline goes on with these marks: they end a section, or there are none. -/
def Ends (ms : List (Mark Outline)) : Prop :=
  ms = [] ∨ ∃ path stop more, ms = .closing path stop :: more

lemma not_ends_marks_append (o : Outline) (ms : List (Mark Outline)) : ¬ Ends (o.marks ++ ms) := by
  obtain ⟨m, ms', hmarks, hne⟩ := o.exists_marks_eq_cons
  rw [hmarks]
  rintro (h | ⟨path, stop, more, h⟩)
  · simp at h
  · exact hne path stop (List.cons.inj h).1

lemma Heading.eq_of_opening_eq {h h' : Heading} (hopening : h.opening = h'.opening)
    (hstop : h.inner.stop = h'.inner.stop) : h = h' := by
  obtain ⟨path, inverted, ⟨start, stop⟩, delimiters, span⟩ := h
  obtain ⟨path', inverted', ⟨start', stop'⟩, delimiters', span'⟩ := h'
  simp_all [Heading.opening]

mutual

/-- An outline is told by its marks, whatever follows. -/
lemma eq_of_marks_append {ms ms' : List (Mark Outline)} (o o' : Outline)
    (h : o.marks ++ ms = o'.marks ++ ms') : o = o' ∧ ms = ms' := by
  match o with
  | .text t => cases o' <;> simp_all
  | .variableTag tag => cases o' <;> simp_all
  | .partialTag name span => cases o' <;> simp_all
  | .sectionTag heading body =>
    cases o' with
    | text t => simp at h
    | variableTag tag => simp at h
    | partialTag name span => simp at h
    | sectionTag heading' body' =>
      simp only [marks_sectionTag, List.cons_append, List.cons.injEq, Mark.opening.injEq,
        List.append_assoc] at h
      obtain ⟨hopening, hmarks⟩ := h
      obtain ⟨rfl, hrest⟩ := eq_of_marksAll_append body body' (.inr ⟨_, _, _, rfl⟩)
        (.inr ⟨_, _, _, rfl⟩) hmarks
      simp only [List.cons.injEq, Mark.closing.injEq] at hrest
      obtain ⟨⟨-, hstop⟩, rfl⟩ := hrest
      rw [Heading.eq_of_opening_eq hopening hstop]
      exact ⟨rfl, rfl⟩

/-- A sequence of outlines is told by its marks, if nothing belongs to it that follows. -/
lemma eq_of_marksAll_append {ms ms' : List (Mark Outline)} (os os' : List Outline) (hms : Ends ms)
    (hms' : Ends ms') (h : marksAll os ++ ms = marksAll os' ++ ms') : os = os' ∧ ms = ms' := by
  match os, os' with
  | [], [] => exact ⟨rfl, by simpa using h⟩
  | [], o' :: os' =>
    rw [marksAll_nil, List.nil_append, marksAll_cons, List.append_assoc] at h
    exact absurd (h ▸ hms) (not_ends_marks_append o' _)
  | o :: os, [] =>
    rw [marksAll_nil, List.nil_append, marksAll_cons, List.append_assoc] at h
    exact absurd (h ▸ hms') (not_ends_marks_append o _)
  | o :: os, o' :: os' =>
    rw [marksAll_cons, marksAll_cons, List.append_assoc, List.append_assoc] at h
    obtain ⟨rfl, hrest⟩ := eq_of_marks_append o o' h
    obtain ⟨rfl, hlast⟩ := eq_of_marksAll_append os os' hms hms' hrest
    exact ⟨rfl, hlast⟩

end

theorem marksAll_injective {os os' : List Outline} (h : marksAll os = marksAll os') : os = os' := by
  have hend : Ends [] := .inl rfl
  exact (eq_of_marksAll_append os os' hend hend (congrArg (· ++ []) h)).1

end Outline

/-! ### Marks without layout -/

namespace Mark

/-- The mark that a mark of a tree is in the outline. -/
def outline? (source : Text) : Mark Tree → Option (Mark Outline)
  | .leaf (.text span)       =>
    if (span.slice source).ink = [] then none else some (.leaf (.text (span.slice source).ink))
  | .leaf (.variableTag tag) => some (.leaf (.variableTag tag))
  | .leaf (.sectionTag _ _)  => none
  | .leaf (.partialTag tag)  => some (.leaf (.partialTag tag.name tag.span))
  | .opening o               => some (.opening o)
  | .closing path stop       => some (.closing path stop)

/-- A mark of an outline moved right by `n` bytes. -/
def shift (n : Nat) : Mark Outline → Mark Outline
  | .leaf o            => .leaf (o.shift n)
  | .opening o         => .opening (o.shift n)
  | .closing path stop => .closing path (stop + n)

end Mark

namespace Outline

mutual

lemma marks_shift (n : Nat) (o : Outline) : (o.shift n).marks = o.marks.map (Mark.shift n) := by
  match o with
  | .text t => simp [shift, Mark.shift]
  | .variableTag tag => simp [shift, Mark.shift]
  | .partialTag name span => simp [shift, Mark.shift]
  | .sectionTag heading body =>
    simp [shift, Mark.shift, marksAll_shiftAll n body, Heading.shift, Heading.opening,
      Opening.shift, Span.shift]

lemma marksAll_shiftAll (n : Nat) (os : List Outline) :
    marksAll (shiftAll n os) = (marksAll os).map (Mark.shift n) := by
  match os with
  | [] => simp [shiftAll]
  | o :: os => simp [shiftAll, marks_shift n o, marksAll_shiftAll n os]

end

end Outline

namespace Tree

mutual

lemma marksAll_outline (source : Text) (t : Tree) :
    Outline.marksAll (t.outline source) = t.marks.filterMap (Mark.outline? source) := by
  match t with
  | .text span =>
    rw [outline, marks_text, List.filterMap_cons, Mark.outline?]
    split <;> simp
  | .variableTag tag => simp [outline, Mark.outline?]
  | .partialTag tag => simp [outline, Mark.outline?]
  | .sectionTag heading body =>
    simp [outline, Mark.outline?, marksAll_outlineAll source body]

/-- The marks of an outline are those of the trees without layout. -/
lemma marksAll_outlineAll (source : Text) (ts : List Tree) :
    Outline.marksAll (outlineAll source ts) =
      (marksAll ts).filterMap (Mark.outline? source) := by
  match ts with
  | [] => simp [outlineAll]
  | t :: ts =>
    rw [outlineAll, Outline.marksAll_append, marksAll_cons, List.filterMap_append,
      marksAll_outline source t, marksAll_outlineAll source ts]

end

end Tree

/-! ### Marks of tokens -/

/-- The mark that a tag adds to an outline. -/
def Tag.outline? (tag : Tag) (span : Span) (delimiters : Delimiters) : Option (Mark Outline) :=
  match tag with
  | .variableTag path escaped => some (.leaf (.variableTag ⟨path, escaped, span⟩))
  | .openTag path inverted    => some (.opening ⟨path, inverted, span, span.stop, delimiters⟩)
  | .closeTag path            => some (.closing path span.start)
  | .partialTag name          => some (.leaf (.partialTag name span))
  | .commentTag               => none
  | .delimiterTag             => none

/-- The mark that a token adds to an outline. -/
def Token.outline? (source : Text) : Token → Option (Mark Outline)
  | .text span => (Mark.leaf (.text span)).outline? source
  | .tag raw   =>
    match Tag.ofRaw raw source with
    | .ok means => means.outline? raw.span raw.delimiters
    | .error _  => none

section
variable {source before inner after : Text} {raw : RawTag} {n : Nat}

lemma Fragment.bind_mark?_tag (source : Text) (raw : RawTag) (indent : Text) :
    ((Fragment.tag raw indent).mark? source).bind (Mark.outline? source) =
      (Token.tag raw).outline? source := by
  rw [mark?, Token.outline?]
  cases Tag.ofRaw raw source with
  | error e => rfl
  | ok means => cases means <;> rfl

lemma Mark.outline?_text_congr {kept span : Span}
    (h : (kept.slice source).ink = (span.slice source).ink) :
    (Mark.leaf (.text kept)).outline? source = (Mark.leaf (.text span)).outline? source := by
  rw [outline?, outline?, h]

/-- Trimming does not change the outline. -/
lemma Trimmed.filterMap_outline? {tokens : List Token} {fs : List Fragment}
    (h : Trimmed source tokens fs) :
    (fs.filterMap (Fragment.mark? source)).filterMap (Mark.outline? source) =
      tokens.filterMap (Token.outline? source) := by
  rw [List.filterMap_filterMap]
  induction h with
  | nil => rfl
  | @gone span tokens fs hink h ih =>
    have hnone : (Token.text span).outline? source = none := if_pos hink
    rw [ih, List.filterMap_cons, hnone]
  | @text span kept tokens fs hlies hne hstart hstop hink h ih =>
    have hsame : ((Fragment.text kept).mark? source).bind (Mark.outline? source) =
        (Token.text span).outline? source := Mark.outline?_text_congr hink
    rw [List.filterMap_cons, List.filterMap_cons, ih, hsame]
  | tag raw indent h ih =>
    rw [List.filterMap_cons, List.filterMap_cons, ih, Fragment.bind_mark?_tag]

/-- The outline of a template is told by its tokens. -/
theorem Template.marksAll_outlineAll {d : Delimiters} {t : Template}
    (h : compile source d = .ok t) :
    Outline.marksAll (Tree.outlineAll source t.trees) =
      (scan source d).tokens.filterMap (Token.outline? source) := by
  rw [Tree.marksAll_outlineAll, marksAll_of_compile h, (trimmed_scan source d).filterMap_outline?]

/-! ### Tokens of a part of a source -/

lemma Tag.ofRaw_shift_eq_ok_iff {tag : Tag} (hsource : source = before ++ inner ++ after)
    (hcontent : raw.content.LiesIn inner) :
    ofRaw (raw.shift before.byteSize) source = .ok tag ↔ ofRaw raw inner = .ok tag := by
  have hname : (raw.shift before.byteSize).name source = raw.name inner :=
    Span.slice_shift hsource hcontent
  rw [ofRaw_eq_ok_iff, ofRaw_eq_ok_iff, hname]
  rfl

lemma Tag.outline?_shift (tag : Tag) (span : Span) (d : Delimiters) (n : Nat) :
    tag.outline? (span.shift n) d = (tag.outline? span d).map (Mark.shift n) := by
  cases tag <;> simp [outline?, Mark.shift, Outline.shift, Opening.shift, Span.shift]

/-- The marks of the tokens of a part of a source, wherever the part stands. -/
lemma Token.outline?_shift {token : Token} (hsource : source = before ++ inner ++ after)
    (hspan : token.span.LiesIn inner)
    (hcontent : ∀ raw, token = .tag raw → raw.content.LiesIn inner) :
    (token.shift before.byteSize).outline? source =
      (token.outline? inner).map (Mark.shift before.byteSize) := by
  cases token with
  | text span =>
    have hslice : (span.shift before.byteSize).slice source = span.slice inner :=
      Span.slice_shift hsource hspan
    rw [shift, outline?, outline?, Mark.outline?, Mark.outline?, hslice]
    split
    · rfl
    · simp [Mark.shift, Outline.shift]
  | tag raw =>
    have hmeans : ∀ means, Tag.ofRaw (raw.shift before.byteSize) source = .ok means ↔
        Tag.ofRaw raw inner = .ok means := fun _ =>
      Tag.ofRaw_shift_eq_ok_iff hsource (hcontent raw rfl)
    rw [shift, outline?, outline?]
    cases hraw : Tag.ofRaw raw inner with
    | ok means =>
      rw [(hmeans means).2 hraw]
      exact Tag.outline?_shift means raw.span raw.delimiters before.byteSize
    | error e =>
      cases hshift : Tag.ofRaw (raw.shift before.byteSize) source with
      | ok means => simp [(hmeans means).1 hshift] at hraw
      | error e' => rfl

end

end Mustache
