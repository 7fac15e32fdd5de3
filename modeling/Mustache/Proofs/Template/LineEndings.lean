import Mathlib.Order.MinMax
import Mustache.Proofs.Tag.LineEndings
import Mustache.Proofs.Template.Fragments

/-!
# Templates with other line endings

A source without carriage returns is compiled in the same way when one is put in front of every line
feed: into the same trees, which say the same, with the line endings changed in literal text, in the
inner text of sections and in the names of partials. All spans stand where their characters have
come to stand.
-/

namespace Mustache

variable {source : Text} {d : Delimiters}

/-! ### Fragments -/

/-- A fragment of `source` when the line endings of `source` are changed. -/
def Fragment.crlf (source : Text) : Fragment → Fragment
  | .text span      => .text (span.crlf source)
  | .tag raw indent => .tag (raw.crlf source) indent

lemma map_crlf_textFragment (source : Text) (start stop : Nat) :
    (textFragment start stop).map (Fragment.crlf source) =
      textFragment (source.crlfOffset start) (source.crlfOffset stop) := by
  have hmono := source.strictMono_crlfOffset
  rcases Nat.lt_or_ge start stop with h | h
  · rw [textFragment, textFragment, if_pos h, if_pos (hmono h)]
    rfl
  · rw [textFragment, textFragment, if_neg (Nat.not_lt.2 h),
      if_neg (Nat.not_lt.2 (hmono.monotone h))]
    rfl

section

variable (hreturn : '\r' ∉ source)
include hreturn

namespace RawTag

lemma line?_crlf (raw : RawTag) :
    (raw.crlf source).line? source.crlf = (raw.line? source).map (StandaloneLine.crlf source) := by
  rw [line?, line?]
  by_cases hsigil : raw.sigil.canStandAlone
  · rw [if_pos hsigil]
    exact (if_pos hsigil).trans (standaloneLine?_crlf hreturn raw.span)
  · rw [if_neg hsigil]
    exact if_neg hsigil

lemma region_crlf (raw : RawTag) :
    (raw.crlf source).region source.crlf = (raw.region source).crlf source := by
  rw [region, region, raw.line?_crlf hreturn]
  cases raw.line? source <;> rfl

/-- No indentation changes. -/
lemma indent_crlf (raw : RawTag) : (raw.crlf source).indent source.crlf = raw.indent source := by
  rw [indent, indent, raw.line?_crlf hreturn]
  cases hline : raw.line? source with
  | none => rfl
  | some line =>
    have hindent : '\n' ∉ line.indent.slice source := by
      rw [line?] at hline
      split at hline
      · exact newline_notMem_indent hline
      · cases hline
    exact (line.indent.slice_crlf source).trans (Text.crlf_of_notMem hindent)

end RawTag

lemma textStop_crlf (stop : Nat) (tokens : List Token) :
    textStop source.crlf (source.crlfOffset stop) (tokens.map (Token.crlf source)) =
      source.crlfOffset (textStop source stop tokens) := by
  cases tokens with
  | nil => rfl
  | cons token tokens =>
    cases token with
    | text span => rfl
    | tag raw => exact congrArg Span.start (raw.region_crlf hreturn)

/-- The same is cut out. -/
lemma fragments_crlf (k : Nat) (tokens : List Token) :
    fragments source.crlf (source.crlfOffset k) (tokens.map (Token.crlf source)) =
      (fragments source k tokens).map (Fragment.crlf source) := by
  induction tokens generalizing k with
  | nil => rfl
  | cons token tokens ih =>
    cases token with
    | text span =>
      have hmax := source.strictMono_crlfOffset.monotone.map_max (a := span.start) (b := k)
      rw [List.map_cons, Token.crlf, fragments, fragments, List.map_append,
        map_crlf_textFragment, ih, hmax, ← textStop_crlf hreturn]
      rfl
    | tag raw =>
      have hskip : ((((raw.crlf source).line? source.crlf).map (·.stop)).getD
          (source.crlfOffset k)) =
            source.crlfOffset (((raw.line? source).map (·.stop)).getD k) := by
        rw [raw.line?_crlf hreturn]
        cases raw.line? source <;> rfl
      rw [List.map_cons, Token.crlf, fragments, fragments, List.map_cons, hskip, ih,
        raw.indent_crlf hreturn]
      rfl

end

/-! ### Trees -/

/-- A heading of `source` when the line endings of `source` are changed. -/
def Heading.crlf (source : Text) (heading : Heading) : Heading :=
  { heading with inner := heading.inner.crlf source, span := heading.span.crlf source }

namespace Tree

mutual

/-- A tree of `source` when the line endings of `source` are changed. -/
def crlf (source : Text) : Tree → Tree
  | .text span               => .text (span.crlf source)
  | .variableTag tag         => .variableTag { tag with span := tag.span.crlf source }
  | .sectionTag heading body => .sectionTag (heading.crlf source) (crlfAll source body)
  | .partialTag tag          =>
    .partialTag { tag with name := tag.name.crlf, span := tag.span.crlf source }

/-- A sequence of trees of `source` when the line endings of `source` are changed. -/
def crlfAll (source : Text) : List Tree → List Tree
  | []      => []
  | t :: ts => t.crlf source :: crlfAll source ts

end

lemma crlfAll_eq_map (source : Text) (ts : List Tree) :
    crlfAll source ts = ts.map (crlf source) := by
  induction ts with
  | nil => simp [crlfAll]
  | cons t ts ih => simp [crlfAll, ih]

end Tree

/-! ### Groves -/

/-- An open section of `source` when the line endings of `source` are changed. -/
def OpenTree.crlf (source : Text) (s : OpenTree) : OpenTree :=
  { s with span := s.span.crlf source, body := Tree.crlfAll source s.body }

namespace Grove

/-- A grove of `source` when the line endings of `source` are changed. -/
def crlf (source : Text) (g : Grove) : Grove :=
  ⟨Tree.crlfAll source g.root, g.pending.map (OpenTree.crlf source)⟩

/-- A grove, or an error, of `source` when the line endings of `source` are changed. -/
def crlfResult (source : Text) (result : Except ParseError Grove) : Except ParseError Grove :=
  (result.map (crlf source)).mapError (ParseError.crlf source)

lemma crlf_push (source : Text) (g : Grove) (t : Tree) :
    (g.push t).crlf source = (g.crlf source).push (t.crlf source) := by
  obtain ⟨root, pending⟩ := g
  cases pending <;> simp [push, crlf, OpenTree.crlf, Tree.crlfAll]

lemma close_crlf (source : Text) (g : Grove) (path : Path) (span : Span) :
    (g.crlf source).close path (span.crlf source) = crlfResult source (g.close path span) := by
  obtain ⟨root, pending⟩ := g
  cases pending with
  | nil => rfl
  | cons s outer =>
    rw [close, close]
    simp only [crlf, List.map_cons, OpenTree.crlf]
    split
    · rw [crlfResult, Except.map, Except.mapError, crlf_push]
      simp only [crlf, Tree.crlf, Heading.crlf, Span.crlf, Tree.crlfAll_eq_map, List.map_reverse]
    · rfl

lemma addTag_crlf (source : Text) (g : Grove) (tag : Tag) (span : Span) (d : Delimiters)
    (indent : Text) :
    (g.crlf source).addTag tag.crlf (span.crlf source) d indent =
      crlfResult source (g.addTag tag span d indent) := by
  cases tag with
  | closeTag path => exact close_crlf source g path span
  | openTag path inverted =>
    simp [addTag, crlfResult, crlf, OpenTree.crlf, Tree.crlfAll, Except.map, Except.mapError,
      Tag.crlf]
  | variableTag path escaped =>
    rw [addTag, crlfResult, Except.map, Except.mapError, crlf_push, Tree.crlf]
    rfl
  | partialTag name =>
    rw [addTag, crlfResult, Except.map, Except.mapError, crlf_push, Tree.crlf]
    rfl
  | commentTag | delimiterTag => rfl

/-- A fragment adds the same. -/
lemma add_crlf (source : Text) (g : Grove) (f : Fragment) :
    (g.crlf source).add source.crlf (f.crlf source) = crlfResult source (g.add source f) := by
  cases f with
  | text span =>
    rw [Fragment.crlf, add_text, add_text, crlfResult, Except.map, Except.mapError, crlf_push,
      Tree.crlf]
  | tag raw indent =>
    rw [Fragment.crlf, add_tag, add_tag, Tag.ofRaw_crlf]
    cases Tag.ofRaw raw source with
    | error e => rfl
    | ok tag => exact addTag_crlf source g tag raw.span raw.delimiters indent

/-- All fragments, one after the other, add the same. -/
theorem foldlM_crlf (source : Text) (fs : List Fragment) (g : Grove) :
    (fs.map (Fragment.crlf source)).foldlM (add source.crlf) (g.crlf source) =
      crlfResult source (fs.foldlM (add source) g) := by
  induction fs generalizing g with
  | nil => rfl
  | cons f fs ih =>
    rw [List.map_cons, List.foldlM_cons, List.foldlM_cons, add_crlf]
    cases g.add source f with
    | error e => rfl
    | ok next => exact ih next

lemma finish_crlf (source : Text) (g : Grove) :
    (g.crlf source).finish =
      (g.finish.map (Tree.crlfAll source)).mapError (ParseError.crlf source) := by
  obtain ⟨root, pending⟩ := g
  cases pending with
  | cons s outer => rfl
  | nil =>
    simp only [crlf, List.map_nil, finish, Except.map, Except.mapError, Tree.crlfAll_eq_map,
      List.map_reverse]

end Grove

lemma ParseError.ofScanError_crlf (source : Text) (e : ScanError) :
    ofScanError (e.crlf source) = (ofScanError e).crlf source := by
  cases e <;> rfl

/-- The same trees are grown, and the same fault is found. -/
theorem Template.forest_crlf (hreturn : '\r' ∉ source)
    (hsize : Text.byteSize source.crlf ≤ maxOffset) (d : Delimiters) :
    forest source.crlf d =
      ((forest source d).map (Tree.crlfAll source)).mapError (ParseError.crlf source) := by
  have hsize' := source.byteSize_le_byteSize_crlf.trans hsize
  have hfragments := fragments_crlf hreturn 0 (scan source d).tokens
  rw [Text.crlfOffset_zero] at hfragments
  have hgrove := Grove.foldlM_crlf source (fragments source 0 (scan source d).tokens) .empty
  have hempty : Grove.empty.crlf source = .empty := by simp [Grove.empty, Grove.crlf, Tree.crlfAll]
  rw [hempty] at hgrove
  rw [forest, forest, if_neg (Nat.not_lt.2 hsize), if_neg (Nat.not_lt.2 hsize')]
  simp only [scan_crlf, hfragments, hgrove]
  cases (fragments source 0 (scan source d).tokens).foldlM (Grove.add source) Grove.empty with
  | error e => rfl
  | ok grove =>
    cases (scan source d).failure with
    | none => exact grove.finish_crlf source
    | some e =>
      simp only [Grove.crlfResult, Except.map, Except.mapError, Option.map_some,
        ParseError.ofScanError_crlf]

/-! ### What trees say -/

/-- A part of a template as its source has it: in place of spans stands what they cover. -/
inductive Wording
  | text (text : Text)
  | variableTag (path : Path) (escaped : Bool)
  | sectionTag (path : Path) (inverted : Bool) (inner : Text) (delimiters : Delimiters)
      (body : List Wording)
  | partialTag (name indent : Text)

namespace Wording

mutual

/-- The part with other line endings in literal text, inner texts and names of partials. -/
def crlf : Wording → Wording
  | .text t                                      => .text t.crlf
  | .variableTag path escaped                    => .variableTag path escaped
  | .sectionTag path inverted inner delimiters body =>
    .sectionTag path inverted inner.crlf delimiters (crlfAll body)
  | .partialTag name indent                      => .partialTag name.crlf indent

/-- The parts with other line endings. -/
def crlfAll : List Wording → List Wording
  | []      => []
  | w :: ws => w.crlf :: crlfAll ws

end

end Wording

namespace Tree

mutual

/-- What a tree says in its source. -/
def wording (source : Text) : Tree → Wording
  | .text span               => .text (span.slice source)
  | .variableTag tag         => .variableTag tag.path tag.escaped
  | .sectionTag heading body =>
    .sectionTag heading.path heading.inverted (heading.inner.slice source) heading.delimiters
      (wordingAll source body)
  | .partialTag tag          => .partialTag tag.name tag.indent

/-- What a sequence of trees says. -/
def wordingAll (source : Text) : List Tree → List Wording
  | []      => []
  | t :: ts => t.wording source :: wordingAll source ts

end

mutual

lemma wording_crlf (source : Text) (t : Tree) :
    (t.crlf source).wording source.crlf = (t.wording source).crlf := by
  match t with
  | .text span => simp [crlf, wording, Wording.crlf, Span.slice_crlf]
  | .variableTag tag => simp [crlf, wording, Wording.crlf]
  | .partialTag tag => simp [crlf, wording, Wording.crlf]
  | .sectionTag heading body =>
    simp [crlf, wording, Wording.crlf, Heading.crlf, Span.slice_crlf,
      wordingAll_crlfAll source body]

/-- What trees say changes like the source. -/
lemma wordingAll_crlfAll (source : Text) (ts : List Tree) :
    wordingAll source.crlf (crlfAll source ts) = Wording.crlfAll (wordingAll source ts) := by
  match ts with
  | [] => simp [crlfAll, wordingAll, Wording.crlfAll]
  | t :: ts =>
    simp [crlfAll, wordingAll, Wording.crlfAll, wording_crlf source t,
      wordingAll_crlfAll source ts]

end

end Tree

namespace Template

/-- What a template says. -/
def wording (t : Template) : List Wording := Tree.wordingAll t.source t.trees

/-- A source without carriage returns is compiled, or not, whatever its line endings. What the
template says has the line endings of the source and is otherwise the same, and so are the trees,
but for the places where they stand. -/
theorem compile_crlf (hreturn : '\r' ∉ source) (hsize : Text.byteSize source.crlf ≤ maxOffset)
    (d : Delimiters) :
    ((∃ t, compile source d = .ok t) ↔ ∃ t', compile source.crlf d = .ok t') ∧
      ∀ t t', compile source d = .ok t → compile source.crlf d = .ok t' →
        t'.wording = Wording.crlfAll t.wording ∧ t'.trees = Tree.crlfAll source t.trees := by
  have hforest := forest_crlf hreturn hsize d
  constructor
  · rw [compile_eq_forest, compile_eq_forest, hforest]
    cases forest source d <;> simp [Except.map, Except.mapError]
  · intro t t' h h'
    obtain ⟨htrees, ht⟩ := eq_ofTrees_of_compile h
    obtain ⟨htrees', ht'⟩ := eq_ofTrees_of_compile h'
    rw [htrees, htrees'] at hforest
    have hsame : t'.trees = Tree.crlfAll source t.trees := Except.ok.inj hforest
    have hsource : t.source = source := congrArg Template.source ht
    have hsource' : t'.source = source.crlf := congrArg Template.source ht'
    refine ⟨?_, hsame⟩
    rw [wording, wording, hsource, hsource', hsame, Tree.wordingAll_crlfAll]

/-- A section whose tags stand alone on lines of their own, and a partial that does with a name of
two lines. -/
def manyLines : Text := "{{#a}}\n\t\x7b\x7b>p\nq\x7d\x7d\n{{/a}}\nx\n".toList

/-- The tags stand alone with either line ending, and what is left of the source has its own. -/
theorem compile_crlf_manyLines :
    ∃ t t', compile manyLines .standard = .ok t ∧ compile manyLines.crlf .standard = .ok t' ∧
      '\r' ∉ manyLines ∧ Text.byteSize manyLines.crlf ≤ maxOffset ∧
      t'.wording = Wording.crlfAll t.wording ∧ t'.trees = Tree.crlfAll manyLines t.trees ∧
      (t.partialNames, t.trees.length, (Tree.textsAll t.trees).map t.text) =
        (["p\nq".toList], 2, ["x\n".toList]) ∧
      (t'.partialNames, t'.trees.length, (Tree.textsAll t'.trees).map t'.text) =
        (["p\r\nq".toList], 2, ["x\r\n".toList]) := by
  have hreturn : '\r' ∉ manyLines := by decide
  have hsize : Text.byteSize manyLines.crlf ≤ maxOffset := by decide +kernel
  have hparts : (compile manyLines .standard).map (fun t =>
      (t.partialNames, t.trees.length, (Tree.textsAll t.trees).map t.text)) =
        .ok (["p\nq".toList], 2, ["x\n".toList]) := by
    decide +kernel
  have hparts' : (compile manyLines.crlf .standard).map (fun t =>
      (t.partialNames, t.trees.length, (Tree.textsAll t.trees).map t.text)) =
        .ok (["p\r\nq".toList], 2, ["x\r\n".toList]) := by
    decide +kernel
  obtain ⟨hiff, hsame⟩ := compile_crlf hreturn hsize .standard
  cases hcompile : compile manyLines .standard with
  | error e => simp [hcompile, Except.map] at hparts
  | ok t =>
    obtain ⟨t', hcompile'⟩ := hiff.1 ⟨t, hcompile⟩
    obtain ⟨hwording, htrees⟩ := hsame t t' hcompile hcompile'
    rw [hcompile] at hparts
    rw [hcompile'] at hparts'
    exact ⟨t, t', rfl, hcompile', hreturn, hsize, hwording, htrees, Except.ok.inj hparts,
      Except.ok.inj hparts'⟩

end Template

end Mustache
