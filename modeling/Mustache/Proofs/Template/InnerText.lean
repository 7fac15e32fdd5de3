import Mustache.Proofs.Template.Outline
import Mustache.Proofs.Template.Parts
import Mustache.Proofs.Template.Subtrees
import Mustache.Rendering.Renderer

/-!
# The text of a section is a template

What lies between the tags of a section compiles alone, with the delimiters that are recorded in the
section, to a template of the same outline as its body. So a lambda that has the text of its section
rendered as it is has a template rendered.
-/

namespace Mustache

/-! ### Balance -/

/-- The bracket that a mark is. -/
def Mark.bracket? : Mark Outline → Option Bracket
  | .leaf _         => none
  | .opening o      => some (.opening o.path.display o.span)
  | .closing path _ => some (.closing path.display)

lemma Mark.bracket?_shift (m : Mark Outline) (n : Nat) :
    (m.shift n).bracket? = m.bracket?.map (Bracket.shift n) := by
  cases m <;> rfl

namespace Outline

mutual

lemma balanced_marks (o : Outline) : Bracket.Balanced (o.marks.filterMap Mark.bracket?) := by
  match o with
  | .text t =>
    rw [marks_text]
    exact .nil
  | .variableTag tag =>
    rw [marks_variableTag]
    exact .nil
  | .partialTag name span =>
    rw [marks_partialTag]
    exact .nil
  | .sectionTag heading body =>
    have hbody := balanced_marksAll body
    simpa [Mark.bracket?, Heading.opening] using
      hbody.enclose_all heading.path.display heading.span

/-- The marks of outlines are balanced. -/
lemma balanced_marksAll (os : List Outline) :
    Bracket.Balanced ((marksAll os).filterMap Mark.bracket?) := by
  match os with
  | [] => simpa using Bracket.Balanced.nil
  | o :: os =>
    rw [marksAll_cons, List.filterMap_append]
    exact (balanced_marks o).append (balanced_marksAll os)

end

end Outline

section
variable {source : Text} {raw : RawTag} {tokens : List Token}

/-- The bracket of a tag that is named well is that of its mark. -/
lemma RawTag.bracket?_eq_bind (hname : raw.WellNamed source) :
    raw.bracket? source = ((Token.tag raw).outline? source).bind Mark.bracket? := by
  obtain ⟨tag, htag⟩ := Tag.exists_ofRaw_eq_ok_iff.2 hname
  have hbracket := Tag.bracket?_of_ofRaw htag
  rw [Token.outline?, htag]
  cases tag with
  | openTag path inverted =>
    obtain ⟨hparse, hb⟩ := hbracket
    rw [hb, ← Path.display_of_parse hparse]
    rfl
  | closeTag path =>
    obtain ⟨hparse, hb⟩ := hbracket
    rw [hb, ← Path.display_of_parse hparse]
    rfl
  | variableTag path escaped | partialTag name | commentTag | delimiterTag => exact hbracket

lemma brackets_eq_filterMap (hnames : ∀ raw, .tag raw ∈ tokens → raw.WellNamed source) :
    brackets source tokens =
      (tokens.filterMap (Token.outline? source)).filterMap Mark.bracket? := by
  rw [brackets, List.filterMap_filterMap]
  apply List.filterMap_congr
  intro token htoken
  cases token with
  | text span =>
    rw [Token.bracket?, Token.outline?, Mark.outline?]
    split <;> rfl
  | tag raw => exact RawTag.bracket?_eq_bind (hnames raw htoken)

end

/-! ### The tags of a section -/

namespace Token

variable {source : Text} {token : Token}

/-- The mark of a token that opens a section is that of a tag. -/
lemma exists_of_outline?_eq_opening {o : Opening}
    (h : token.outline? source = some (.opening o)) :
    ∃ raw, token = .tag raw ∧ o.bodyStart = raw.span.stop ∧ o.delimiters = raw.delimiters := by
  cases token with
  | text span =>
    rw [outline?, Mark.outline?] at h
    split at h <;> simp at h
  | tag raw =>
    rw [outline?] at h
    split at h
    · next means _ =>
      cases means with
      | openTag path inverted =>
        obtain rfl := Mark.opening.inj (Option.some.inj h)
        exact ⟨raw, rfl, rfl, rfl⟩
      | variableTag | closeTag | partialTag | commentTag | delimiterTag =>
        simp [Tag.outline?] at h
    · simp at h

/-- The mark of a token that closes a section is that of a tag. -/
lemma exists_of_outline?_eq_closing {path : Path} {stop : Nat}
    (h : token.outline? source = some (.closing path stop)) :
    ∃ raw, token = .tag raw ∧ stop = raw.span.start := by
  cases token with
  | text span =>
    rw [outline?, Mark.outline?] at h
    split at h <;> simp at h
  | tag raw =>
    rw [outline?] at h
    split at h
    · next means _ =>
      cases means with
      | closeTag path =>
        obtain ⟨-, rfl⟩ := Mark.closing.inj (Option.some.inj h)
        exact ⟨raw, rfl, rfl⟩
      | variableTag | openTag | partialTag | commentTag | delimiterTag =>
        simp [Tag.outline?] at h
    · simp at h

end Token

namespace Template

variable {source : Text} {d : Delimiters} {t : Template} {tag : Section}

/-- The tokens of a section: its two tags, and those of its body between them. -/
lemma exists_tokens_of_mem (h : compile source d = .ok t)
    (htag : .sectionTag tag ∈ t.table.nodes) :
    ∃ front opening mid closing back,
      (scan source d).tokens = front ++ .tag opening :: (mid ++ .tag closing :: back) ∧
      tag.inner = ⟨opening.span.stop, closing.span.start⟩ ∧
      tag.delimiters = opening.delimiters ∧
      mid.filterMap (Token.outline? source) =
        Outline.marksAll (Tree.outlineAll source (t.unfold (t.nodeCount + 1) tag.body)) := by
  have hmem : .sectionTag tag.toHeading (t.unfold (t.nodeCount + 1) tag.body) ∈
      Tree.subtreesAll t.trees := tree_mem_subtreesAll h (Nat.le_succ _) htag
  obtain ⟨ms, ms', hmarks⟩ := Tree.marks_isInfix_of_mem_subtreesAll _ hmem
  have houtline : (scan source d).tokens.filterMap (Token.outline? source) =
      ms.filterMap (Mark.outline? source) ++ .opening tag.toHeading.opening ::
        (Outline.marksAll (Tree.outlineAll source (t.unfold (t.nodeCount + 1) tag.body)) ++
          .closing tag.path tag.inner.stop :: ms'.filterMap (Mark.outline? source)) := by
    rw [← marksAll_outlineAll h, Tree.marksAll_outlineAll, Tree.marksAll_outlineAll, ← hmarks]
    simp [Mark.outline?]
  obtain ⟨front, rest, htokens, -, hrest⟩ := List.filterMap_eq_append_iff.1 houtline
  obtain ⟨front', token, rest, rfl, -, hopening, hrest⟩ := List.filterMap_eq_cons_iff.1 hrest
  obtain ⟨mid, rest, rfl, hmid, hrest⟩ := List.filterMap_eq_append_iff.1 hrest
  obtain ⟨mid', token', back, rfl, hnone, hclosing, -⟩ := List.filterMap_eq_cons_iff.1 hrest
  obtain ⟨opening, rfl, hstart, hd⟩ := Token.exists_of_outline?_eq_opening hopening
  obtain ⟨closing, rfl, hstop⟩ := Token.exists_of_outline?_eq_closing hclosing
  refine ⟨front ++ front', opening, mid ++ mid', closing, back, ?_, ?_, hd, ?_⟩
  · rw [htokens]
    simp only [List.append_assoc]
  · exact congrArg₂ Span.mk hstart hstop
  · rw [List.filterMap_append, hmid, List.filterMap_eq_nil_iff.2 hnone, List.append_nil]

section
variable {before inner after : Text} {inside : Delimiters}

/-- The marks of the tokens between two tags, told by those of the text between them. -/
lemma filterMap_outline?_shift (hsource : source = before ++ inner ++ after) :
    ((scan inner inside).tokens.map (Token.shift before.byteSize)).filterMap
        (Token.outline? source) =
      ((scan inner inside).tokens.filterMap (Token.outline? inner)).map
        (Mark.shift before.byteSize) := by
  have hdissection := (Scanner.rounds_run (.start inner inside)).dissection
    (List.nil_append inner).symm rfl
  rw [List.filterMap_map, List.map_filterMap]
  apply List.filterMap_congr
  intro token htoken
  refine Token.outline?_shift hsource (hdissection.span_liesIn token htoken) ?_
  rintro raw rfl
  exact hdissection.content_liesIn raw htoken

/-- The tokens between two tags are sound alone, if they are named well and their brackets are
balanced in the source. -/
lemma sound_of_shift (hsource : source = before ++ inner ++ after)
    (hnames : ∀ raw, .tag raw ∈ (scan inner inside).tokens.map (Token.shift before.byteSize) →
      raw.WellNamed source)
    (hbalanced : Bracket.Balanced
      ((((scan inner inside).tokens.map (Token.shift before.byteSize)).filterMap
        (Token.outline? source)).filterMap Mark.bracket?)) :
    Sound inner (scan inner inside).tokens [] := by
  have hdissection := (Scanner.rounds_run (.start inner inside)).dissection
    (List.nil_append inner).symm rfl
  have hnames' : ∀ raw, .tag raw ∈ (scan inner inside).tokens → raw.WellNamed inner := by
    intro raw hraw
    have hmem : .tag (raw.shift before.byteSize) ∈
        (scan inner inside).tokens.map (Token.shift before.byteSize) :=
      List.mem_map.2 ⟨.tag raw, hraw, rfl⟩
    obtain ⟨means, hmeans⟩ := Tag.exists_ofRaw_eq_ok_iff.2 (hnames _ hmem)
    refine Tag.exists_ofRaw_eq_ok_iff.1 ⟨means, ?_⟩
    exact (Tag.ofRaw_shift_eq_ok_iff hsource (hdissection.content_liesIn raw hraw)).1 hmeans
  refine ⟨hnames', Bracket.leavesOpen_nil_iff.2 ?_⟩
  rw [brackets_eq_filterMap hnames']
  rw [filterMap_outline?_shift hsource, List.filterMap_map] at hbalanced
  refine Bracket.Balanced.of_map_shift (n := before.byteSize) ?_
  rw [List.map_filterMap]
  simpa only [Function.comp_def, Mark.bracket?_shift] using hbalanced

end

/-- The text between the tags of a section compiles, with the delimiters of the section, to a
template whose outline is that of the body, moved to the left by the start of the body; and a lambda
that has this text rendered has that template rendered. -/
theorem exists_compile_inner (h : compile source d = .ok t)
    (htag : .sectionTag tag ∈ t.table.nodes) :
    ∃ t', compile (t.text tag.inner) tag.delimiters = .ok t' ∧
      Outline.shiftAll tag.inner.start (Tree.outlineAll (t.text tag.inner) t'.trees) =
        Tree.outlineAll source (t.unfold (t.nodeCount + 1) tag.body) ∧
      ∀ {F σ τ : Type} (r : Renderer F σ τ) (below : Renderer.Nested F σ τ) (here : Setting F),
        r.renderLambdaText below here (.overSection (t.text tag.inner) tag.delimiters)
            (t.text tag.inner) =
          r.checkDepth (here.depth + 1) LambdaTag.lambdaName >>= fun _ =>
            Renderer.enclosed LambdaTag.lambdaName [] (below (here.nested t') t'.root) := by
  obtain ⟨front, opening, mid, closing, back, htokens, hinner, hd, hmid⟩ :=
    exists_tokens_of_mem h htag
  obtain ⟨before, inner, after, hsource, hstart, hstop, hfailure, rfl⟩ :=
    Scanner.exists_scan_between htokens
  have ht : t.source = source := by
    rw [(eq_ofTrees_of_compile h).2]
    rfl
  have htext : t.text tag.inner = inner := by
    rw [text, hinner, ht]
    exact Span.slice_of_eq hsource hstart hstop
  have hbalanced := Outline.balanced_marksAll
    (Tree.outlineAll source (t.unfold (t.nodeCount + 1) tag.body))
  rw [← hmid] at hbalanced
  have hle := (exists_grove_of_forest (eq_ofTrees_of_compile h).1).1
  have hsound : Sound inner (scan inner opening.delimiters).tokens [] := by
    refine sound_of_shift hsource (fun raw hraw => ?_) hbalanced
    exact (sound_of_compile hle h).wellNamed raw (by simp [htokens, hraw])
  have hsize : inner.byteSize ≤ maxOffset := by
    simp only [hsource, Text.byteSize_append] at hle
    omega
  obtain ⟨t', ht'⟩ := exists_compile_eq_ok hsize hfailure hsound
  rw [htext, hd]
  refine ⟨t', ht', ?_, fun r below here => ?_⟩
  · apply Outline.marksAll_injective
    have hshift : tag.inner.start = before.byteSize := by
      rw [hinner]
      exact hstart
    rw [Outline.marksAll_shiftAll, marksAll_outlineAll ht', ← hmid,
      filterMap_outline?_shift hsource, hshift]
  · rw [Renderer.renderLambdaText]
    simp only [LambdaTag.delimiters, ht']
    rfl

/-- With pointed delimiters: a section whose text changes the delimiters. -/
theorem exists_compile_inner_changed :
    ∃ d t t', ∃ tag : Section, Delimiters.make ['<'] ['>'] = .ok d ∧
      compile "<#a> x <=| |=>\n|b||/a|".toList d = .ok t ∧ .sectionTag tag ∈ t.table.nodes ∧
      t.text tag.inner = " x <=| |=>\n|b|".toList ∧ tag.delimiters = d ∧
      compile " x <=| |=>\n|b|".toList d = .ok t' ∧
      Outline.shiftAll 4 (Tree.outlineAll " x <=| |=>\n|b|".toList t'.trees) =
        Tree.outlineAll "<#a> x <=| |=>\n|b||/a|".toList
          (t.unfold (t.nodeCount + 1) tag.body) := by
  let source : Text := "<#a> x <=| |=>\n|b||/a|".toList
  let inner : Text := " x <=| |=>\n|b|".toList
  let d : Delimiters := ⟨['<'], ['>'], delimiterError?_eq_none_iff.1 rfl,
    delimiterError?_eq_none_iff.1 rfl⟩
  let tag : Section := ⟨⟨⟨[['a']]⟩, false, ⟨4, 18⟩, d, ⟨0, 4⟩⟩, ⟨0, 3⟩⟩
  have hok : ((compile source d).map fun t =>
      decide (.sectionTag tag ∈ t.table.nodes ∧ t.text tag.inner = inner)) = .ok true := by
    decide +kernel
  cases hcompile : compile source d with
  | error e => simp [hcompile, Except.map] at hok
  | ok t =>
    simp only [hcompile, Except.map, Except.ok.injEq, decide_eq_true_eq] at hok
    obtain ⟨htag, hinner⟩ := hok
    obtain ⟨t', ht', houtline, -⟩ := exists_compile_inner hcompile htag
    rw [hinner] at ht' houtline
    exact ⟨d, t, t', tag, Delimiters.make_self d, hcompile, htag, hinner, rfl, ht', houtline⟩

end Template

end Mustache
