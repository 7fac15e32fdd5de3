import Mustache.Proofs.Text.LineEndings
import Mustache.Proofs.Token.Rounds

/-!
# Tokens of a source with other line endings

No delimiter and no sigil is blank, so a scan of a source with other line endings goes the same way:
it finds the same tokens and the same failure, each where its characters have come to stand.
-/

namespace Mustache

/-- A tag of `source` when the line endings of `source` are changed. -/
def RawTag.crlf (source : Text) (raw : RawTag) : RawTag :=
  { raw with content := raw.content.crlf source, span := raw.span.crlf source }

/-- A token of `source` when the line endings of `source` are changed. -/
def Token.crlf (source : Text) : Token → Token
  | .text span => .text (span.crlf source)
  | .tag raw   => .tag (raw.crlf source)

/-- The failure of a scan of `source` when the line endings of `source` are changed. -/
def ScanError.crlf (source : Text) : ScanError → ScanError
  | .unclosedTag span expected     => .unclosedTag (span.crlf source) expected
  | .invalidDelimiters span reason => .invalidDelimiters (span.crlf source) reason

namespace Sigil

lemma isBlank_text (sigil : Sigil) : ∀ c ∈ sigil.text, isBlank c = false := by
  cases sigil <;> simp [text] <;> decide

lemma isBlank_closing (sigil : Sigil) (d : Delimiters) :
    ∀ c ∈ sigil.closing d, isBlank c = false := by
  have hbrace : isBlank '\x7d' = false := by decide
  have hequals : isBlank '=' = false := by decide
  have hclosing := d.isDelimiter_closing.2.1
  cases sigil <;> simp [closing, hbrace, hequals] <;> exact hclosing

/-- Neither character of a line ending is a sigil. -/
lemma ofHead_crlf (t : Text) : ofHead t.crlf = ofHead t := by
  cases t with
  | nil => rfl
  | cons c cs =>
    by_cases hc : c = '\n'
    · subst hc
      rfl
    · rw [Text.crlf_cons_of_ne hc]
      rfl

lemma drop_ofHead_crlf (t : Text) :
    t.crlf.drop (ofHead t).text.length = Text.crlf (t.drop (ofHead t).text.length) := by
  have htext := Text.crlf_of_isBlank_eq_false (ofHead t).isBlank_text
  have hsplit := congrArg Text.crlf (text_ofHead_append t)
  rw [Text.crlf_append, htext] at hsplit
  conv_lhs => rw [← hsplit]
  exact List.drop_left

end Sigil

namespace Delimiters

lemma crlf_opening (d : Delimiters) : Text.crlf d.opening = d.opening :=
  Text.crlf_of_isBlank_eq_false d.isDelimiter_opening.2.1

lemma ofContent_crlf (content : Text) : ofContent content.crlf = ofContent content := by
  rw [ofContent, ofContent, Text.words_crlf]

end Delimiters

namespace Scanner

variable {source : Text} {s : Scanner} {text after inside rest : Text} {sigil : Sigil}

/-- A scanner in `source` when the line endings of `source` are changed. -/
def crlf (source : Text) (s : Scanner) : Scanner :=
  ⟨s.rest.crlf, source.crlfOffset s.offset, s.delimiters⟩

/-- What a scanner in `source` finds when the line endings of `source` are changed. -/
def Step.crlf (source : Text) : Step → Step
  | .finished         => .finished
  | .token found next => .token (found.crlf source) (next.crlf source)
  | .failed error     => .failed (error.crlf source)

lemma crlf_tagText (source : Text) (s : Scanner) (sigil : Sigil) (inside : Text) :
    (s.crlf source).tagText sigil inside.crlf = (s.tagText sigil inside).crlf := by
  have htext := Text.crlf_of_isBlank_eq_false sigil.isBlank_text
  have hclosing := Text.crlf_of_isBlank_eq_false (sigil.isBlank_closing s.delimiters)
  simp only [tagText, crlf, Text.crlf_append, s.delimiters.crlf_opening, htext, hclosing]

section

variable (hs : source.dropBytes? s.offset = some s.rest)
include hs

lemma map_crlf_textToken (hrest : s.rest = text ++ rest) :
    (textToken s.offset text).map (Token.crlf source) =
      textToken (s.crlf source).offset text.crlf := by
  by_cases h : text = []
  · rw [h]
    rfl
  · have hne : text.crlf ≠ [] := fun hnil => h (Text.crlf_eq_nil_iff.1 hnil)
    rw [textToken_of_ne_nil h, textToken_of_ne_nil hne, List.map_singleton, Token.crlf, Span.crlf,
      Text.crlfOffset_add_byteSize hs hrest]
    rfl

lemma skip_crlf (hcut : Text.cut? s.delimiters.opening s.rest = some (text, after)) :
    (s.crlf source).skip text.crlf after.crlf = (s.skip text after).crlf source := by
  have hrest : s.rest = text ++ (s.delimiters.opening ++ after) := by
    rw [Text.eq_of_cut? hcut, List.append_assoc]
  simp only [skip, crlf, Text.crlf_append, s.delimiters.crlf_opening,
    Text.crlfOffset_add_byteSize hs hrest]

variable (hrest : s.rest = s.tagText sigil inside ++ rest)
include hrest

lemma rawTag_crlf (changed : Delimiters) :
    (s.crlf source).rawTag sigil inside.crlf changed =
      (s.rawTag sigil inside changed).crlf source := by
  obtain ⟨trail, hinside, -⟩ := inside.exists_eq_append_trim
  have hopening := s.delimiters.crlf_opening
  have htext := Text.crlf_of_isBlank_eq_false sigil.isBlank_text
  -- the tag is its opening, the blanks in front of the content, the content, and what follows
  have hparts : s.rest = (s.delimiters.opening ++ sigil.text) ++ (inside.takeWhile isBlank ++
      (inside.trim ++ (trail ++ sigil.closing s.delimiters ++ rest))) := by
    conv_lhs => rw [hrest, tagText, hinside]
    simp only [List.append_assoc]
  have hdrop := Text.dropBytes?_add_byteSize hs hparts
  have hstart := Text.crlfOffset_add_byteSize hs hparts
  have hlead := Text.crlfOffset_add_byteSize hdrop rfl
  have hcontent := Text.crlfOffset_add_byteSize (Text.dropBytes?_add_byteSize hdrop rfl) rfl
  rw [hstart] at hlead
  rw [hlead] at hcontent
  have hstop := Text.crlfOffset_add_byteSize hs hrest
  rw [← crlf_tagText source] at hstop
  simp only [rawTag, RawTag.crlf, Span.crlf, hstop, hlead, hcontent, Text.takeWhile_isBlank_crlf,
    Text.trim_crlf, Text.crlf_append, hopening, htext]
  rfl

lemma afterTag_crlf (changed : Delimiters) :
    (s.crlf source).afterTag sigil inside.crlf rest.crlf changed =
      (s.afterTag sigil inside rest changed).crlf source := by
  have hstop := Text.crlfOffset_add_byteSize hs hrest
  rw [← crlf_tagText source] at hstop
  simp only [afterTag, crlf, hstop]

end

/-- A tag is read in the same way. -/
lemma readTag_crlf (hs : source.dropBytes? s.offset = some s.rest)
    (hrest : s.rest = s.delimiters.opening ++ after) :
    (s.crlf source).readTag after.crlf = (s.readTag after).crlf source := by
  have hsigil := Sigil.ofHead_crlf after
  have hfound := Text.cut?_crlf ((Sigil.ofHead after).isBlank_closing s.delimiters)
    ((Sigil.ofHead after).closing_ne_nil s.delimiters)
    (after.drop (Sigil.ofHead after).text.length)
  rw [← Sigil.drop_ofHead_crlf] at hfound
  cases hcut : Text.cut? ((Sigil.ofHead after).closing s.delimiters)
      (after.drop (Sigil.ofHead after).text.length) with
  | none =>
    rw [hcut, ← hsigil] at hfound
    have hend := Text.crlfOffset_add_byteSize hs (List.append_nil s.rest).symm
    have hcut' : Text.cut? ((Sigil.ofHead after.crlf).closing (s.crlf source).delimiters)
      (after.crlf.drop (Sigil.ofHead after.crlf).text.length) = none := hfound
    simp only [readTag, hcut, hcut', Step.crlf, ScanError.crlf, Span.crlf, hend]
    rw [hsigil]
    rfl
  | some found =>
    obtain ⟨inside, rest⟩ := found
    rw [hcut, ← hsigil] at hfound
    have hcut' : Text.cut? ((Sigil.ofHead after.crlf).closing (s.crlf source).delimiters)
      (after.crlf.drop (Sigil.ofHead after.crlf).text.length) =
        some (inside.crlf, rest.crlf) := hfound
    have htag := (spellsTag_of_cut? hrest hcut).rest_eq
    have hstop := Text.crlfOffset_add_byteSize hs htag
    rw [← crlf_tagText source] at hstop
    rw [readTag_eq hcut, readTag_eq hcut', hsigil, Text.trim_crlf, Delimiters.ofContent_crlf]
    simp only [rawTag_crlf hs htag, afterTag_crlf hs htag]
    split
    · cases Delimiters.ofContent inside.trim with
      | error reason =>
        simp only [Step.crlf, ScanError.crlf, Span.crlf, hstop]
        rfl
      | ok changed => rfl
    · rfl

/-- A scan finds the same, wherever it starts. -/
theorem run_crlf (s : Scanner) (hs : source.dropBytes? s.offset = some s.rest) :
    (s.crlf source).run = ⟨s.run.tokens.map (Token.crlf source),
      s.run.failure.map (ScanError.crlf source), s.run.delimiters⟩ := by
  have hfound := Text.cut?_crlf s.delimiters.isDelimiter_opening.2.1 s.delimiters.opening_ne_nil
    s.rest
  cases hcut : Text.cut? s.delimiters.opening s.rest with
  | none =>
    rw [hcut] at hfound
    rw [run_of_cut?_none hcut, run_of_cut?_none hfound,
      map_crlf_textToken hs (List.append_nil s.rest).symm]
    rfl
  | some parts =>
    obtain ⟨text, after⟩ := parts
    rw [hcut] at hfound
    have hrest : s.rest = text ++ (s.skip text after).rest := by
      rw [Text.eq_of_cut? hcut, List.append_assoc]
      rfl
    have hskip : source.dropBytes? (s.skip text after).offset = some (s.skip text after).rest :=
      Text.dropBytes?_add_byteSize hs hrest
    have hstep : ((s.skip text after).crlf source).step =
        ((s.skip text after).readTag after).crlf source := by
      rw [← readTag_crlf hskip rfl, ← skip_crlf hs hcut, step_skip]
    rw [run_of_cut?_some hcut, run_of_cut?_some hfound, skip_crlf hs hcut,
      ← map_crlf_textToken hs hrest]
    cases htag : (s.skip text after).readTag after with
    | finished => exact absurd htag (readTag_ne_finished _ _)
    | failed error =>
      rw [htag] at hstep
      rw [run_of_step_failed (step_skip.trans htag), run_of_step_failed hstep, List.append_nil,
        List.append_nil]
      rfl
    | token token next =>
      rw [htag] at hstep
      obtain ⟨sigil, inside, rest, changed, hreads, rfl, rfl⟩ :=
        exists_readsTag_of_readTag rfl htag
      have hnext := run_crlf ((s.skip text after).afterTag sigil inside rest changed)
        (Text.dropBytes?_add_byteSize hskip hreads.rest_eq)
      rw [run_of_step_token (step_skip.trans htag), run_of_step_token hstep, hnext,
        List.map_append, List.map_cons]
termination_by s.rest.length
decreasing_by
  have hlt := hreads.length_rest_lt
  have hle := length_rest_skip_le hcut
  simp only [afterTag]
  omega

end Scanner

/-- A source with other line endings has the same tokens and the same failure. -/
theorem scan_crlf (source : Text) (d : Delimiters) :
    scan source.crlf d = ⟨(scan source d).tokens.map (Token.crlf source),
      (scan source d).failure.map (ScanError.crlf source), (scan source d).delimiters⟩ := by
  have hstart : (Scanner.start source d).crlf source = .start source.crlf d := by
    rw [Scanner.crlf, Scanner.start, Text.crlfOffset_zero]
    rfl
  rw [scan, ← hstart]
  exact Scanner.run_crlf _ (Text.dropBytes?_zero source)

end Mustache
