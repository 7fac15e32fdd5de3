import Mustache.Proofs.Tag.Standalone
import Mustache.Proofs.Template.Fragments
import Mustache.Proofs.Token.Lossless

/-!
# Trimming

What a tag that stands alone takes out lies in the text around it: the rest of its line belongs to
the text behind the tag and the indentation to the text in front, and the two never meet. So the
fragments come from the tokens one for one, each text trimmed on both sides by layout characters.
-/

namespace Mustache

/-! ### The region of a tag -/

namespace RawTag

variable {raw : RawTag} {source before body after : Text}

/-- A tag that lies in the source stands alone on the line that is found, or takes out itself. -/
lemma line?_cases (hsource : source = before ++ body ++ after)
    (hstart : raw.span.start = before.byteSize)
    (hstop : raw.span.stop = (before ++ body).byteSize) :
    (raw.sigil.canStandAlone ∧ ∃ l : LineAround source raw.span,
      raw.line? source = some ⟨⟨l.before.byteSize, raw.span.start⟩, l.region.stop⟩) ∨
    (raw.line? source = none ∧
      (raw.sigil.canStandAlone → IsEmpty (LineAround source raw.span))) := by
  rw [line?]
  by_cases hsigil : raw.sigil.canStandAlone
  · rw [if_pos hsigil]
    cases hline : standaloneLine? source raw.span with
    | none =>
      refine .inr ⟨rfl, fun _ => ⟨?_⟩⟩
      intro l
      simp [l.standaloneLine?_eq] at hline
    | some line =>
      obtain ⟨l⟩ := nonempty_lineAround_of_standaloneLine? hsource hstart hstop hline
      exact .inl ⟨hsigil, l, hline.symm.trans l.standaloneLine?_eq⟩
  · rw [if_neg hsigil]
    exact .inr ⟨rfl, fun h => absurd h hsigil⟩

lemma region_of_line? {l : LineAround source raw.span}
    (h : raw.line? source = some ⟨⟨l.before.byteSize, raw.span.start⟩, l.region.stop⟩) :
    raw.region source = l.region := by
  rw [region, h]
  rfl

lemma region_of_line?_eq_none (h : raw.line? source = none) : raw.region source = raw.span := by
  rw [region, h]

end RawTag

/-! ### Between two tags -/

/-- The scanner stands behind a tag, or at the start of the source. Of the unread text, `tail` went
with that tag: layout up to the end of a line. -/
structure Between (source : Text) (s : Scanner) (skip : Nat) (read tail more : Text) : Prop where
  eq_source : source = read ++ s.rest
  offset_eq : s.offset = read.byteSize
  getLast?_read : ∀ c ∈ read.getLast?, isBlank c = false
  rest_eq : s.rest = tail ++ more
  isLayout_tail : ∀ c ∈ tail, isLayout c
  endsLine_tail : tail = [] ∨ more = [] ∨ ∃ t, tail = t ++ ['\n']
  max_skip : max s.offset skip = s.offset + tail.byteSize

namespace Between

variable {source read tail more text after : Text} {s : Scanner} {k : Nat}

lemma start (source : Text) (d : Delimiters) :
    Between source (.start source d) 0 [] [] source where
  eq_source := rfl
  offset_eq := rfl
  getLast?_read := by simp
  rest_eq := rfl
  isLayout_tail := by simp
  endsLine_tail := .inl rfl
  max_skip := rfl

/-- What went with a tag lies in front of the next one, for no delimiter starts with a blank. -/
lemma exists_eq_append_tail (h : Between source s k read tail more)
    (hcut : Text.cut? s.delimiters.opening s.rest = some (text, after)) :
    ∃ kept, text = tail ++ kept ∧ more = kept ++ (s.delimiters.opening ++ after) := by
  have hrest : text ++ (s.delimiters.opening ++ after) = tail ++ more := by
    rw [← h.rest_eq, Text.eq_of_cut? hcut, List.append_assoc]
  rcases List.append_eq_append_iff.1 hrest with ⟨extra, htail, hopening⟩ | ⟨kept, htext, hmore⟩
  · cases extra with
    | nil => exact ⟨[], by simpa using htail.symm, by simpa using hopening.symm⟩
    | cons c extra =>
      obtain ⟨o, opening, hd⟩ := List.exists_cons_of_ne_nil s.delimiters.opening_ne_nil
      have hblank := isBlank_of_isLayout (h.isLayout_tail c (by simp [htail]))
      have hnot := s.delimiters.isDelimiter_opening.2.1 o (by simp [hd])
      rw [hd] at hopening
      obtain rfl : o = c := (List.cons.inj hopening).1
      simp [hblank] at hnot
  · exact ⟨kept, htext, hmore⟩

/-- The indentation of a tag lies behind what went with the tag in front. -/
lemma exists_eq_append_indent {kept : Text} {tag : Span} (h : Between source s k read tail more)
    (hmore : more ≠ []) (hstart : tag.start = (read ++ tail ++ kept).byteSize)
    (hkept : more = kept ++ after) (l : LineAround source tag) :
    ∃ front, kept = front ++ l.indent ∧ l.before = read ++ tail ++ front := by
  have heq : l.before ++ l.indent = read ++ tail ++ kept := by
    have htake : source.takeBytes? tag.start = some (read ++ tail ++ kept) :=
      Text.takeBytes?_of_eq (b := after)
        (by simp only [h.eq_source, h.rest_eq, hkept, List.append_assoc]) hstart
    exact Option.some.inj (l.takeBytes?_eq.symm.trans htake)
  have hindent := isIndentation_iff.1 l.isIndentation_indent
  rcases List.append_eq_append_iff.1 heq with ⟨extra, hread, hextra⟩ | ⟨front, hbefore, hfront⟩
  · -- an indentation that reached further would end in a character that is no space or tab
    rcases List.eq_nil_or_concat extra with rfl | ⟨init, c, rfl⟩
    · exact ⟨[], by simpa using hextra.symm, by simpa using hread.symm⟩
    · exfalso
      rw [List.concat_eq_append] at hread hextra
      have hc : c = ' ' ∨ c = '\t' := hindent c (by simp [hextra])
      rcases h.endsLine_tail with rfl | hnil | ⟨t, rfl⟩
      · have hlast := h.getLast?_read c (by simp_all)
        rcases hc with rfl | rfl <;> simp [isBlank, inRanges, blankRanges] at hlast
      · exact hmore hnil
      · have hlast := congrArg List.getLast? hread
        simp only [← List.append_assoc, List.getLast?_concat, Option.some.injEq] at hlast
        rcases hc with rfl | rfl <;> simp at hlast
  · exact ⟨front, hfront, hbefore⟩

/-- Behind a tag that has been read, of which `tail` is what goes with it. -/
lemma afterTag {sigil : Sigil} {inside rest tail' more' : Text} {changed : Delimiters} {n : Nat}
    (h : Between source s k read tail more)
    (hcut : Text.cut? s.delimiters.opening s.rest = some (text, after))
    (htag : (s.skip text after).ReadsTag sigil inside rest changed)
    (hrest : rest = tail' ++ more') (hlayout : ∀ c ∈ tail', isLayout c)
    (hends : tail' = [] ∨ more' = [] ∨ ∃ t, tail' = t ++ ['\n'])
    (hskip : max ((s.skip text after).afterTag sigil inside rest changed).offset n =
      ((s.skip text after).afterTag sigil inside rest changed).offset + tail'.byteSize) :
    Between source ((s.skip text after).afterTag sigil inside rest changed) n
      (read ++ text ++ (s.skip text after).tagText sigil inside) tail' more' where
  eq_source := by
    rw [h.eq_source, htag.eq_append hcut]
    simp [Scanner.afterTag]
  offset_eq := by
    simp only [Scanner.afterTag, Scanner.skip, h.offset_eq, Text.byteSize_append]
  getLast?_read := by
    intro c hc
    obtain ⟨t, last, hclosing, hlast⟩ := sigil.exists_closing_eq_append s.delimiters
    have hd : (s.skip text after).delimiters = s.delimiters := rfl
    rw [Scanner.tagText, hd, hclosing] at hc
    simp only [← List.append_assoc, List.getLast?_concat, Option.mem_def,
      Option.some.injEq] at hc
    exact hc ▸ hlast
  rest_eq := hrest
  isLayout_tail := hlayout
  endsLine_tail := hends
  max_skip := hskip

/-- A round: of the text in front of the tag, `tail` went with the tag before, `kept` stays and
`indent` goes with this tag; of what follows, `tail'` goes with it. -/
lemma exists_round {sigil : Sigil} {inside rest : Text} {changed : Delimiters} {raw : RawTag}
    (h : Between source s k read tail more)
    (hcut : Text.cut? s.delimiters.opening s.rest = some (text, after))
    (htag : (s.skip text after).ReadsTag sigil inside rest changed)
    (hraw : raw = (s.skip text after).rawTag sigil inside changed) :
    ∃ kept indent tail' more' : Text, text = tail ++ kept ++ indent ∧ isIndentation indent ∧
      more = kept ++ (indent ++ (s.skip text after).tagText sigil inside ++ tail') ++ more' ∧
      (raw.region source).start = (read ++ tail ++ kept).byteSize ∧
      (raw.region source).stop =
        (read ++ text ++ (s.skip text after).tagText sigil inside ++ tail').byteSize ∧
      Between source ((s.skip text after).afterTag sigil inside rest changed)
        (((raw.line? source).map (·.stop)).getD k)
        (read ++ text ++ (s.skip text after).tagText sigil inside) tail' more' := by
  subst hraw
  obtain ⟨kept, rfl, rfl⟩ := h.exists_eq_append_tail hcut
  let body := (s.skip (tail ++ kept) after).tagText sigil inside
  let raw := (s.skip (tail ++ kept) after).rawTag sigil inside changed
  have hafter : s.delimiters.opening ++ after = body ++ rest := htag.rest_eq
  have hsource : source = read ++ (tail ++ kept) ++ body ++ rest := by
    rw [h.eq_source, h.rest_eq, hafter]
    simp only [List.append_assoc]
  have hstart : raw.span.start = (read ++ (tail ++ kept)).byteSize := by
    rw [Text.byteSize_append, ← h.offset_eq]
    rfl
  have hstop : raw.span.stop = (read ++ (tail ++ kept) ++ body).byteSize := by
    rw [Text.byteSize_append, ← hstart]
    rfl
  rcases RawTag.line?_cases hsource hstart hstop with ⟨-, l, hline⟩ | ⟨hline, -⟩
  · have hne : kept ++ (s.delimiters.opening ++ after) ≠ [] := by
      simp [s.delimiters.opening_ne_nil]
    rw [← List.append_assoc] at hstart
    obtain ⟨front, hkept, hbefore⟩ := h.exists_eq_append_indent hne hstart rfl l
    have hrest : rest = l.trail ++ l.ending ++ l.after :=
      Option.some.inj ((Text.dropBytes?_of_eq hsource hstop).symm.trans l.dropBytes?_eq)
    have hskip : max raw.span.stop l.region.stop =
        raw.span.stop + (l.trail ++ l.ending).byteSize := by
      rw [l.stop_region, Nat.max_eq_right (Nat.le_add_right _ _)]
    refine ⟨front, l.indent, l.trail ++ l.ending, l.after, ?_, l.isIndentation_indent, ?_, ?_,
      ?_, ?_⟩
    · rw [hkept, List.append_assoc]
    · show kept ++ _ = front ++ (l.indent ++ body ++ (l.trail ++ l.ending)) ++ l.after
      rw [hafter, hrest, hkept]
      simp only [List.append_assoc]
    · rw [RawTag.region_of_line? hline, ← hbefore]
      rfl
    · rw [RawTag.region_of_line? hline, l.stop_region, hstop, ← Text.byteSize_append]
    · rw [hline]
      exact h.afterTag hcut htag hrest l.isLayout_of_mem l.endsLine hskip
  · have hskip : max raw.span.stop k = raw.span.stop + Text.byteSize [] := by
      have hbefore := h.max_skip
      rw [h.offset_eq] at hbefore
      simp only [hstop, Text.byteSize_append, Text.byteSize_nil] at hbefore ⊢
      omega
    refine ⟨kept, [], [], rest, ?_, rfl, ?_, ?_, ?_, ?_⟩
    · rw [List.append_nil]
    · rw [hafter]
      simp [body]
    · rw [RawTag.region_of_line?_eq_none hline, hstart, List.append_assoc]
    · rw [RawTag.region_of_line?_eq_none hline, hstop, List.append_nil]
    · rw [hline]
      exact h.afterTag hcut htag (List.nil_append rest).symm (by simp) (.inl rfl) hskip

end Between

/-! ### What stays of a text -/

/-- The characters of a text that are not layout. -/
def Text.ink (t : Text) : Text := t.filter (!isLayout ·)

@[simp] lemma Text.ink_nil : ink [] = [] := rfl

@[simp] lemma Text.ink_append (s t : Text) : (s ++ t).ink = s.ink ++ t.ink := List.filter_append ..

lemma Text.ink_eq_nil {t : Text} (h : ∀ c ∈ t, isLayout c) : t.ink = [] :=
  List.filter_eq_nil_iff.2 fun c hc => by simp [h c hc]

/-- Fragments that come from tokens one for one. Of a text only layout goes, though it may be all of
it; a tag comes with an indentation. -/
inductive Trimmed (source : Text) : List Token → List Fragment → Prop
  | nil : Trimmed source [] []
  | gone {span : Span} {tokens : List Token} {fs : List Fragment}
      (hink : (span.slice source).ink = []) (h : Trimmed source tokens fs) :
      Trimmed source (.text span :: tokens) fs
  | text {span kept : Span} {tokens : List Token} {fs : List Fragment} (hlies : kept.LiesIn source)
      (hne : kept.start < kept.stop) (hstart : span.start ≤ kept.start)
      (hstop : kept.stop ≤ span.stop) (hink : (kept.slice source).ink = (span.slice source).ink)
      (h : Trimmed source tokens fs) : Trimmed source (.text span :: tokens) (.text kept :: fs)
  | tag {tokens : List Token} {fs : List Fragment} (raw : RawTag) (indent : Text)
      (h : Trimmed source tokens fs) :
      Trimmed source (.tag raw :: tokens) (.tag raw indent :: fs)

/-- A text that is trimmed by `tail` in front and `indent` behind. -/
lemma Trimmed.textToken {source read tail kept indent rest : Text} {start stop offset : Nat}
    {tokens : List Token} {fs : List Fragment}
    (hsource : source = read ++ (tail ++ kept ++ indent) ++ rest)
    (hoffset : offset = read.byteSize) (hstart : start = (read ++ tail).byteSize)
    (hstop : stop = (read ++ tail ++ kept).byteSize) (htail : tail.ink = [])
    (hindent : indent.ink = []) (h : Trimmed source tokens fs) :
    Trimmed source (textToken offset (tail ++ kept ++ indent) ++ tokens)
      (textFragment start stop ++ fs) := by
  have hslice : (⟨offset, offset + (tail ++ kept ++ indent).byteSize⟩ : Span).slice source =
      tail ++ kept ++ indent := Span.slice_of_eq hsource hoffset (by rw [hoffset])
  by_cases hkept : kept = []
  · have hfragment : textFragment start stop = [] := if_neg (by simp [hstart, hstop, hkept])
    rw [hfragment]
    by_cases htext : tail ++ kept ++ indent = []
    · rw [htext]
      exact h
    · rw [textToken_of_ne_nil htext]
      refine .gone ?_ h
      rw [hslice, hkept]
      simp [htail, hindent]
  · have hpos := Text.byteSize_pos hkept
    have hsplit : source = read ++ tail ++ kept ++ (indent ++ rest) := by
      rw [hsource]
      simp only [List.append_assoc]
    have hstop' : stop = start + kept.byteSize := by rw [hstop, hstart, Text.byteSize_append]
    have hfragment : textFragment start stop = [.text ⟨start, stop⟩] := if_pos (by omega)
    rw [hfragment, textToken_of_ne_nil (by simp [hkept])]
    refine .text (Span.liesIn_of_eq hsplit hstart hstop') ?_ ?_ ?_ ?_ h
    · simp only
      omega
    · simp only [hoffset, hstart, Text.byteSize_append]
      omega
    · simp only [hoffset, hstop, Text.byteSize_append]
      omega
    · rw [hslice, Span.slice_of_eq hsplit hstart (hstop'.trans (by rw [hstart]))]
      simp [htail, hindent]

/-- The last text of a scan. -/
lemma Between.trimmed_textToken {source read tail kept more text rest : Text} {s : Scanner}
    {k : Nat} (h : Between source s k read tail more) (hrest : s.rest = text ++ rest)
    (htext : text = tail ++ kept) :
    Trimmed source (textToken s.offset text) (fragments source k (textToken s.offset text)) := by
  have hsource : source = read ++ (tail ++ kept ++ []) ++ rest := by
    rw [h.eq_source, hrest, htext]
    simp only [List.append_nil, List.append_assoc]
  have hstart : max s.offset k = (read ++ tail).byteSize := by
    rw [h.max_skip, h.offset_eq, Text.byteSize_append]
  have hstop : s.offset + text.byteSize = (read ++ tail ++ kept).byteSize := by
    rw [h.offset_eq, htext, ← Text.byteSize_append, List.append_assoc]
  have htrimmed := Trimmed.textToken hsource h.offset_eq hstart hstop
    (Text.ink_eq_nil h.isLayout_tail) rfl .nil
  rw [fragments_textToken]
  simpa [htext] using htrimmed

/-- The fragments of what a scan finds are its tokens, trimmed. -/
theorem trimmed_of_rounds {source read tail more : Text} {s : Scanner} {k : Nat}
    {tokens : List Token} {failure : Option ScanError} {d : Delimiters}
    (h : s.Rounds tokens failure d) (hbetween : Between source s k read tail more) :
    Trimmed source tokens (fragments source k tokens) := by
  induction h generalizing k read tail more with
  | last s hcut =>
    exact hbetween.trimmed_textToken (List.append_nil s.rest).symm hbetween.rest_eq
  | failed s text after error hcut hread =>
    obtain ⟨kept, htext, -⟩ := hbetween.exists_eq_append_tail hcut
    have hrest : s.rest = text ++ (s.delimiters.opening ++ after) := by
      rw [Text.eq_of_cut? hcut, List.append_assoc]
    exact hbetween.trimmed_textToken hrest htext
  | @round s text after sigil inside rest changed d tokens failure hcut htag later ih =>
    obtain ⟨kept, indent, tail', more', rfl, hindent, -, hstart, -, hnext⟩ :=
      hbetween.exists_round hcut htag rfl
    have hsource : source =
        read ++ (tail ++ kept ++ indent) ++ (s.delimiters.opening ++ after) := by
      rw [hbetween.eq_source, Text.eq_of_cut? hcut]
      simp only [List.append_assoc]
    have hskip : max s.offset k = (read ++ tail).byteSize := by
      rw [hbetween.max_skip, hbetween.offset_eq, Text.byteSize_append]
    rw [fragments_round rfl]
    refine .textToken hsource hbetween.offset_eq hskip hstart
      (Text.ink_eq_nil hbetween.isLayout_tail)
      (Text.ink_eq_nil (isLayout_of_isIndentation hindent)) ?_
    exact .tag _ _ (ih hnext)

/-- The fragments of a source are its tokens, trimmed. -/
lemma trimmed_scan (source : Text) (d : Delimiters) :
    Trimmed source (scan source d).tokens (fragments source 0 (scan source d).tokens) :=
  trimmed_of_rounds (Scanner.rounds_run (.start source d)) (.start source d)

end Mustache
