import Mathlib.Data.List.Forall2
import Mustache.Proofs.Template.Leaves
import Mustache.Proofs.Template.Trimming

/-!
# Literal text is conserved

Each tag takes a region out of the source: itself, or the whole of its lines if it stands alone.
What is left of the source is the literal text of the template. The regions do not overlap: what
goes with a tag behind it lies in the text up to the next tag, and what goes in front of a tag lies
in what is left of that text.
-/

namespace Mustache

/-! ### Regions -/

/-- The region that a tag takes out of the source: its lines, if it can stand alone and does, or
else the tag itself. -/
inductive Removes (source : Text) (raw : RawTag) : Span → Prop
  | line (hsigil : raw.sigil.canStandAlone) (l : LineAround source raw.span) :
      Removes source raw l.region
  | tag (h : raw.sigil.canStandAlone → IsEmpty (LineAround source raw.span)) :
      Removes source raw raw.span

/-- The part of a region outside its tag consists of spaces, tabs and at most one line ending; a
carriage return alone ends a line only at the end of the source. -/
structure BlankOutside (source : Text) (tag region : Span) : Prop where
  start_le : region.start ≤ tag.start
  le_stop : tag.stop ≤ region.stop
  front : isIndentation (source.slice region.start tag.start)
  back : ∃ trail ending, source.slice tag.stop region.stop = trail ++ ending ∧
    isIndentation trail ∧ (ending = [] ∨ ending = ['\n'] ∨ ending = ['\r', '\n'] ∨
      ending = ['\r'] ∧ region.stop = source.byteSize)

/-- A text without the characters that lie in a region, when it starts at an offset. -/
def keep (regions : List Span) (offset : Nat) : Text → Text
  | []      => []
  | c :: cs =>
    if ∃ r ∈ regions, r.start ≤ offset ∧ offset < r.stop then
      keep regions (offset + c.utf8Size) cs
    else c :: keep regions (offset + c.utf8Size) cs

section
variable {regions : List Span} {region : Span} {offset : Nat}

lemma keep_append (regions : List Span) (offset : Nat) (s t : Text) :
    keep regions offset (s ++ t) =
      keep regions offset s ++ keep regions (offset + s.byteSize) t := by
  induction s generalizing offset with
  | nil => rfl
  | cons c s ih =>
    rw [List.cons_append, keep, keep, ih, Text.byteSize_cons, Nat.add_assoc]
    split <;> rfl

lemma keep_of_le_start {t : Text} (h : ∀ r ∈ regions, offset + t.byteSize ≤ r.start) :
    keep regions offset t = t := by
  induction t generalizing offset with
  | nil => rfl
  | cons c t ih =>
    have hpos := c.utf8Size_pos
    rw [keep, if_neg, ih]
    · intro r hr
      have := h r hr
      rw [Text.byteSize_cons] at this
      omega
    · rintro ⟨r, hr, hstart, -⟩
      have := h r hr
      rw [Text.byteSize_cons] at this
      omega

lemma keep_of_mem {t : Text} (hmem : region ∈ regions) (hstart : region.start ≤ offset)
    (hstop : offset + t.byteSize ≤ region.stop) : keep regions offset t = [] := by
  induction t generalizing offset with
  | nil => rfl
  | cons c t ih =>
    have hpos := c.utf8Size_pos
    rw [Text.byteSize_cons] at hstop
    rw [keep, if_pos ⟨region, hmem, hstart, by omega⟩]
    exact ih (by omega) (by omega)

lemma keep_cons_of_stop_le {t : Text} (h : region.stop ≤ offset) :
    keep (region :: regions) offset t = keep regions offset t := by
  induction t generalizing offset with
  | nil => rfl
  | cons c t ih =>
    have hiff : (∃ r ∈ region :: regions, r.start ≤ offset ∧ offset < r.stop) ↔
        ∃ r ∈ regions, r.start ≤ offset ∧ offset < r.stop := by
      simp only [List.mem_cons, exists_eq_or_imp, or_iff_right_iff_imp]
      omega
    rw [keep, keep, ih (by omega)]
    simp only [hiff]

/-- A region takes out just what lies in it, when the others come later. -/
lemma keep_cons_of_eq {a b c : Text} (hstart : region.start = offset + a.byteSize)
    (hstop : region.stop = region.start + b.byteSize) (h : ∀ r ∈ regions, region.stop ≤ r.start) :
    keep (region :: regions) offset (a ++ b ++ c) = a ++ keep regions region.stop c := by
  have hfront : keep (region :: regions) offset a = a := by
    apply keep_of_le_start
    intro r hr
    rcases List.mem_cons.1 hr with rfl | hr
    · omega
    · have := h r hr
      omega
  have hgone : keep (region :: regions) (offset + a.byteSize) b = [] :=
    keep_of_mem List.mem_cons_self (by omega) (by omega)
  have hoffset : offset + (a ++ b).byteSize = region.stop := by
    rw [Text.byteSize_append]
    omega
  rw [keep_append, keep_append, hfront, hgone, List.append_nil, hoffset,
    keep_cons_of_stop_le (Nat.le_refl _)]

end

/-! ### Carving -/

/-- The spans of text of a fragment. -/
def Fragment.texts : Fragment → List Span
  | .text span => [span]
  | .tag _ _   => []

lemma Fragment.flatMap_texts_leaves (source : Text) (fragment : Fragment) :
    (fragment.leaves source).flatMap Tree.texts = fragment.texts := by
  cases fragment with
  | text span => simp [leaves, texts, Tree.texts]
  | tag raw indent =>
    simp only [leaves, texts]
    split <;> simp [Tree.texts]

/-- The regions of the tags lie in order behind an offset, and the text of the fragments is what
they leave of a text that starts there. -/
structure Carved (source : Text) (tokens : List Token) (skip offset : Nat) (unread : Text) :
    Prop where
  le_start : ∀ raw ∈ tagsOf tokens, offset ≤ (raw.region source).start
  pairwise : (tagsOf tokens).Pairwise fun raw later =>
    (raw.region source).stop ≤ (later.region source).start
  texts_eq : ((fragments source skip tokens).flatMap Fragment.texts).flatMap (·.slice source) =
    keep ((tagsOf tokens).map (·.region source)) offset unread

section
variable {source : Text}

lemma flatMap_slice_textFragment {a b c : Text} {start stop : Nat} (hsource : source = a ++ b ++ c)
    (hstart : start = a.byteSize) (hstop : stop = a.byteSize + b.byteSize) :
    ((textFragment start stop).flatMap Fragment.texts).flatMap (·.slice source) = b := by
  rw [textFragment]
  split
  · rw [List.flatMap_singleton, Fragment.texts, List.flatMap_singleton]
    exact Span.slice_of_eq hsource hstart hstop
  · have hb : b = [] := Text.byteSize_eq_zero_iff.1 (by omega)
    rw [hb]
    rfl

/-- One round: text that stays, and a region that goes. -/
lemma Carved.round {a b c unread : Text} {start k : Nat} {text : Text} {raw : RawTag}
    {tokens : List Token} (hsource : source = a ++ b ++ c)
    (hraw : raw.span.start = start + text.byteSize) (hstart : max start k = a.byteSize)
    (hregion : (raw.region source).start = a.byteSize + b.byteSize)
    {gone : Text} (hgone : (raw.region source).stop = (raw.region source).start + gone.byteSize)
    (hlater : Carved source tokens (((raw.line? source).map (·.stop)).getD k)
      (raw.region source).stop unread) :
    Carved source (textToken start text ++ .tag raw :: tokens) k a.byteSize
      (b ++ gone ++ unread) where
  le_start := by
    intro later hlater'
    rw [tagsOf_textToken] at hlater'
    rcases List.mem_cons.1 hlater' with rfl | hmem
    · omega
    · have := hlater.le_start later hmem
      omega
  pairwise := by
    rw [tagsOf_textToken]
    exact List.pairwise_cons.2 ⟨hlater.le_start, hlater.pairwise⟩
  texts_eq := by
    rw [tagsOf_textToken, fragments_round hraw, hstart, List.flatMap_append, List.flatMap_append,
      flatMap_slice_textFragment hsource rfl hregion, List.flatMap_cons, Fragment.texts,
      List.nil_append, hlater.texts_eq]
    refine (keep_cons_of_eq hregion hgone ?_).symm
    intro r hr
    obtain ⟨later, hmem, rfl⟩ := List.mem_map.1 hr
    exact hlater.le_start later hmem

end

/-- The tokens of a scan that ends well are carved. -/
lemma carved_of_rounds {source read tail more : Text} {s : Scanner} {k : Nat}
    {tokens : List Token} {failure : Option ScanError} {d : Delimiters}
    (h : s.Rounds tokens failure d) (hfailure : failure = none)
    (hbetween : Between source s k read tail more) :
    Carved source tokens k (read ++ tail).byteSize more := by
  induction h generalizing k read tail more with
  | last s hcut =>
    have htags : tagsOf (textToken s.offset s.rest) = [] := by
      rw [← List.append_nil (textToken s.offset s.rest), tagsOf_textToken]
      rfl
    refine ⟨by simp [htags], by simp [htags], ?_⟩
    rw [htags, fragments_textToken, List.map_nil, keep_of_le_start (by simp)]
    apply flatMap_slice_textFragment (a := read ++ tail) (c := [])
    · simp [hbetween.eq_source, hbetween.rest_eq]
    · rw [hbetween.max_skip, hbetween.offset_eq, Text.byteSize_append]
    · rw [hbetween.offset_eq, hbetween.rest_eq, Text.byteSize_append, Text.byteSize_append,
        Nat.add_assoc]
  | failed s text after error hcut hread => simp at hfailure
  | @round s text after sigil inside rest changed d tokens failure hcut htag later ih =>
    obtain ⟨kept, indent, tail', more', rfl, -, rfl, hstart, hstop, hnext⟩ :=
      hbetween.exists_round hcut htag rfl
    let body := (s.skip (tail ++ kept ++ indent) after).tagText sigil inside
    have hsource : source = (read ++ tail) ++ kept ++ (indent ++ body ++ tail' ++ more') := by
      rw [hbetween.eq_source, hbetween.rest_eq]
      simp only [body, List.append_assoc]
    have hskip : max s.offset k = (read ++ tail).byteSize := by
      rw [hbetween.max_skip, hbetween.offset_eq, Text.byteSize_append]
    have hlater := ih hfailure hnext
    rw [← hstop] at hlater
    refine Carved.round hsource rfl hskip ?_ ?_ hlater
    · rw [hstart, Text.byteSize_append]
    · rw [hstop, hstart]
      simp only [Text.byteSize_append, Nat.add_assoc]

/-! ### Templates -/

lemma LineAround.blankOutside {source : Text} {tag : Span} (l : LineAround source tag) :
    BlankOutside source tag l.region := by
  have hindent : source.slice l.region.start tag.start = l.indent := by
    refine Text.slice_of_eq (c := l.body ++ l.trail ++ l.ending ++ l.after) ?_ rfl ?_
    · simp only [l.eq_source, List.append_assoc]
    · rw [← Text.byteSize_append]
      exact l.start_tag
  have hback : source.slice tag.stop l.region.stop = l.trail ++ l.ending := by
    refine Text.slice_of_eq (c := l.after) ?_ l.stop_tag ?_
    · simp only [l.eq_source, List.append_assoc]
    · simp only [LineAround.region, Text.byteSize_append, Nat.add_assoc]
  constructor
  · simp only [LineAround.region, l.start_tag, Text.byteSize_append]
    omega
  · simp only [LineAround.region, l.stop_tag, Text.byteSize_append]
    omega
  · rw [hindent]
    exact l.isIndentation_indent
  · refine ⟨l.trail, l.ending, hback, l.isIndentation_trail, ?_⟩
    have hsize := congrArg Text.byteSize l.eq_source
    have hending := l.lineEnding
    revert hsize hending
    rw [LineAround.region]
    generalize l.ending = ending, l.after = after
    rintro hsize (_ | _ | _ | _)
    · simp
    · simp
    · simp
    · simp [hsize]

lemma blankOutside_self {source : Text} (tag : Span) : BlankOutside source tag tag := by
  have hslice : ∀ n, source.slice n n = [] := by
    intro n
    rw [Text.slice]
    cases source.dropBytes? n <;> simp
  refine ⟨Nat.le_refl _, Nat.le_refl _, ?_, [], [], ?_, rfl, .inl rfl⟩
  · rw [hslice]
    rfl
  · rw [hslice]
    rfl

/-- Every tag of a scan takes out its region, which is blank outside the tag. -/
lemma RawTag.removes_region {source : Text} {d : Delimiters} {raw : RawTag}
    (hraw : .tag raw ∈ (scan source d).tokens) :
    Removes source raw (raw.region source) ∧
      BlankOutside source raw.span (raw.region source) := by
  obtain ⟨before, body, after, hsource, hstart, hstop⟩ := Scanner.exists_eq_append_of_mem_scan hraw
  rcases line?_cases hsource hstart hstop with ⟨hsigil, l, hline⟩ | ⟨hline, hempty⟩
  · rw [region_of_line? hline]
    exact ⟨.line hsigil l, l.blankOutside⟩
  · rw [region_of_line?_eq_none hline]
    exact ⟨.tag hempty, blankOutside_self raw.span⟩

lemma RawTag.indent_cases {source : Text} {d : Delimiters} {raw : RawTag}
    (hraw : .tag raw ∈ (scan source d).tokens) (hsigil : raw.sigil = .angle) :
    (∃ l : LineAround source raw.span, raw.indent source = l.indent) ∨
      IsEmpty (LineAround source raw.span) ∧ raw.indent source = [] := by
  obtain ⟨before, body, after, hsource, hstart, hstop⟩ := Scanner.exists_eq_append_of_mem_scan hraw
  rcases line?_cases hsource hstart hstop with ⟨-, l, hline⟩ | ⟨hline, hempty⟩
  · refine .inl ⟨l, ?_⟩
    rw [indent, hline]
    refine Span.slice_of_eq (a := l.before) (c := l.body ++ l.trail ++ l.ending ++ l.after)
      ?_ rfl ?_
    · simp only [l.eq_source, List.append_assoc]
    · rw [← Text.byteSize_append]
      exact l.start_tag
  · refine .inr ⟨hempty (by rw [hsigil]; rfl), ?_⟩
    rw [indent, hline]

lemma Tree.textsAll_of_compile {source : Text} {d : Delimiters} {t : Template}
    (h : Template.compile source d = .ok t) :
    Tree.textsAll t.trees =
      (fragments source 0 (scan source d).tokens).flatMap Fragment.texts := by
  rw [Tree.textsAll_eq_flatMap_leavesAll, Template.leavesAll_of_compile h, List.flatMap_assoc]
  congr 1
  funext fragment
  exact fragment.flatMap_texts_leaves source

/-- Literal text is conserved: the text of a template is its source without one region for each tag.
The regions are in order and do not overlap, and a partial is indented by what was in front of it on
its line if it stands alone. -/
theorem Template.text_eq_keep {source : Text} {d : Delimiters} {t : Template}
    (h : compile source d = .ok t) :
    ∃ regions : List Span,
      List.Forall₂ (fun raw region => Removes source raw region ∧
        BlankOutside source raw.span region) (tagsOf (scan source d).tokens) regions ∧
      regions.Pairwise (fun region later => region.stop ≤ later.start) ∧
      (Tree.textsAll t.trees).flatMap (·.slice source) = keep regions 0 source ∧
      ∀ tag, .partialTag tag ∈ Tree.leavesAll t.trees →
        (∃ l : LineAround source tag.span, tag.indent = l.indent) ∨
          IsEmpty (LineAround source tag.span) ∧ tag.indent = [] := by
  obtain ⟨-, hfailure, -⟩ := exists_grove_of_forest (eq_ofTrees_of_compile h).1
  have hcarved := carved_of_rounds (Scanner.rounds_run (.start source d)) hfailure
    (.start source d)
  refine ⟨(tagsOf (scan source d).tokens).map (·.region source), ?_, ?_, ?_, fun tag hmem => ?_⟩
  · rw [List.forall₂_map_right_iff, List.forall₂_same]
    intro raw hraw
    exact RawTag.removes_region (mem_tagsOf.1 hraw)
  · exact List.pairwise_map.2 hcarved.pairwise
  · rw [Tree.textsAll_of_compile h]
    exact hcarved.texts_eq
  · obtain ⟨raw, hraw, hsigil, hspan, hindent⟩ := exists_raw_of_partialTag_mem h hmem
    rw [hspan, hindent]
    exact RawTag.indent_cases hraw hsigil

/-- A partial that stands alone, with pointed delimiters: its lines go. -/
theorem Template.text_eq_keep_partial :
    ∃ d t regions, Delimiters.make ['<'] ['>'] = .ok d ∧
      compile "a\n  <>p>\r\nb<c>".toList d = .ok t ∧
      List.Forall₂ (Removes "a\n  <>p>\r\nb<c>".toList)
        (tagsOf (scan "a\n  <>p>\r\nb<c>".toList d).tokens) regions ∧
      keep regions 0 "a\n  <>p>\r\nb<c>".toList = "a\nb".toList := by
  let source : Text := "a\n  <>p>\r\nb<c>".toList
  let d : Delimiters := ⟨['<'], ['>'], delimiterError?_eq_none_iff.1 rfl,
    delimiterError?_eq_none_iff.1 rfl⟩
  have hok : ((compile source d).map fun t =>
      (Tree.textsAll t.trees).flatMap (·.slice source)) = .ok "a\nb".toList := by decide +kernel
  cases hcompile : compile source d with
  | error e => simp [hcompile, Except.map] at hok
  | ok t =>
    rw [hcompile, Except.map, Except.ok.injEq] at hok
    obtain ⟨regions, hremoves, -, hkeep, -⟩ := text_eq_keep hcompile
    exact ⟨d, t, regions, Delimiters.make_self d, hcompile, hremoves.imp fun _ _ h => h.1,
      hkeep.symm.trans hok⟩

end Mustache
