import Mathlib.Data.Prod.Lex
import Mustache.Proofs.Template.Matching

/-!
# Positions of errors

The line and the column of a span are found apart: the one from all line feeds in front of it, the
other from the last of them. Yet they belong together: the column is counted from where the line
starts, so that an offset can be read off its position, and positions follow one another as offsets
do. The span of an error begins where a tag does, and so its position is that of this tag.
-/

namespace Mustache

/-! ### Where lines start -/

namespace Text

variable {front rest : Text}

/-- The offset at which a line starts; lines are counted from one. -/
def lineStart (t : Text) (line : Nat) : Nat := byteSize (t.lines.take (line - 1)).flatten

lemma lines_ne_nil {t : Text} (h : t ≠ []) : lines t ≠ [] := by
  intro hlines
  apply h
  rw [← flatten_lines t, hlines]
  rfl

lemma lines_cons_of_ne {c : Char} (hc : c ≠ '\n') {t line : Text} {later : List Text}
    (h : lines t = line :: later) : lines (c :: t) = (c :: line) :: later := by
  rw [lines, if_neg hc, h]

/-- Behind a line feed the lines are those of the text there. -/
lemma lines_concat_append (earlier rest : Text) :
    lines (earlier ++ ['\n'] ++ rest) = lines (earlier ++ ['\n']) ++ lines rest := by
  induction earlier with
  | nil => rfl
  | cons c earlier ih =>
    rw [List.cons_append, List.cons_append]
    by_cases hc : c = '\n'
    · simp only [lines, hc, if_true, ih, List.cons_append]
    · obtain ⟨line, later, hlines⟩ := List.exists_cons_of_ne_nil
        (lines_ne_nil (List.concat_ne_nil '\n' earlier))
      have hrest : lines (earlier ++ ['\n'] ++ rest) = line :: (later ++ lines rest) := by
        rw [ih, hlines, List.cons_append]
      rw [lines_cons_of_ne hc hlines]
      exact lines_cons_of_ne hc hrest

/-- A line feed ends each line in front of it. -/
lemma length_lines_concat (earlier : Text) :
    (lines (earlier ++ ['\n'])).length = (earlier ++ ['\n']).count '\n' := by
  induction earlier with
  | nil => rfl
  | cons c earlier ih =>
    rw [List.cons_append]
    by_cases hc : c = '\n'
    · simp [lines, hc, ih]
    · obtain ⟨line, later, hlines⟩ := List.exists_cons_of_ne_nil
        (lines_ne_nil (List.concat_ne_nil '\n' earlier))
      rw [lines_cons_of_ne hc hlines, List.count_cons_of_ne hc, ← ih, hlines]
      rfl

/-- The line in which a text ends starts where its last line does. -/
lemma lineStart_count (front rest : Text) :
    lineStart (front ++ rest) (front.count '\n' + 1) + front.lastLine.byteSize =
      front.byteSize := by
  obtain ⟨before, hfront, hnone, hbefore⟩ := exists_eq_append_lastLine front
  have hcount : front.count '\n' = before.count '\n' := by
    conv_lhs => rw [hfront, List.count_append, List.count_eq_zero_of_not_mem hnone]
    rfl
  have hsize : front.byteSize = before.byteSize + front.lastLine.byteSize := by
    conv_lhs => rw [hfront, byteSize_append]
  have htake : (lines (front ++ rest)).take (before.count '\n') = lines before := by
    rcases hbefore with rfl | ⟨earlier, rfl⟩
    · rfl
    · conv_lhs => rw [hfront, List.append_assoc, lines_concat_append, ← length_lines_concat]
      exact List.take_left
  rw [lineStart, Nat.add_sub_cancel, hcount, htake, flatten_lines, hsize]

lemma length_le_byteSize (t : Text) : t.length ≤ t.byteSize := by
  induction t with
  | nil => exact Nat.le_refl 0
  | cons c t ih =>
    have := c.utf8Size_pos
    simp only [List.length_cons, byteSize_cons]
    omega

end Text

/-! ### Positions of offsets -/

/-- This is the position of an offset: so many line feeds are in front of it, and it is so many
bytes behind the start of the line. Both are counted from one. -/
structure Position.IsAt (p : Position) (source : Text) (k : Nat) : Prop where
  line_eq : ∃ front rest, source = front ++ rest ∧ front.byteSize = k ∧
    p.line = front.count '\n' + 1
  column_pos : 1 ≤ p.column
  lineStart_add : source.lineStart p.line + p.column = k + 1

namespace Position

variable {source : Text} {p q : Position} {k n : Nat}

/-- An offset can be read off its position. -/
lemma IsAt.offset_eq (h : p.IsAt source k) (h' : p.IsAt source n) : k = n := by
  have hadd := h.lineStart_add
  rw [h'.lineStart_add] at hadd
  omega

/-- No offset has two positions. -/
lemma IsAt.eq (h : p.IsAt source k) (h' : q.IsAt source k) : p = q := by
  obtain ⟨front, rest, hsource, hfront, hline⟩ := h.line_eq
  obtain ⟨front', rest', hsource', hfront', hline'⟩ := h'.line_eq
  have hsame : front = front' := by
    have htake := Text.takeBytes?_of_eq hsource hfront.symm
    rw [Text.takeBytes?_of_eq hsource' hfront'.symm] at htake
    exact (Option.some.inj htake).symm
  have hlines : p.line = q.line := by rw [hline, hline', hsame]
  have hadd := h.lineStart_add
  rw [← h'.lineStart_add, hlines, Nat.add_left_cancel_iff] at hadd
  cases p
  cases q
  simp only [Position.mk.injEq]
  exact ⟨hlines, hadd⟩

/-- Further right there are no fewer line feeds in front, and if there are no more, the column is
greater. -/
lemma IsAt.toLex_lt (h : p.IsAt source k) (h' : q.IsAt source n) (hlt : k < n) :
    toLex (p.line, p.column) < toLex (q.line, q.column) := by
  obtain ⟨front, rest, hsource, rfl, hline⟩ := h.line_eq
  obtain ⟨front', rest', hsource', rfl, hline'⟩ := h'.line_eq
  obtain ⟨between, rfl⟩ : front <+: front' :=
    Text.isPrefix_of_byteSize_le ⟨rest, hsource.symm⟩ ⟨rest', hsource'.symm⟩ (Nat.le_of_lt hlt)
  rw [List.count_append] at hline'
  rw [Prod.Lex.toLex_lt_toLex]
  rcases Nat.lt_or_ge p.line q.line with hlines | hlines
  · exact .inl hlines
  · have heq : p.line = q.line := by omega
    have hadd := h.lineStart_add
    have hadd' := h'.lineStart_add
    rw [← heq] at hadd'
    refine .inr ⟨heq, ?_⟩
    show p.column < q.column
    omega

/-- Positions follow one another as their offsets do. -/
lemma IsAt.toLex_lt_iff (h : p.IsAt source k) (h' : q.IsAt source n) :
    toLex (p.line, p.column) < toLex (q.line, q.column) ↔ k < n := by
  refine ⟨fun hlt => ?_, h.toLex_lt h'⟩
  rcases Nat.lt_trichotomy k n with hk | rfl | hk
  · exact hk
  · rw [h.eq h'] at hlt
    exact absurd hlt (lt_irrefl _)
  · exact absurd (h'.toLex_lt h hk) (lt_asymm hlt)

end Position

/-- The position of a span that starts on a boundary is that of the boundary; the source has to be
so short that the numbers do not stop at the greatest one. -/
lemma Span.isAt_position {source : Text} (hsize : source.byteSize < maxOffset) {span : Span}
    (hstart : source.IsBoundary span.start) : (span.position source).IsAt source span.start := by
  obtain ⟨front, rest, hsource, hfront⟩ := hstart
  have hbefore : span.before source = front := by
    rw [before, Text.takeBytes?_of_eq hsource hfront.symm]
    rfl
  have hadd := Text.lineStart_count front rest
  rw [← hsource] at hadd
  have hline : (span.position source).line = front.count '\n' + 1 := by
    have hcount : front.count '\n' ≤ front.byteSize :=
      Nat.le_trans List.count_le_length front.length_le_byteSize
    have hle : front.byteSize ≤ source.byteSize := by simp [hsource]
    simp only [position, hbefore]
    omega
  have hcolumn : (span.position source).column = front.lastLine.byteSize + 1 := by
    have hle : front.byteSize ≤ source.byteSize := by simp [hsource]
    simp only [position, hbefore]
    omega
  refine ⟨⟨front, rest, hsource, hfront, hline⟩, ?_, ?_⟩
  · rw [hcolumn]
    omega
  · rw [hline, hcolumn]
    omega

/-! ### Tags at fault -/

/-- A tag begins at an offset: behind some tokens of the source, with which it is read up to there,
stands the opening delimiter in effect. -/
def TagBeginsAt (source : Text) (d : Delimiters) (k : Nat) : Prop :=
  ∃ front later, (scan source d).tokens = front ++ later ∧
    Tiles 0 (front.map Token.span) k ∧
    (delimitersAfter source d front).opening.OccursAt k source

lemma Tiles.exists_of_append {start stop : Nat} {spans later : List Span}
    (h : Tiles start (spans ++ later) stop) :
    ∃ n, Tiles start spans n ∧ Tiles n later stop := by
  induction spans generalizing start with
  | nil => exact ⟨start, .nil start, h⟩
  | cons span spans ih =>
    cases h with
    | cons hne h =>
      obtain ⟨n, hspans, hlater⟩ := ih h
      exact ⟨n, .cons hne hspans, hlater⟩

section

variable {source : Text} {d : Delimiters}

lemma TagParts.occursAt_opening {raw : RawTag} (parts : TagParts source d raw) :
    d.opening.OccursAt raw.span.start source := by
  have hsource := parts.source_eq
  simp only [List.append_assoc] at hsource
  rw [← List.append_assoc] at hsource
  rw [Text.occursAt_iff d.opening_ne_nil]
  exact ⟨parts.before, _, hsource, parts.start_span.symm⟩

/-- A tag that has been read. -/
lemma tagBeginsAt_of_mem {raw : RawTag} (h : .tag raw ∈ (scan source d).tokens) :
    TagBeginsAt source d raw.span.start ∧ raw.span.LiesIn source := by
  obtain ⟨-, hscan⟩ := scan_lossless source d
  obtain ⟨front, later, htokens⟩ := List.append_of_mem h
  obtain ⟨-, parts, -, -⟩ := hscan.tag front raw later htokens
  obtain ⟨stop, htiles, -⟩ := hscan.tiles
  rw [htokens, List.map_append, List.map_cons] at htiles
  obtain ⟨n, hfront, hlater⟩ := htiles.exists_of_append
  have hn : n = raw.span.start := by
    cases hlater
    rfl
  exact ⟨⟨front, _, htokens, hn ▸ hfront, parts.occursAt_opening⟩, parts.span_liesIn⟩

/-- A tag that could not be read. -/
lemma tagBeginsAt_of_failure {failure : ScanError} (h : (scan source d).failure = some failure) :
    TagBeginsAt source d failure.span.start ∧ failure.span.LiesIn source := by
  obtain ⟨-, hscan⟩ := scan_lossless source d
  obtain ⟨stop, htiles, hend⟩ := hscan.tiles
  rw [h] at hend
  obtain ⟨hstop, hlies, hfails⟩ := hend
  have hopening :
      (delimitersAfter source d (scan source d).tokens).opening.OccursAt stop source := by
    cases hfails with
    | unclosedTag before after hsource hstart =>
      rw [Text.occursAt_iff (Delimiters.opening_ne_nil _)]
      exact ⟨before, after, hsource, hstart⟩
    | invalidDelimiters raw parts reason hsigil hstart =>
      rw [← hstart]
      exact parts.occursAt_opening
  rw [hstop]
  exact ⟨⟨_, [], (List.append_nil _).symm, htiles, hopening⟩, hlies⟩

/-- The span of the first fault is that of a tag. -/
lemma FirstFault.tagBeginsAt {e : ParseError} (h : FirstFault source (Mustache.scan source d) e) :
    TagBeginsAt source d e.span.start ∧ e.span.LiesIn source := by
  cases h with
  | tag htokens =>
    apply tagBeginsAt_of_mem
    rw [htokens]
    exact List.mem_append_right _ List.mem_cons_self
  | @scan failure opens hfailure =>
    have hspan : (ParseError.ofScanError failure).span = failure.span := by
      cases failure <;> rfl
    rw [hspan]
    exact tagBeginsAt_of_failure hfailure
  | unclosed hfailure hsound =>
    obtain ⟨opening, hopening, -, rfl⟩ := hsound.exists_opensInnermost
    obtain ⟨front, inner, htokens, -⟩ := hopening.balanced_behind
    apply tagBeginsAt_of_mem
    rw [htokens]
    exact List.mem_append_right _ List.mem_cons_self

end

/-- In a source that is not too long, a span that starts on a boundary has the position of that
boundary, different boundaries have different positions, and these follow one another line by line
and column by column as the boundaries do. The error of a source that does not compile is that of
the first fault in it; its span lies in the source and begins where the tag at fault does, and its
position is that of this place. -/
theorem isAt_position_and_error {source : Text} (hsize : source.byteSize < maxOffset) :
    (∀ span : Span, source.IsBoundary span.start →
      (span.position source).IsAt source span.start) ∧
    (∀ s t : Span, source.IsBoundary s.start → source.IsBoundary t.start →
      (s.position source = t.position source ↔ s.start = t.start) ∧
      (toLex ((s.position source).line, (s.position source).column) <
        toLex ((t.position source).line, (t.position source).column) ↔ s.start < t.start)) ∧
    ∀ (d : Delimiters) (e : ParseError), Template.compile source d = .error e →
      FirstFault source (scan source d) e ∧ e.span.LiesIn source ∧
        TagBeginsAt source d e.span.start ∧
        (e.position source).IsAt source e.span.start := by
  refine ⟨fun span => Span.isAt_position hsize, fun s t hs ht => ?_, fun d e hcompile => ?_⟩
  · have hs' := Span.isAt_position hsize hs
    have ht' := Span.isAt_position hsize ht
    refine ⟨⟨fun heq => ?_, fun heq => ?_⟩, hs'.toLex_lt_iff ht'⟩
    · rw [heq] at hs'
      exact hs'.offset_eq ht'
    · rw [heq] at hs'
      exact hs'.eq ht'
  · have hfault := Template.firstFault_of_compile (Nat.le_of_lt hsize) hcompile
    obtain ⟨htag, hlies⟩ := hfault.tagBeginsAt
    exact ⟨hfault, hlies, htag, Span.isAt_position hsize hlies.start⟩

/-- A closing tag behind a line feed and a character of two bytes, with the name of no open
section. -/
theorem isAt_position_mismatched :
    ∃ d, Delimiters.make ['<'] ['>'] = .ok d ∧
      Template.compile "<#a>\né</b>".toList d = .error ⟨.mismatchedClose ['a'] ['b'], ⟨7, 11⟩⟩ ∧
      Span.position ⟨7, 11⟩ "<#a>\né</b>".toList = ⟨2, 3⟩ ∧
      Position.IsAt ⟨2, 3⟩ "<#a>\né</b>".toList 7 ∧
      TagBeginsAt "<#a>\né</b>".toList d 7 := by
  let d : Delimiters := ⟨['<'], ['>'], delimiterError?_eq_none_iff.1 rfl,
    delimiterError?_eq_none_iff.1 rfl⟩
  have hcompile : Template.compile "<#a>\né</b>".toList d =
      .error ⟨.mismatchedClose ['a'] ['b'], ⟨7, 11⟩⟩ := by decide +kernel
  have hposition : Span.position ⟨7, 11⟩ "<#a>\né</b>".toList = ⟨2, 3⟩ := by decide +kernel
  obtain ⟨-, -, herror⟩ := isAt_position_and_error
    (by decide +kernel : Text.byteSize "<#a>\né</b>".toList < maxOffset)
  obtain ⟨-, -, htag, hat⟩ := herror d _ hcompile
  have hat' : (Span.position ⟨7, 11⟩ "<#a>\né</b>".toList).IsAt "<#a>\né</b>".toList 7 := hat
  rw [hposition] at hat'
  exact ⟨d, d.make_self, hcompile, hposition, hat', htag⟩

end Mustache
