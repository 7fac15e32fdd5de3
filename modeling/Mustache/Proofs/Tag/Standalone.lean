import Mathlib.Data.List.TakeWhile
import Mustache.Proofs.Text.Search
import Mustache.Proofs.Text.Offsets
import Mustache.Tag.Standalone

/-!
# Lines of tags that stand alone

A tag stands alone if the source can be taken apart around it as a `LineAround` says. There is just
one way to do so, and `standaloneLine?` finds it.
-/

namespace Mustache

variable {source : Text} {tag : Span}

/-- What ends a line in front of `after`: a line feed or both, a carriage return and a line feed, or
the end of the source, which may have a carriage return in front. -/
inductive LineEnding : Text → Text → Prop
  | lineFeed (after : Text) : LineEnding ['\n'] after
  | both (after : Text) : LineEnding ['\r', '\n'] after
  | endOfSource : LineEnding [] []
  | returnAtEnd : LineEnding ['\r'] []

/-- The parts of a source around a tag that stands alone: nothing but spaces and tabs between the
start of the line of the tag and the tag, and between the tag and the end of its last line. -/
structure LineAround (source : Text) (tag : Span) where
  before : Text
  indent : Text
  body : Text
  trail : Text
  ending : Text
  after : Text
  eq_source : source = before ++ indent ++ body ++ trail ++ ending ++ after
  start_tag : tag.start = (before ++ indent).byteSize
  stop_tag : tag.stop = (before ++ indent ++ body).byteSize
  startsLine : before = [] ∨ ∃ earlier, before = earlier ++ ['\n']
  isIndentation_indent : isIndentation indent
  isIndentation_trail : isIndentation trail
  lineEnding : LineEnding ending after

/-- What goes with the tag: from the start of its line to the end of its last one. -/
def LineAround.region (l : LineAround source tag) : Span :=
  ⟨l.before.byteSize, (l.before ++ l.indent ++ l.body ++ l.trail ++ l.ending).byteSize⟩

/-! ### Spaces and tabs -/

lemma isIndentation_iff {t : Text} : isIndentation t ↔ ∀ c ∈ t, c = ' ' ∨ c = '\t' := by
  simp [isIndentation]

lemma newline_notMem_of_isIndentation {t : Text} (h : isIndentation t) : '\n' ∉ t := by
  intro hmem
  have := isIndentation_iff.1 h _ hmem
  simp at this

lemma return_notMem_of_isIndentation {t : Text} (h : isIndentation t) : '\r' ∉ t := by
  intro hmem
  have := isIndentation_iff.1 h _ hmem
  simp at this

/-- Whether a character can go with a tag that stands alone: a space, a tab, or one of the two
characters of a line ending. -/
def isLayout (c : Char) : Bool := c = ' ' || c = '\t' || c = '\r' || c = '\n'

lemma isLayout_iff {c : Char} : isLayout c ↔ c = ' ' ∨ c = '\t' ∨ c = '\r' ∨ c = '\n' := by
  simp [isLayout, or_assoc]

lemma isBlank_of_isLayout {c : Char} (h : isLayout c) : isBlank c := by
  rcases isLayout_iff.1 h with rfl | rfl | rfl | rfl <;> decide

lemma isLayout_of_isIndentation {t : Text} (h : isIndentation t) : ∀ c ∈ t, isLayout c := by
  intro c hc
  rcases isIndentation_iff.1 h c hc with rfl | rfl <;> rfl

lemma LineEnding.isLayout {ending after : Text} (h : LineEnding ending after) :
    ∀ c ∈ ending, isLayout c := by
  cases h <;> simp <;> decide

/-! ### The line in front of a tag -/

namespace Text

/-- The last line of a text starts at the start of the text or behind a line feed. -/
lemma exists_eq_append_lastLine (t : Text) :
    ∃ before, t = before ++ t.lastLine ∧ '\n' ∉ t.lastLine ∧
      (before = [] ∨ ∃ earlier, before = earlier ++ ['\n']) := by
  refine ⟨(t.reverse.dropWhile (· ≠ '\n')).reverse, ?_, ?_, ?_⟩
  · rw [lastLine, ← List.reverse_append, List.takeWhile_append_dropWhile, List.reverse_reverse]
  · rw [lastLine, List.mem_reverse]
    intro hmem
    have := List.mem_takeWhile_imp hmem
    simp at this
  · cases hdrop : t.reverse.dropWhile (· ≠ '\n') with
    | nil => exact .inl rfl
    | cons c cs =>
      have hc : c = '\n' := by
        have hhead := List.head?_dropWhile_not (· ≠ '\n') t.reverse
        rw [hdrop] at hhead
        simpa using hhead
      right
      exact ⟨cs.reverse, by rw [List.reverse_cons, hc]⟩

lemma lastLine_append {before line : Text}
    (hbefore : before = [] ∨ ∃ earlier, before = earlier ++ ['\n']) (hline : '\n' ∉ line) :
    (before ++ line).lastLine = line := by
  have hall : ∀ c ∈ line.reverse, decide (c ≠ '\n') = true := by
    intro c hc
    simp only [ne_eq, decide_not, Bool.not_eq_true', decide_eq_false_iff_not]
    rintro rfl
    exact hline (List.mem_reverse.1 hc)
  rw [lastLine, List.reverse_append, List.takeWhile_append_of_pos hall]
  rcases hbefore with rfl | ⟨earlier, rfl⟩
  · simp
  · simp

end Text

/-! ### The line behind a tag -/

lemma dropReturn_of_notMem {t : Text} (h : '\r' ∉ t) : dropReturn t = t := by
  rw [dropReturn]
  rw [if_neg]
  intro hlast
  exact h (List.mem_of_getLast? hlast)

lemma dropReturn_concat (t : Text) : dropReturn (t ++ ['\r']) = t := by simp [dropReturn]

lemma eq_or_eq_of_dropReturn (t : Text) : t = dropReturn t ∨ t = dropReturn t ++ ['\r'] := by
  rw [dropReturn]
  split
  · next h =>
    obtain ⟨before, rfl⟩ := List.getLast?_eq_some_iff.1 h
    simp
  · exact .inl rfl

lemma headLine_append_newline {line : Text} (h : '\n' ∉ line) (rest : Text) :
    headLine (line ++ '\n' :: rest) = (line, line.byteSize + 1) := by
  have hcut := Text.cut?_singleton_eq_some_iff.2 ⟨(rfl : line ++ '\n' :: rest = _), h⟩
  simp [headLine, hcut]

lemma headLine_of_notMem {line : Text} (h : '\n' ∉ line) :
    headLine line = (line, line.byteSize) := by
  simp [headLine, Text.cut?_singleton_eq_none_iff.2 h]

/-- A text that goes on with spaces, tabs and a line ending has just these in its first line. -/
lemma headLine_of_lineEnding {trail ending rest : Text} (htrail : isIndentation trail)
    (hending : LineEnding ending rest) :
    dropReturn (headLine (trail ++ ending ++ rest)).1 = trail ∧
      (headLine (trail ++ ending ++ rest)).2 = (trail ++ ending).byteSize := by
  have hnewline := newline_notMem_of_isIndentation htrail
  have hreturn := return_notMem_of_isIndentation htrail
  have hnewline' : '\n' ∉ trail ++ ['\r'] := by simp [hnewline]
  cases hending with
  | lineFeed =>
    rw [List.append_assoc, List.singleton_append, headLine_append_newline hnewline]
    exact ⟨dropReturn_of_notMem hreturn, by simp; rfl⟩
  | both =>
    have hsplit : trail ++ ['\r', '\n'] ++ rest = (trail ++ ['\r']) ++ '\n' :: rest := by simp
    rw [hsplit, headLine_append_newline hnewline']
    exact ⟨dropReturn_concat trail, by simp; rfl⟩
  | endOfSource =>
    rw [List.append_nil, List.append_nil, headLine_of_notMem hnewline]
    exact ⟨dropReturn_of_notMem hreturn, rfl⟩
  | returnAtEnd =>
    rw [List.append_nil, headLine_of_notMem hnewline']
    exact ⟨dropReturn_concat trail, rfl⟩

lemma exists_lineEnding (after : Text) :
    ∃ ending rest, after = dropReturn (headLine after).1 ++ ending ++ rest ∧
      LineEnding ending rest := by
  cases hcut : Text.cut? ['\n'] after with
  | some parts =>
    obtain ⟨line, rest⟩ := parts
    obtain ⟨rfl, hline⟩ := Text.cut?_singleton_eq_some_iff.1 hcut
    rw [headLine_append_newline hline]
    generalize hdrop : dropReturn line = kept
    rcases eq_or_eq_of_dropReturn line with h | h
    · rw [hdrop] at h
      exact ⟨['\n'], rest, by simp [h], .lineFeed rest⟩
    · rw [hdrop] at h
      exact ⟨['\r', '\n'], rest, by simp [h], .both rest⟩
  | none =>
    rw [headLine_of_notMem (Text.cut?_singleton_eq_none_iff.1 hcut)]
    rcases eq_or_eq_of_dropReturn after with h | h
    · exact ⟨[], [], by simpa using h, .endOfSource⟩
    · exact ⟨['\r'], [], by simpa using h, .returnAtEnd⟩

/-! ### The line of a tag -/

namespace LineAround

lemma stop_region (l : LineAround source tag) :
    l.region.stop = tag.stop + (l.trail ++ l.ending).byteSize := by
  simp only [region, l.stop_tag, Text.byteSize_append, Nat.add_assoc]

lemma takeBytes?_eq (l : LineAround source tag) :
    source.takeBytes? tag.start = some (l.before ++ l.indent) := by
  refine Text.takeBytes?_of_eq (b := l.body ++ l.trail ++ l.ending ++ l.after) ?_ l.start_tag
  simp only [l.eq_source, List.append_assoc]

lemma dropBytes?_eq (l : LineAround source tag) :
    source.dropBytes? tag.stop = some (l.trail ++ l.ending ++ l.after) := by
  refine Text.dropBytes?_of_eq ?_ l.stop_tag
  simp only [l.eq_source, List.append_assoc]

/-- What goes behind the tag ends a line, if the source does not end there. -/
lemma endsLine (l : LineAround source tag) :
    l.trail ++ l.ending = [] ∨ l.after = [] ∨ ∃ t, l.trail ++ l.ending = t ++ ['\n'] := by
  obtain ⟨_, _, _, trail, ending, after, _, _, _, _, _, _, hending⟩ := l
  cases hending with
  | lineFeed => exact .inr (.inr ⟨trail, rfl⟩)
  | both => exact .inr (.inr ⟨trail ++ ['\r'], by simp⟩)
  | endOfSource => exact .inr (.inl rfl)
  | returnAtEnd => exact .inr (.inl rfl)

lemma isLayout_of_mem (l : LineAround source tag) : ∀ c ∈ l.trail ++ l.ending, isLayout c := by
  intro c hc
  rcases List.mem_append.1 hc with hc | hc
  · exact isLayout_of_isIndentation l.isIndentation_trail c hc
  · exact l.lineEnding.isLayout c hc

end LineAround

/-- The line of a tag that stands alone is found. -/
theorem LineAround.standaloneLine?_eq (l : LineAround source tag) :
    standaloneLine? source tag = some ⟨⟨l.before.byteSize, tag.start⟩, l.region.stop⟩ := by
  have hlast := Text.lastLine_append l.startsLine
    (newline_notMem_of_isIndentation l.isIndentation_indent)
  obtain ⟨hhead, hsize⟩ := headLine_of_lineEnding l.isIndentation_trail l.lineEnding
  have hstart : tag.start - l.indent.byteSize = l.before.byteSize := by
    rw [l.start_tag, Text.byteSize_append, Nat.add_sub_cancel]
  rw [standaloneLine?]
  simp only [l.takeBytes?_eq, l.dropBytes?_eq, hlast, hhead, hsize, hstart, l.stop_region,
    l.isIndentation_indent, l.isIndentation_trail, Bool.and_self, if_true]

/-- There is only one such line. -/
theorem LineAround.region_eq (l l' : LineAround source tag) : l.region = l'.region := by
  have h := l.standaloneLine?_eq.symm.trans l'.standaloneLine?_eq
  simp only [Option.some.injEq, StandaloneLine.mk.injEq, Span.mk.injEq] at h
  obtain ⟨⟨hstart, -⟩, hstop⟩ := h
  exact congrArg₂ Span.mk hstart hstop

/-- Only the line of a tag that stands alone is found. -/
theorem nonempty_lineAround_of_standaloneLine? {line : StandaloneLine} {before body after : Text}
    (hsource : source = before ++ body ++ after) (hstart : tag.start = before.byteSize)
    (hstop : tag.stop = (before ++ body).byteSize)
    (h : standaloneLine? source tag = some line) : Nonempty (LineAround source tag) := by
  have hbefore : source.takeBytes? tag.start = some before :=
    Text.takeBytes?_of_eq (by rw [hsource, List.append_assoc]) hstart
  have hafter : source.dropBytes? tag.stop = some after := Text.dropBytes?_of_eq hsource hstop
  rw [standaloneLine?] at h
  simp only [hbefore, hafter] at h
  split at h
  · next hblank =>
    rw [Bool.and_eq_true] at hblank
    obtain ⟨earlier, hearlier, -, hstarts⟩ := Text.exists_eq_append_lastLine before
    obtain ⟨ending, rest, hrest, hending⟩ := exists_lineEnding after
    refine ⟨⟨earlier, before.lastLine, body, dropReturn (headLine after).1, ending, rest, ?_, ?_,
      ?_, hstarts, hblank.1, hblank.2, hending⟩⟩
    · rw [← hearlier, hsource]
      simp only [List.append_assoc] at hrest ⊢
      rw [← hrest]
    · rw [← hearlier, hstart]
    · rw [← hearlier, hstop]
  · simp at h

/-- In a source of a single line, a tag that stands alone has only spaces, tabs and carriage returns
around it. -/
lemma LineAround.blank_of_notMem (l : LineAround source tag) {front body back : Text}
    (hsource : source = front ++ body ++ back) (hnewline : '\n' ∉ source)
    (hstart : tag.start = front.byteSize) (hstop : tag.stop = (front ++ body).byteSize) :
    ∀ c ∈ front ++ back, c = ' ' ∨ c = '\t' ∨ c = '\r' := by
  have hfront : front = l.before ++ l.indent := by
    have htake := Text.takeBytes?_of_eq (hsource.trans (List.append_assoc ..)) hstart
    exact Option.some.inj (htake.symm.trans l.takeBytes?_eq)
  have hback : back = l.trail ++ l.ending ++ l.after :=
    Option.some.inj ((Text.dropBytes?_of_eq hsource hstop).symm.trans l.dropBytes?_eq)
  have hbefore : l.before = [] := by
    apply l.startsLine.resolve_right
    rintro ⟨earlier, hearlier⟩
    exact hnewline (by simp [hsource, hfront, hearlier])
  have hindent := isIndentation_iff.1 l.isIndentation_indent
  have htrail := isIndentation_iff.1 l.isIndentation_trail
  have hending : ∀ c ∈ l.ending ++ l.after, c = '\r' := by
    have hnot : '\n' ∉ l.ending := fun hmem => hnewline (by simp [hsource, hback, hmem])
    have h := l.lineEnding
    revert hnot h
    generalize l.ending = ending, l.after = after
    rintro hnot (_ | _ | _ | _)
    · simp at hnot
    · simp at hnot
    · simp
    · simp
  intro c hc
  rw [hfront, hbefore, hback, List.nil_append, List.append_assoc, List.mem_append,
    List.mem_append] at hc
  rcases hc with hc | hc | hc
  · rcases hindent c hc with rfl | rfl <;> simp
  · rcases htrail c hc with rfl | rfl <;> simp
  · exact .inr (.inr (hending c hc))

end Mustache
