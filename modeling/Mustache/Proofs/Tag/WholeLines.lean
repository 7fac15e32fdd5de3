import Mustache.Proofs.Tag.Standalone

/-!
# Whole lines

Text that ends with a line may be put in front of other text without a change to any line. So a tag
stands alone in the whole just if it does in its part: a tag of the first part finds the end of its
line there, and a tag of the second part the start of its own.
-/

namespace Mustache

namespace Text

variable {s t : Text}

/-- A text of whole lines is empty or ends in a line feed. -/
def WholeLines (t : Text) : Prop := t = [] ∨ t.endsLine

lemma wholeLines_iff : t.WholeLines ↔ t = [] ∨ ∃ earlier, t = earlier ++ ['\n'] := by
  simp [WholeLines, endsLine, List.getLast?_eq_some_iff]

lemma WholeLines.of_append (h : (s ++ t).WholeLines) : t.WholeLines := by
  rcases List.eq_nil_or_concat t with rfl | ⟨init, c, rfl⟩
  · exact .inl rfl
  · simpa [WholeLines, endsLine] using h

/-- Lines in front of a text do not reach into its last line. -/
lemma WholeLines.lastLine_append (h : s.WholeLines) (t : Text) :
    (s ++ t).lastLine = t.lastLine := by
  obtain ⟨before, heq, hline, hbefore⟩ := t.exists_eq_append_lastLine
  conv_lhs => rw [heq, ← List.append_assoc]
  refine Text.lastLine_append ?_ hline
  rcases hbefore with rfl | ⟨earlier, rfl⟩
  · rw [List.append_nil]
    exact wholeLines_iff.1 h
  · exact .inr ⟨s ++ earlier, (List.append_assoc ..).symm⟩

end Text

/-- A line feed ends the first line, whatever follows. -/
lemma headLine_append {t : Text} (h : '\n' ∈ t) (more : Text) :
    headLine (t ++ more) = headLine t := by
  cases hcut : Text.cut? ['\n'] t with
  | none => exact absurd h (Text.cut?_singleton_eq_none_iff.1 hcut)
  | some parts =>
    obtain ⟨line, rest⟩ := parts
    obtain ⟨rfl, hline⟩ := Text.cut?_singleton_eq_some_iff.1 hcut
    rw [List.append_assoc, List.cons_append, headLine_append_newline hline,
      headLine_append_newline hline]

/-- What goes with a tag, moved right by `n` bytes. -/
def StandaloneLine.shift (n : Nat) (line : StandaloneLine) : StandaloneLine :=
  ⟨line.indent.shift n, line.stop + n⟩

@[simp] lemma StandaloneLine.map_shift_zero (line? : Option StandaloneLine) :
    line?.map (StandaloneLine.shift 0) = line? := by
  cases line? <;> rfl

section
variable {source before body after : Text} {tag : Span}
  (hsource : source = before ++ body ++ after) (hstart : tag.start = before.byteSize)
  (hstop : tag.stop = (before ++ body).byteSize)
include hsource hstart hstop

lemma standaloneLine?_of_eq :
    standaloneLine? source tag =
      if isIndentation before.lastLine && isIndentation (dropReturn (headLine after).1) then
        some ⟨⟨tag.start - before.lastLine.byteSize, tag.start⟩, tag.stop + (headLine after).2⟩
      else none := by
  have htake := Text.takeBytes?_of_eq (hsource.trans (List.append_assoc ..)) hstart
  have hdrop := Text.dropBytes?_of_eq hsource hstop
  rw [standaloneLine?]
  simp only [htake, hdrop]

/-- Text behind a source changes nothing for a tag whose line ends in the source. -/
theorem standaloneLine?_append (hline : '\n' ∈ after) (more : Text) :
    standaloneLine? (source ++ more) tag = standaloneLine? source tag := by
  have hsource' : source ++ more = before ++ body ++ (after ++ more) := by
    rw [hsource, List.append_assoc]
  rw [standaloneLine?_of_eq hsource hstart hstop, standaloneLine?_of_eq hsource' hstart hstop,
    headLine_append hline]

/-- Lines in front of a source change nothing but the place of a tag. -/
theorem standaloneLine?_shift {lines : Text} (hlines : lines.WholeLines) :
    standaloneLine? (lines ++ source) (tag.shift lines.byteSize) =
      (standaloneLine? source tag).map (StandaloneLine.shift lines.byteSize) := by
  have hsource' : lines ++ source = (lines ++ before) ++ body ++ after := by
    rw [hsource]
    simp only [List.append_assoc]
  have hstart' : (tag.shift lines.byteSize).start = (lines ++ before).byteSize := by
    simp only [Span.shift, hstart, Text.byteSize_append, Nat.add_comm]
  have hstop' : (tag.shift lines.byteSize).stop = (lines ++ before ++ body).byteSize := by
    simp only [Span.shift, hstop, Text.byteSize_append]
    omega
  rw [standaloneLine?_of_eq hsource hstart hstop, standaloneLine?_of_eq hsource' hstart' hstop',
    hlines.lastLine_append]
  split
  · -- the indentation is no longer than what is in front of the tag
    have hle : before.lastLine.byteSize ≤ tag.start := by
      obtain ⟨earlier, heq, -, -⟩ := before.exists_eq_append_lastLine
      have := congrArg Text.byteSize heq
      rw [Text.byteSize_append] at this
      omega
    simp only [Option.map_some, StandaloneLine.shift, Span.shift, Option.some.injEq,
      StandaloneLine.mk.injEq, Span.mk.injEq, and_true]
    omega
  · rfl

end

end Mustache
