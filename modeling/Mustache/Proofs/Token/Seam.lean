import Mustache.Proofs.Tag.WholeLines
import Mustache.Proofs.Token.Continued

/-!
# The seam between two sources

Two sources of which the first is made of whole lines, and leaves the delimiters as they were, are
read one after the other as they are read alone: no delimiter reaches over a line feed. Only the
text in front of the seam and the text behind it become one.
-/

namespace Mustache

/-! ### Tags of sequences of tokens -/

lemma tagsOf_append (front back : List Token) :
    tagsOf (front ++ back) = tagsOf front ++ tagsOf back := List.filterMap_append ..

lemma tagsOf_map_shift (n : Nat) (tokens : List Token) :
    tagsOf (tokens.map (Token.shift n)) = (tagsOf tokens).map (RawTag.shift · n) := by
  induction tokens with
  | nil => rfl
  | cons token tokens ih =>
    cases token with
    | text span => exact ih
    | tag raw => exact congrArg (raw.shift n :: ·) ih

/-! ### Text behind which a tag starts -/

/-- Tokens from a tag on that starts at an offset, or none. -/
inductive FromTag (offset : Nat) : List Token → Prop
  | nil : FromTag offset []
  | tag {raw : RawTag} (h : raw.span.start = offset) (tokens : List Token) :
      FromTag offset (.tag raw :: tokens)

lemma FromTag.shift {offset : Nat} {tokens : List Token} (h : FromTag offset tokens) (n : Nat) :
    FromTag (offset + n) (tokens.map (Token.shift n)) := by
  cases h with
  | nil => exact .nil
  | tag h tokens => exact .tag (congrArg (· + n) h) _

/-- Whole lines in which a delimiter does not occur are in front of where it is found. -/
lemma Text.WholeLines.cut?_append {lines : Text} (hlines : lines.WholeLines) {d : Delimiters}
    (hcut : cut? d.opening lines = none) (t : Text) :
    cut? d.opening (lines ++ t) = (cut? d.opening t).map fun (a, b) => (lines ++ a, b) := by
  rcases wholeLines_iff.1 hlines with rfl | ⟨earlier, rfl⟩
  · simp
  · have hnewline : '\n' ∉ d.opening := fun hmem =>
      absurd (d.isDelimiter_opening.2.1 _ hmem) (by decide)
    have hoccurs : ¬ d.opening <:+: earlier := fun h =>
      cut?_eq_none_iff.1 hcut (h.trans (List.prefix_append earlier ['\n']).isInfix)
    rw [List.append_assoc, List.singleton_append, cut?_append_cons hnewline hoccurs]
    simp

namespace Scanner

variable {d d' : Delimiters} {source : Text} {tokens : List Token}

/-- Lines in front of a source are text in front of its first tag. -/
lemma Rounds.exists_prepend (h : (start source d).Rounds tokens none d') :
    ∃ text back, tokens = textToken 0 text ++ back ∧ FromTag text.byteSize back ∧
      ∀ (lines : Text) (offset : Nat), lines.WholeLines → Text.cut? d.opening lines = none →
        Rounds ⟨lines ++ source, offset, d⟩ (textToken offset (lines ++ text) ++
          back.map (Token.shift (offset + lines.byteSize))) none d' := by
  cases h with
  | last _ hcut =>
    refine ⟨source, [], (List.append_nil _).symm, .nil, fun lines offset hlines hnone => ?_⟩
    have hcut : Text.cut? d.opening source = none := hcut
    rw [List.map_nil, List.append_nil]
    exact .last ⟨lines ++ source, offset, d⟩ (by rw [hlines.cut?_append hnone, hcut]; rfl)
  | @round _ text after sigil inside rest changed _ later _ hcut htag hlater =>
    refine ⟨text, _, rfl, .tag (Nat.zero_add _) later, fun lines offset hlines hnone => ?_⟩
    have hcut : Text.cut? d.opening source = some (text, after) := hcut
    have hcut' : Text.cut? d.opening (lines ++ source) = some (lines ++ text, after) := by
      rw [hlines.cut?_append hnone, hcut]
      rfl
    have hskip : skip ⟨lines ++ source, offset, d⟩ (lines ++ text) after =
        ((start source d).skip text after).shift (offset + lines.byteSize) := by
      simp only [skip, Scanner.shift, start, Text.byteSize_append, Scanner.mk.injEq, true_and,
        and_true]
      omega
    have htag' : ReadsTag (skip ⟨lines ++ source, offset, d⟩ (lines ++ text) after) sigil inside
        rest changed := htag.congr_rest rfl htag.rest_eq
    have hmoved := hlater.shift (offset + lines.byteSize)
    rw [← afterTag_shift, ← hskip] at hmoved
    rw [List.map_cons, Token.shift, ← rawTag_shift, ← hskip]
    exact .round hcut' htag' hmoved

end Scanner

/-- How two sources are read one after the other: the first up to its last tag and the second from
its first tag on as each is read alone, and all between the two tags as one text. -/
structure Seam (first second : Text) (d : Delimiters) where
  front : List Token
  /-- The scanner behind the last tag of the first source. -/
  last : Scanner
  /-- The text in front of the first tag of the second source. -/
  text : Text
  back : List Token
  passes : (Scanner.start first d).Passes front last
  size_first : first.byteSize = last.offset + last.rest.byteSize
  tokens_first : (scan first d).tokens = front ++ textToken last.offset last.rest
  tokens_second : (scan second d).tokens = textToken 0 text ++ back
  fromTag_back : FromTag text.byteSize back
  scan_append : scan (first ++ second) d =
    ⟨front ++ (textToken last.offset (last.rest ++ text) ++
      back.map (Token.shift first.byteSize)), none, (scan second d).delimiters⟩

/-- The tags are those of the two sources. -/
lemma Seam.tagsOf_scan {first second : Text} {d : Delimiters} (seam : Seam first second d) :
    tagsOf (scan (first ++ second) d).tokens =
      tagsOf (scan first d).tokens ++
        (tagsOf (scan second d).tokens).map (RawTag.shift · first.byteSize) := by
  have htext (offset : Nat) (text : Text) : tagsOf (textToken offset text) = [] := by
    rw [← List.append_nil (textToken offset text), tagsOf_textToken]
    rfl
  rw [seam.scan_append, seam.tokens_first, seam.tokens_second]
  simp only [tagsOf_append, tagsOf_map_shift, htext, List.nil_append, List.append_nil]

open Scanner in
/-- Whole lines that leave the delimiters as they were are read alone, whatever follows. -/
theorem nonempty_seam {first second : Text} {d : Delimiters} (hlines : first.WholeLines)
    (hfirst : (scan first d).failure = none) (hsecond : (scan second d).failure = none)
    (hd : (scan first d).delimiters = d) : Nonempty (Seam first second d) := by
  obtain ⟨front, s, back, hpasses, hlast, htokens, hd'⟩ :=
    (rounds_run (.start first d)).exists_lastRound
  have hfailure : (start first d).run.failure = none := hfirst
  have hdelimiters : s.delimiters = d := hd'.trans hd
  rw [hfailure] at hlast
  cases hlast with
  | last hcut =>
    rw [hdelimiters] at hcut
    obtain ⟨read, hrest, hoffset, -⟩ := hpasses.exists_read
    have hrest : first = read ++ s.rest := hrest
    have hsize : first.byteSize = s.offset + s.rest.byteSize := by
      rw [hrest, Text.byteSize_append, hoffset]
      exact congrArg (· + s.rest.byteSize) (Nat.zero_add _).symm
    have hrounds := rounds_run (.start second d)
    have hnone : (start second d).run.failure = none := hsecond
    rw [hnone] at hrounds
    obtain ⟨text, back, htokens', hback, hprepend⟩ := hrounds.exists_prepend
    have hlines' : s.rest.WholeLines := (hrest ▸ hlines).of_append
    have hmore := hprepend s.rest s.offset hlines' hcut
    rw [← hsize, ← hdelimiters] at hmore
    have happend := run_eq_of_rounds ((hpasses.append second).rounds_append hmore)
    exact ⟨⟨front, s, text, back, hpasses, hsize, htokens, htokens', hback,
      hdelimiters ▸ happend⟩⟩

end Mustache
