import Mustache.Proofs.Token.Cuts

/-!
# Scanning on from a tag

A scan can be stopped behind any tag and taken up again there. What has been read up to the tag is
what is found in the text up to there alone, and what follows is what is found in the rest alone,
with the delimiters in effect behind the tag and all offsets counted from the tag on. So nothing
that follows a tag has a say in how the source is read up to it.
-/

namespace Mustache

/-- An error with its span moved right by `n` bytes. -/
def ScanError.shift (n : Nat) : ScanError → ScanError
  | .unclosedTag span expected       => .unclosedTag (span.shift n) expected
  | .invalidDelimiters span reason   => .invalidDelimiters (span.shift n) reason

namespace Scanner

variable {s s' : Scanner} {tokens later front back : List Token} {raw : RawTag}
  {failure : Option ScanError} {d : Delimiters}

/-! ### Moving a scanner -/

/-- A scanner with its offset moved right by `n` bytes. -/
def shift (s : Scanner) (n : Nat) : Scanner := { s with offset := s.offset + n }

lemma rawTag_shift (s : Scanner) (n : Nat) (sigil : Sigil) (inside : Text)
    (changed : Delimiters) :
    (s.shift n).rawTag sigil inside changed = (s.rawTag sigil inside changed).shift n := by
  simp only [rawTag, RawTag.shift, Span.shift, shift, tagText, RawTag.mk.injEq, Span.mk.injEq,
    true_and, and_true]
  omega

lemma skip_shift (s : Scanner) (n : Nat) (text after : Text) :
    (s.shift n).skip text after = (s.skip text after).shift n := by
  simp only [skip, shift, Scanner.mk.injEq, true_and, and_true]
  omega

lemma afterTag_shift (s : Scanner) (n : Nat) (sigil : Sigil) (inside rest : Text)
    (changed : Delimiters) :
    (s.shift n).afterTag sigil inside rest changed =
      (s.afterTag sigil inside rest changed).shift n := by
  simp only [afterTag, shift, tagText, Scanner.mk.injEq, true_and, and_true]
  omega

/-- What is found at a tag, with its offsets moved right by `n` bytes. -/
def Step.shift (n : Nat) : Step → Step
  | .finished         => .finished
  | .token found next => .token (found.shift n) (next.shift n)
  | .failed error     => .failed (error.shift n)

lemma readTag_shift (s : Scanner) (n : Nat) (after : Text) :
    (s.shift n).readTag after = (s.readTag after).shift n := by
  cases hcut : Text.cut? ((Sigil.ofHead after).closing s.delimiters)
      (after.drop (Sigil.ofHead after).text.length) with
  | none =>
    simp only [readTag, shift, hcut, Step.shift, ScanError.shift, Span.shift, Nat.add_right_comm]
  | some found =>
    obtain ⟨inside, rest⟩ := found
    have hcut' : Text.cut? ((Sigil.ofHead after).closing (s.shift n).delimiters)
        (after.drop (Sigil.ofHead after).text.length) = some (inside, rest) := hcut
    rw [readTag_eq hcut, readTag_eq hcut']
    simp only [rawTag_shift, afterTag_shift]
    split
    · cases Delimiters.ofContent inside.trim with
      | error reason =>
        simp only [Step.shift, ScanError.shift, Span.shift, shift, tagText, Nat.add_right_comm]
      | ok changed => rfl
    · rfl

/-- Nothing but offsets depends on the offset at which a scan starts. -/
lemma Rounds.shift (h : s.Rounds tokens failure d) (n : Nat) :
    Rounds (s.shift n) (tokens.map (Token.shift n)) (failure.map (ScanError.shift n)) d := by
  induction h with
  | last s hcut =>
    rw [map_shift_textToken]
    exact .last (s.shift n) hcut
  | failed s text after error hcut hread =>
    rw [map_shift_textToken]
    refine .failed (s.shift n) text after (error.shift n) hcut ?_
    rw [skip_shift, readTag_shift, hread]
    rfl
  | @round s text after sigil inside rest changed d tokens failure hcut htag later ih =>
    rw [List.map_append, List.map_cons, map_shift_textToken, Token.shift, ← rawTag_shift,
      ← skip_shift]
    rw [← afterTag_shift, ← skip_shift] at ih
    refine .round hcut ?_ ih
    rw [skip_shift]
    exact htag.congr_rest rfl htag.rest_eq

/-- A scan of a text whose offsets are counted from elsewhere. -/
lemma run_shift (s : Scanner) (n : Nat) :
    (s.shift n).run = ⟨s.run.tokens.map (Token.shift n), s.run.failure.map (ScanError.shift n),
      s.run.delimiters⟩ :=
  run_eq_of_rounds ((rounds_run s).shift n)

/-! ### Up to a tag -/

/-- The tokens are read, the last of them a tag, and the scanner comes from the one position to the
other. -/
inductive Passes : Scanner → List Token → Scanner → Prop
  | done (s : Scanner) : Passes s [] s
  | round {s s' : Scanner} {text after : Text} {sigil : Sigil} {inside rest : Text}
      {changed : Delimiters} {tokens : List Token}
      (hcut : Text.cut? s.delimiters.opening s.rest = some (text, after))
      (htag : (s.skip text after).ReadsTag sigil inside rest changed)
      (later : Passes ((s.skip text after).afterTag sigil inside rest changed) tokens s') :
      Passes s (textToken s.offset text ++
        .tag ((s.skip text after).rawTag sigil inside changed) :: tokens) s'

namespace Passes

/-- What is found behind the last of the tags. -/
lemma rounds_append (h : s.Passes tokens s') (hlater : s'.Rounds later failure d) :
    s.Rounds (tokens ++ later) failure d := by
  induction h with
  | done s => exact hlater
  | round hcut htag _ ih =>
    rw [List.append_assoc, List.cons_append]
    exact .round hcut htag (ih hlater)

lemma run_eq (h : s.Passes tokens s') :
    s.run = ⟨tokens ++ s'.run.tokens, s'.run.failure, s'.run.delimiters⟩ :=
  run_eq_of_rounds (h.rounds_append (rounds_run s'))

/-- What has been passed is read in the same way whatever follows it. -/
lemma exists_read (h : s.Passes tokens s') :
    ∃ read, s.rest = read ++ s'.rest ∧ s'.offset = s.offset + read.byteSize ∧
      ∀ rest, Passes { s with rest := read ++ rest } tokens { s' with rest } := by
  induction h with
  | done s => exact ⟨[], rfl, rfl, fun rest => .done _⟩
  | @round s s' text after sigil inside rest changed tokens hcut htag later ih =>
    obtain ⟨read, hrest, hoffset, hpasses⟩ := ih
    have hrest : rest = read ++ s'.rest := hrest
    let body := (s.skip text after).tagText sigil inside
    have hsource : s.rest = text ++ body ++ read ++ s'.rest := by
      rw [htag.eq_append hcut, hrest]
      simp only [body, List.append_assoc]
    refine ⟨text ++ body ++ read, hsource, ?_, ?_⟩
    · rw [hoffset]
      show s.offset + text.byteSize + body.byteSize + _ = _
      simp only [Text.byteSize_append, Nat.add_assoc]
    · intro rest'
      let s₀ : Scanner := { s with rest := text ++ body ++ read ++ rest' }
      have hrest₀ : s₀.rest = text ++ body ++ (read ++ rest') := List.append_assoc _ _ _
      obtain ⟨after₀, hcut₀, htag₀⟩ := htag.exists_cut?_eq hcut s₀ rfl hrest₀
      -- the tag does not depend on what the scanner has yet to read
      have hround := Passes.round hcut₀ htag₀ (hpasses rest')
      exact hround

end Passes

/-- A scan passes each of its tags. -/
lemma Rounds.exists_passes (h : s.Rounds tokens failure d)
    (htokens : tokens = front ++ .tag raw :: back) :
    ∃ s', s.Passes (front ++ [.tag raw]) s' ∧ s'.delimiters = raw.delimiters ∧
      s'.offset = raw.span.stop := by
  induction h generalizing front with
  | last s hcut => exact absurd (by simp [htokens]) (tag_notMem_textToken raw s.offset s.rest)
  | failed s text after error hcut hread =>
    exact absurd (by simp [htokens]) (tag_notMem_textToken raw s.offset text)
  | round hcut htag later ih =>
    rcases textToken_append_eq_append htokens with ⟨rfl, rfl, rfl⟩ | ⟨front', rfl, htokens'⟩
    · exact ⟨_, .round hcut htag (.done _), rfl, rfl⟩
    · obtain ⟨s', hpasses, hd, hstop⟩ := ih htokens'
      refine ⟨s', ?_, hd, hstop⟩
      rw [List.append_assoc, List.cons_append]
      exact .round hcut htag hpasses

end Scanner

open Scanner in
/-- A scan can be stopped behind each of its tags and taken up there: the tokens up to the tag are
those of the text up to there, without a failure and with the delimiters of the tag at the end, and
what follows is found in the rest with these delimiters, its offsets counted from the tag on. A text
that is appended to the source changes nothing up to the tag. -/
theorem scan_split {source : Text} {d : Delimiters} {front back : List Token} {raw : RawTag}
    (h : (scan source d).tokens = front ++ .tag raw :: back) :
    ∃ read rest, source = read ++ rest ∧ read.byteSize = raw.span.stop ∧
      scan read d = ⟨front ++ [.tag raw], none, raw.delimiters⟩ ∧
      scan source d =
        ⟨front ++ .tag raw :: (scan rest raw.delimiters).tokens.map (Token.shift raw.span.stop),
          (scan rest raw.delimiters).failure.map (ScanError.shift raw.span.stop),
          (scan rest raw.delimiters).delimiters⟩ ∧
      ∀ more, front ++ [.tag raw] <+: (scan (source ++ more) d).tokens := by
  obtain ⟨s', hpasses, hd, hstop⟩ := (rounds_run (.start source d)).exists_passes h
  obtain ⟨read, hsource, hoffset, hread⟩ := hpasses.exists_read
  have hsource : source = read ++ s'.rest := hsource
  have hsize : read.byteSize = raw.span.stop := by
    rw [← hstop, hoffset]
    exact (Nat.zero_add _).symm
  have hbehind : s' = (Scanner.start s'.rest raw.delimiters).shift raw.span.stop := by
    rw [← hd, ← hstop, Scanner.shift, start, Nat.zero_add]
  refine ⟨read, s'.rest, hsource, hsize, ?_, ?_, ?_⟩
  · -- behind the tag nothing is left
    have hend : ({ s' with rest := [] } : Scanner).run = ⟨[], none, raw.delimiters⟩ :=
      hd ▸ run_of_step_finished (by rw [step, if_pos rfl])
    have hall := (hread []).run_eq
    rw [hend, List.append_nil, List.append_nil] at hall
    exact hall
  · have hall := hpasses.run_eq
    rw [hbehind, run_shift, List.append_assoc, List.singleton_append] at hall
    exact hall
  · intro more
    have hall := (hread (s'.rest ++ more)).run_eq
    rw [← List.append_assoc, ← hsource] at hall
    rw [scan, start]
    exact hall ▸ List.prefix_append _ _

/-- Behind a delimiter change the rest is read with the new delimiters, in the source as alone. -/
theorem scan_split_changed :
    ∃ changed, Delimiters.make ['<', '%'] ['%', '>'] = .ok changed ∧
      (scan "a{{=<% %>=}}<%b%>{{c}}".toList .standard).tokens = [.text ⟨0, 1⟩] ++
        .tag ⟨.equals, ⟨4, 9⟩, ⟨1, 12⟩, changed⟩ ::
          [.tag ⟨.absent, ⟨14, 15⟩, ⟨12, 17⟩, changed⟩, .text ⟨17, 22⟩] ∧
      ∃ read rest, "a{{=<% %>=}}<%b%>{{c}}".toList = read ++ rest ∧ Text.byteSize read = 12 ∧
        scan read .standard =
          ⟨[.text ⟨0, 1⟩, .tag ⟨.equals, ⟨4, 9⟩, ⟨1, 12⟩, changed⟩], none, changed⟩ ∧
        (scan rest changed).tokens.map (Token.shift 12) =
          [.tag ⟨.absent, ⟨14, 15⟩, ⟨12, 17⟩, changed⟩, .text ⟨17, 22⟩] := by
  let changed : Delimiters := ⟨['<', '%'], ['%', '>'], delimiterError?_eq_none_iff.1 rfl,
    delimiterError?_eq_none_iff.1 rfl⟩
  have htokens : (scan "a{{=<% %>=}}<%b%>{{c}}".toList .standard).tokens = [.text ⟨0, 1⟩] ++
      .tag ⟨.equals, ⟨4, 9⟩, ⟨1, 12⟩, changed⟩ ::
        [.tag ⟨.absent, ⟨14, 15⟩, ⟨12, 17⟩, changed⟩, .text ⟨17, 22⟩] := by decide +kernel
  obtain ⟨read, rest, hsource, hsize, hread, hscan, -⟩ := scan_split htokens
  have hlater := congrArg Scan.tokens hscan
  rw [htokens, List.append_cancel_left_eq] at hlater
  exact ⟨changed, Delimiters.make_self changed, htokens, read, rest, hsource, hsize, hread,
    (List.cons.inj hlater).2.symm⟩

end Mustache
