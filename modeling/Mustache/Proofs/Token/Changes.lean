import Mustache.Proofs.Text.Words
import Mustache.Proofs.Token.Lossless
import Mustache.Proofs.Token.Restart

/-!
# Delimiter changes

A delimiter change names a pair of delimiters if its content holds just two words and both can be
delimiters. Then the pair is in effect behind the tag; otherwise the scan fails and keeps the pair
that it had, and nothing else that is read changes it. As no delimiter has a blank or an equals sign
in it, whatever the old pair and the new one have in common, a change that is written is read as it
was written.
-/

namespace Mustache

/-! ### Pairs and their names -/

namespace Delimiters

variable {first second content : Text} {d : Delimiters}

/-- The content of a tag names a pair: it holds the two delimiters as words, and no other word. -/
def NamedBy (d : Delimiters) (content : Text) : Prop := content.Spaced [d.opening, d.closing]

/-- What is wrong with the content of a delimiter change. -/
inductive Misnamed (content : Text) : DelimiterTagError → Prop
  /-- There are fewer words than two, or more. -/
  | arity {words : List Text} (h : content.Spaced words) (hne : words.length ≠ 2) :
      Misnamed content (.arity words.length)
  /-- The first word cannot be a delimiter. -/
  | opening {first second : Text} (h : content.Spaced [first, second]) (hfirst : '=' ∈ first) :
      Misnamed content (.invalid (.equals first))
  /-- The first word can be a delimiter, and the second cannot. -/
  | closing {first second : Text} (h : content.Spaced [first, second]) (hfirst : '=' ∉ first)
      (hsecond : '=' ∈ second) : Misnamed content (.invalid (.equals second))

/-- The pair as it is written in the content of a tag, with blanks between the two delimiters. -/
def written (d : Delimiters) (gap : Text) : Text := d.opening ++ gap ++ d.closing

/-- A delimiter change with `inside` between its equals signs. -/
def changeTag (d : Delimiters) (inside : Text) : Text :=
  d.opening ++ '=' :: inside ++ '=' :: d.closing

lemma isWord_opening (d : Delimiters) : d.opening.IsWord :=
  ⟨d.isDelimiter_opening.1, d.isDelimiter_opening.2.1⟩

lemma isWord_closing (d : Delimiters) : d.closing.IsWord :=
  ⟨d.isDelimiter_closing.1, d.isDelimiter_closing.2.1⟩

/-- Only an equals sign keeps a word from being a delimiter. -/
lemma delimiterError?_of_mem {t : Text} (h : t.IsWord) (hequals : '=' ∈ t) :
    delimiterError? t = some (.equals t) := by
  have hblank : ¬ t.any isBlank := by simpa using h.not_isBlank
  rw [delimiterError?, if_neg h.ne_nil, if_neg hblank, if_pos hequals]

lemma make_of_opening {e : DelimiterError} (h : delimiterError? first = some e) :
    make first second = .error e := by
  unfold make
  split <;> simp_all

lemma make_of_closing {e : DelimiterError} (hfirst : delimiterError? first = none)
    (h : delimiterError? second = some e) : make first second = .error e := by
  unfold make
  split <;> simp_all

lemma ofContent_of_words (h : content.words = [first, second]) :
    ofContent content = (make first second).mapError .invalid := by
  rw [ofContent, h]

lemma NamedBy.ofContent_eq (h : d.NamedBy content) : ofContent content = .ok d := by
  rw [ofContent_of_words h.words_eq, d.make_self]
  rfl

lemma Misnamed.ofContent_eq {reason : DelimiterTagError} (h : Misnamed content reason) :
    ofContent content = .error reason := by
  cases h with
  | arity h hne =>
    rw [ofContent, h.words_eq]
    split
    · next heq => exact absurd (by simp) hne
    · rfl
  | opening h hfirst =>
    obtain ⟨hword, -⟩ := List.forall_mem_cons.1 h.isWord
    rw [ofContent_of_words h.words_eq, make_of_opening (delimiterError?_of_mem hword hfirst)]
    rfl
  | closing h hfirst hsecond =>
    obtain ⟨hword, hword'⟩ := List.forall_mem_cons.1 h.isWord
    have hword' := List.forall_mem_singleton.1 hword'
    have hfirst' := delimiterError?_eq_none_iff.2 ⟨hword.1, hword.2, hfirst⟩
    have hsecond' := delimiterError?_of_mem hword' hsecond
    rw [ofContent_of_words h.words_eq, make_of_closing hfirst' hsecond']
    rfl

/-- A content names a pair, or there is something wrong with it. -/
lemma namedBy_or_misnamed (content : Text) :
    (∃ d : Delimiters, d.NamedBy content) ∨ ∃ reason, Misnamed content reason := by
  have hspaced : content.Spaced content.words := Text.words_eq_iff.1 rfl
  by_cases hlength : content.words.length = 2
  · obtain ⟨first, second, hwords⟩ := List.length_eq_two.1 hlength
    rw [hwords] at hspaced
    obtain ⟨hfirst, hsecond⟩ := List.forall_mem_cons.1 hspaced.isWord
    have hsecond := List.forall_mem_singleton.1 hsecond
    by_cases hequals : '=' ∈ first
    · exact .inr ⟨_, .opening hspaced hequals⟩
    by_cases hequals' : '=' ∈ second
    · exact .inr ⟨_, .closing hspaced hequals hequals'⟩
    · let d : Delimiters := ⟨first, second, ⟨hfirst.1, hfirst.2, hequals⟩,
        ⟨hsecond.1, hsecond.2, hequals'⟩⟩
      exact .inl ⟨d, hspaced⟩
  · exact .inr ⟨_, .arity hspaced hlength⟩

/-- A content is read as the pair that it names. -/
theorem ofContent_eq_ok_iff : ofContent content = .ok d ↔ d.NamedBy content := by
  refine ⟨fun h => ?_, NamedBy.ofContent_eq⟩
  rcases namedBy_or_misnamed content with ⟨d', hnamed⟩ | ⟨reason, hmisnamed⟩
  · rw [hnamed.ofContent_eq, Except.ok.injEq] at h
    exact h ▸ hnamed
  · simp [hmisnamed.ofContent_eq] at h

/-- A content that names no pair is rejected for what is wrong with it. -/
theorem ofContent_eq_error_iff {reason : DelimiterTagError} :
    ofContent content = .error reason ↔ Misnamed content reason := by
  refine ⟨fun h => ?_, Misnamed.ofContent_eq⟩
  rcases namedBy_or_misnamed content with ⟨d', hnamed⟩ | ⟨reason', hmisnamed⟩
  · simp [hnamed.ofContent_eq] at h
  · rw [hmisnamed.ofContent_eq, Except.error.injEq] at h
    exact h ▸ hmisnamed

end Delimiters

/-! ### Steps of a scanner -/

namespace Scanner

variable {s s' next : Scanner} {source inside rest : Text} {sigil : Sigil} {changed d : Delimiters}
  {token : Token} {tokens : List Token} {reason : DelimiterTagError}

/-- All that a scanner can find next. -/
inductive Next (s : Scanner) : Step → Prop
  | finished (h : s.rest = []) : Next s .finished
  | text {text rest : Text} (hrest : s.rest = text ++ rest) :
      Next s (.token (.text ⟨s.offset, s.offset + text.byteSize⟩)
        ⟨rest, s.offset + text.byteSize, s.delimiters⟩)
  | tag {sigil : Sigil} {inside rest : Text} {changed : Delimiters}
      (h : s.ReadsTag sigil inside rest changed) :
      Next s (.token (.tag (s.rawTag sigil inside changed)) (s.afterTag sigil inside rest changed))
  | unclosed (span : Span) (expected : Text) : Next s (.failed (.unclosedTag span expected))
  | misnamed {inside rest : Text} {reason : DelimiterTagError} (h : s.SpellsTag .equals inside rest)
      (hreason : Delimiters.ofContent inside.trim = .error reason) :
      Next s (.failed (.invalidDelimiters (s.rawTag .equals inside s.delimiters).span reason))

lemma next_readTag {after : Text} (hrest : s.rest = s.delimiters.opening ++ after) :
    s.Next (s.readTag after) := by
  cases hread : s.readTag after with
  | finished => exact absurd hread (readTag_ne_finished _ _)
  | token token next =>
    obtain ⟨sigil, inside, rest, changed, htag, rfl, rfl⟩ := exists_readsTag_of_readTag hrest hread
    exact .tag htag
  | failed error =>
    rcases failed_cases hrest hread with ⟨-, rfl⟩ | ⟨inside, rest, reason, hspells, hreason, rfl⟩
    · exact .unclosed _ _
    · exact .misnamed hspells hreason

lemma next_step (s : Scanner) : s.Next s.step := by
  cases hcut : Text.cut? s.delimiters.opening s.rest with
  | none =>
    by_cases hrest : s.rest = []
    · rw [step, if_pos hrest]
      exact .finished hrest
    · rw [step_of_cut?_none hrest hcut]
      exact .text (List.append_nil _).symm
  | some found =>
    obtain ⟨text, after⟩ := found
    have hrest := Text.eq_of_cut? hcut
    rw [List.append_assoc] at hrest
    by_cases hne : text = []
    · subst hne
      rw [step_of_cut?_nil hcut]
      exact next_readTag hrest
    · rw [step_of_cut?_text hne hcut]
      exact .text hrest

/-- Where a tag is spelled, the search for what closes it finds its end. -/
lemma SpellsTag.exists_after (h : s.SpellsTag sigil inside rest) :
    ∃ after, s.rest = s.delimiters.opening ++ after ∧ s.step = s.readTag after ∧
      Sigil.ofHead after = sigil ∧
      Text.cut? (sigil.closing s.delimiters) (after.drop sigil.text.length) =
        some (inside, rest) := by
  let after := sigil.text ++ inside ++ sigil.closing s.delimiters ++ rest
  have hrest : s.rest = s.delimiters.opening ++ after := by
    rw [h.rest_eq, tagText]
    simp only [after, List.append_assoc]
  have hsigil : Sigil.ofHead after = sigil := by
    rw [Sigil.ofHead_append (by simp [Sigil.closing_ne_nil]), h.sigil_eq]
  refine ⟨after, hrest, step_of_cut?_nil (hrest ▸ Text.cut?_append after), hsigil, ?_⟩
  simpa [after] using h.cut?_eq

lemma ReadsTag.step_eq (h : s.ReadsTag sigil inside rest changed) :
    s.step =
      .token (.tag (s.rawTag sigil inside changed)) (s.afterTag sigil inside rest changed) := by
  obtain ⟨after, hrest, hstep, -⟩ := h.toSpellsTag.exists_after
  rw [hstep, h.readTag_eq_token hrest]

lemma SpellsTag.step_eq_of_error (h : s.SpellsTag .equals inside rest)
    (hreason : Delimiters.ofContent inside.trim = .error reason) :
    s.step = .failed (.invalidDelimiters (s.rawTag .equals inside s.delimiters).span reason) := by
  obtain ⟨after, -, hstep, hsigil, hcut⟩ := h.exists_after
  rw [← hsigil] at hcut
  rw [hstep, readTag_eq hcut]
  simp only [hsigil, if_true, hreason]
  rfl

/-- A delimiter change is read as the pair that its content names, or the scan fails for what is
wrong with its content. -/
lemma SpellsTag.step_cases (h : s.SpellsTag .equals inside rest) :
    (∃ changed : Delimiters, changed.NamedBy inside.trim ∧ s.step =
      .token (.tag (s.rawTag .equals inside changed)) (s.afterTag .equals inside rest changed)) ∨
    ∃ reason, Delimiters.Misnamed inside.trim reason ∧ s.step =
      .failed (.invalidDelimiters (s.rawTag .equals inside s.delimiters).span reason) := by
  rcases Delimiters.namedBy_or_misnamed inside.trim with ⟨changed, hnamed⟩ | ⟨reason, hmisnamed⟩
  · have hreads : s.ReadsTag .equals inside rest changed := ⟨h, hnamed.ofContent_eq⟩
    exact .inl ⟨changed, hnamed, hreads.step_eq⟩
  · exact .inr ⟨reason, hmisnamed, h.step_eq_of_error hmisnamed.ofContent_eq⟩

/-! ### A change that is written -/

lemma tagText_equals (s : Scanner) (inside : Text) :
    s.tagText .equals inside = s.delimiters.changeTag inside := by
  simp [Delimiters.changeTag, tagText, Sigil.text, Sigil.closing]

lemma spellsTag_changeTag (hequals : '=' ∉ inside) (d : Delimiters) (rest : Text)
    (offset : Nat) :
    (⟨d.changeTag inside ++ rest, offset, d⟩ : Scanner).SpellsTag .equals inside rest where
  rest_eq := by rw [tagText_equals]
  sigil_eq := by simp [Sigil.text, Sigil.ofHead, Sigil.ofChar]
  cut?_eq := Text.cut?_append_of_notMem hequals

section
variable {front gap back : Text} (hfront : front.IsBlanks) (hgap : gap.IsBlanks)
  (hback : back.IsBlanks)

include hfront hgap hback

/-- What is written in a delimiter change has no equals sign in it. -/
lemma equals_notMem (changed : Delimiters) : '=' ∉ front ++ changed.written gap ++ back := by
  have hequals : ∀ t : Text, t.IsBlanks → '=' ∉ t := by
    intro t ht hmem
    exact absurd (ht '=' hmem) (by decide)
  simp [Delimiters.written, hequals front hfront, hequals gap hgap, hequals back hback,
    changed.isDelimiter_opening.2.2, changed.isDelimiter_closing.2.2]

/-- Only the blanks around the pair are trimmed off. -/
lemma trim_written (hne : gap ≠ []) (changed : Delimiters) :
    (front ++ changed.written gap ++ back).takeWhile isBlank = front ∧
      (front ++ changed.written gap ++ back).trim = changed.written gap ∧
      changed.NamedBy (changed.written gap) := by
  have hopening := changed.isWord_opening
  have hclosing := changed.isWord_closing
  have hnamed : changed.NamedBy (changed.written gap) :=
    Text.spaced_pair hopening hclosing hgap hne
  have hhead : ∀ more : Text, ∀ c ∈ (changed.written gap ++ more).head?, isBlank c = false := by
    intro more c hc
    obtain ⟨o, os, ho⟩ := List.exists_cons_of_ne_nil hopening.ne_nil
    obtain rfl : o = c := by simpa [Delimiters.written, ho] using hc
    exact hopening.not_isBlank o (by simp [ho])
  have hlast : ∀ c ∈ (changed.written gap).getLast?, isBlank c = false := by
    intro c hc
    rw [Delimiters.written, List.getLast?_append_of_ne_nil _ hclosing.ne_nil] at hc
    exact hclosing.not_isBlank c (List.mem_of_getLast? hc)
  refine ⟨?_, ?_, hnamed⟩
  · rw [List.append_assoc]
    exact Text.takeWhile_isBlank_append (hhead back) hfront
  · have hhead' := hhead []
    rw [List.append_nil] at hhead'
    exact Text.trim_append hhead' hfront hlast hback

/-- A delimiter change that is written is read as it was written. -/
lemma step_changeTag (hne : gap ≠ []) (d changed : Delimiters) (rest : Text) (offset : Nat) :
    let tag := d.changeTag (front ++ changed.written gap ++ back)
    let start := offset + (d.opening ++ '=' :: front).byteSize
    (⟨tag ++ rest, offset, d⟩ : Scanner).step =
      .token (.tag ⟨.equals, ⟨start, start + (changed.written gap).byteSize⟩,
        ⟨offset, offset + tag.byteSize⟩, changed⟩) ⟨rest, offset + tag.byteSize, changed⟩ := by
  intro tag start
  obtain ⟨hlead, htrim, hnamed⟩ := trim_written hfront hgap hback hne changed
  have hspells := spellsTag_changeTag (equals_notMem hfront hgap hback changed) d rest offset
  have hreads : (⟨tag ++ rest, offset, d⟩ : Scanner).ReadsTag .equals _ rest changed :=
    ⟨hspells, (congrArg Delimiters.ofContent htrim).trans hnamed.ofContent_eq⟩
  have htag := tagText_equals ⟨tag ++ rest, offset, d⟩ (front ++ changed.written gap ++ back)
  have hstart : offset + (d.opening ++ Sigil.equals.text).byteSize + front.byteSize = start := by
    simp [start, Sigil.text, Nat.add_assoc]
  have hstep := hreads.step_eq
  simp only [rawTag, afterTag, hlead, htrim, htag, hstart] at hstep
  exact hstep

end

/-! ### Whole scans -/

/-- The tokens are found one after the other, and the scanner comes from the one position to the
other. -/
inductive Reads : Scanner → List Token → Scanner → Prop
  | done (s : Scanner) : Reads s [] s
  | token {s next s' : Scanner} {token : Token} {tokens : List Token}
      (h : s.step = .token token next) (later : Reads next tokens s') :
      Reads s (token :: tokens) s'

/-- The scanner has read the source up to its offset. -/
def StandsIn (s : Scanner) (source : Text) : Prop :=
  ∃ read, source = read ++ s.rest ∧ s.offset = read.byteSize

lemma standsIn_start (source : Text) (d : Delimiters) : (start source d).StandsIn source :=
  ⟨[], rfl, rfl⟩

lemma StandsIn.move {part : Text} (h : s.StandsIn source) (hrest : s.rest = part ++ next.rest)
    (hoffset : next.offset = s.offset + part.byteSize) : next.StandsIn source := by
  obtain ⟨read, hsource, hread⟩ := h
  refine ⟨read ++ part, ?_, ?_⟩
  · rw [hsource, hrest, List.append_assoc]
  · rw [hoffset, hread, Text.byteSize_append]

lemma StandsIn.of_step (h : s.StandsIn source) (hstep : s.step = .token token next) :
    next.StandsIn source := by
  have hnext := next_step s
  rw [hstep] at hnext
  cases hnext with
  | text hrest => exact h.move hrest rfl
  | tag htag => exact h.move htag.rest_eq rfl

lemma Reads.standsIn (h : s.Reads tokens s') (hstands : s.StandsIn source) :
    s'.StandsIn source := by
  induction h with
  | done s => exact hstands
  | token hstep _ ih => exact ih (hstands.of_step hstep)

/-- What a scanner may find in a source, by what happens to its delimiters. -/
inductive Finds (source : Text) (s : Scanner) : Step → Prop
  | finished : Finds source s .finished
  | text {span : Span} {next : Scanner} (h : next.delimiters = s.delimiters) :
      Finds source s (.token (.text span) next)
  | tag {raw : RawTag} {next : Scanner} (hsigil : raw.sigil ≠ .equals)
      (h : next.delimiters = s.delimiters) : Finds source s (.token (.tag raw) next)
  /-- A delimiter change names the pair that is in effect behind it. -/
  | change {raw : RawTag} {next : Scanner} (hsigil : raw.sigil = .equals)
      (h : next.delimiters.NamedBy (raw.content.slice source)) :
      Finds source s (.token (.tag raw) next)
  | unclosed {span : Span} {expected : Text} : Finds source s (.failed (.unclosedTag span expected))
  /-- A delimiter change that names no pair is told what is wrong with it. -/
  | misnamed {raw : RawTag} {reason : DelimiterTagError} (hsigil : raw.sigil = .equals)
      (parts : TagParts source s.delimiters raw)
      (h : Delimiters.Misnamed (raw.content.slice source) reason) :
      Finds source s (.failed (.invalidDelimiters raw.span reason))

lemma finds_step (h : s.StandsIn source) : s.Finds source s.step := by
  obtain ⟨read, hsource, hoffset⟩ := h
  have hnext := next_step s
  generalize s.step = found at hnext ⊢
  cases hnext with
  | finished hrest => exact .finished
  | text hrest => exact .text rfl
  | unclosed span expected => exact .unclosed
  | @tag sigil inside rest changed htag =>
    have hchanged := htag.changed_eq
    by_cases hequals : sigil = .equals
    · obtain ⟨parts, hcontent⟩ := htag.toSpellsTag.exists_tagParts hsource hoffset changed
      rw [if_pos hequals, Delimiters.ofContent_eq_ok_iff, ← hcontent, ← parts.slice_content]
        at hchanged
      exact .change hequals hchanged
    · rw [if_neg hequals] at hchanged
      exact .tag hequals hchanged
  | misnamed hspells hreason =>
    obtain ⟨parts, hcontent⟩ := hspells.exists_tagParts hsource hoffset s.delimiters
    rw [Delimiters.ofContent_eq_error_iff, ← hcontent, ← parts.slice_content] at hreason
    exact .misnamed rfl parts hreason

/-- The delimiters in effect behind tokens: those that the last delimiter change among them names,
or `d` if there is none. -/
inductive InEffect (source : Text) (d : Delimiters) : List Token → Delimiters → Prop
  | unchanged {tokens : List Token} (h : ∀ raw, .tag raw ∈ tokens → raw.sigil ≠ .equals) :
      InEffect source d tokens d
  | changed {front back : List Token} {raw : RawTag} {changed : Delimiters}
      (hsigil : raw.sigil = .equals) (h : changed.NamedBy (raw.content.slice source))
      (hback : ∀ raw, .tag raw ∈ back → raw.sigil ≠ .equals) :
      InEffect source d (front ++ .tag raw :: back) changed

namespace InEffect

lemma cons_keep (h : InEffect source d tokens changed)
    (hkeep : ∀ raw, token = .tag raw → raw.sigil ≠ .equals) :
    InEffect source d (token :: tokens) changed := by
  cases h with
  | unchanged h =>
    refine .unchanged fun raw hraw => ?_
    rcases List.mem_cons.1 hraw with rfl | hraw
    · exact hkeep raw rfl
    · exact h raw hraw
  | @changed front back raw changed hsigil h hback =>
    rw [← List.cons_append]
    exact .changed hsigil h hback

lemma cons_change {raw : RawTag} {named : Delimiters} (h : InEffect source named tokens changed)
    (hsigil : raw.sigil = .equals) (hnamed : named.NamedBy (raw.content.slice source)) :
    InEffect source d (.tag raw :: tokens) changed := by
  cases h with
  | unchanged h =>
    rw [← List.nil_append (_ :: _)]
    exact .changed hsigil hnamed h
  | @changed front back raw' changed hsigil' h hback =>
    rw [← List.cons_append]
    exact .changed hsigil' h hback

end InEffect

/-- A scan has the delimiters in effect that its tokens tell. -/
lemma Reads.inEffect (h : s.Reads tokens s') (hstands : s.StandsIn source) :
    InEffect source s.delimiters tokens s'.delimiters := by
  induction h with
  | done s => exact .unchanged (by simp)
  | @token s next s' token tokens hstep _ ih =>
    have hlater := ih (hstands.of_step hstep)
    have hfinds := finds_step hstands
    rw [hstep] at hfinds
    cases hfinds with
    | text hsame =>
      rw [hsame] at hlater
      exact hlater.cons_keep (by simp)
    | tag hsigil hsame =>
      rw [hsame] at hlater
      refine hlater.cons_keep fun raw hraw => ?_
      rwa [← Token.tag.inj hraw]
    | change hsigil hnamed => exact hlater.cons_change hsigil hnamed

/-- A scan reads its tokens up to where nothing is left or the scan fails. -/
lemma exists_reads_run (s : Scanner) : ∃ s', s.Reads s.run.tokens s' ∧
    s'.delimiters = s.run.delimiters ∧
    s'.step = match s.run.failure with
      | none       => .finished
      | some error => .failed error := by
  cases hstep : s.step with
  | finished =>
    rw [run_of_step_finished hstep]
    exact ⟨s, .done s, rfl, hstep⟩
  | failed error =>
    rw [run_of_step_failed hstep]
    exact ⟨s, .done s, rfl, hstep⟩
  | token token next =>
    obtain ⟨s', hreads, hsame, hend⟩ := exists_reads_run next
    rw [run_of_step_token hstep]
    exact ⟨s', .token hstep hreads, hsame, hend⟩
termination_by s.rest.length
decreasing_by exact length_rest_lt hstep

/-- What is found behind a delimiter change is found in the rest with the new delimiters. -/
lemma run_of_step_at {offset : Nat} (h : s.step = .token token ⟨rest, offset, changed⟩) :
    let behind := scan rest changed
    s.run = ⟨token :: behind.tokens.map (Token.shift offset),
      behind.failure.map (ScanError.shift offset), behind.delimiters⟩ := by
  intro behind
  have hbehind : (⟨rest, offset, changed⟩ : Scanner) = (start rest changed).shift offset := by
    rw [shift, start, Nat.zero_add]
  rw [run_of_step_token h, hbehind, run_shift]
  rfl

end Scanner

open Scanner in
/-- A delimiter change that is written, whatever the two pairs are, is read as one tag that covers
it, and the pair written in it is in effect behind it. Whatever a scan has read, the pair in effect
is a valid one, that of the last delimiter change or the one at the start; the next step changes it
only at a delimiter change, whose content then holds just the two new delimiters as words. Where a
delimiter change is spelled, any other content is rejected for what is wrong with it, and the pair
is kept. A whole scan is such a sequence of steps. -/
theorem step_changeTag_and_reads :
    (∀ (d changed : Delimiters) (front gap back rest : Text), front.IsBlanks → gap.IsBlanks →
      gap ≠ [] → back.IsBlanks →
        let tag := d.changeTag (front ++ changed.written gap ++ back)
        let raw (offset : Nat) : RawTag :=
          let start := offset + (d.opening ++ '=' :: front).byteSize
          ⟨.equals, ⟨start, start + (changed.written gap).byteSize⟩,
            ⟨offset, offset + tag.byteSize⟩, changed⟩
        (∀ offset, step ⟨tag ++ rest, offset, d⟩ =
          .token (.tag (raw offset)) ⟨rest, offset + tag.byteSize, changed⟩) ∧
        scan (tag ++ rest) d =
          ⟨.tag (raw 0) :: (scan rest changed).tokens.map (Token.shift tag.byteSize),
            (scan rest changed).failure.map (ScanError.shift tag.byteSize),
            (scan rest changed).delimiters⟩) ∧
    ∀ (source : Text) (d : Delimiters),
      (∃ s, Reads (start source d) (scan source d).tokens s ∧
        s.delimiters = (scan source d).delimiters ∧
        s.step = match (scan source d).failure with
          | none       => .finished
          | some error => .failed error) ∧
      ∀ (tokens : List Token) (s : Scanner), Reads (start source d) tokens s →
        (IsDelimiter s.delimiters.opening ∧ IsDelimiter s.delimiters.closing) ∧
        InEffect source d tokens s.delimiters ∧
        s.Finds source s.step ∧
        (∀ error, s.step = .failed error → s.run = ⟨[], some error, s.delimiters⟩) ∧
        ∀ inside rest, s.SpellsTag .equals inside rest →
          (∃ changed : Delimiters, changed.NamedBy inside.trim ∧ s.step =
            .token (.tag (s.rawTag .equals inside changed))
              (s.afterTag .equals inside rest changed)) ∨
          ∃ reason, Delimiters.Misnamed inside.trim reason ∧ s.step =
            .failed (.invalidDelimiters (s.rawTag .equals inside s.delimiters).span reason) := by
  refine ⟨?_, fun source d => ⟨exists_reads_run (start source d), ?_⟩⟩
  · intro d changed front gap back rest hfront hgap hne hback tag raw
    have hstep : ∀ offset, step ⟨tag ++ rest, offset, d⟩ =
        .token (.tag (raw offset)) ⟨rest, offset + tag.byteSize, changed⟩ :=
      step_changeTag hfront hgap hback hne d changed rest
    have hstart := hstep 0
    rw [Nat.zero_add] at hstart
    exact ⟨hstep, run_of_step_at hstart⟩
  · intro tokens s hreads
    have hstands := standsIn_start source d
    exact ⟨⟨s.delimiters.isDelimiter_opening, s.delimiters.isDelimiter_closing⟩,
      hreads.inEffect hstands, finds_step (hreads.standsIn hstands),
      fun error => run_of_step_failed, fun inside rest => SpellsTag.step_cases⟩

open Scanner in
/-- New delimiters that hold the old ones, and three words in place of two. -/
theorem step_changeTag_pointed :
    ∃ d changed, Delimiters.make ['<'] ['>'] = .ok d ∧
      Delimiters.make ['>', '<'] ['<'] = .ok changed ∧
      scan "<=>< <=>><a<".toList d =
        ⟨[.tag ⟨.equals, ⟨2, 6⟩, ⟨0, 8⟩, changed⟩, .tag ⟨.absent, ⟨10, 11⟩, ⟨8, 12⟩, changed⟩],
          none, changed⟩ ∧
      InEffect "<=>< <=>><a<".toList d
        [.tag ⟨.equals, ⟨2, 6⟩, ⟨0, 8⟩, changed⟩, .tag ⟨.absent, ⟨10, 11⟩, ⟨8, 12⟩, changed⟩]
        changed ∧
      SpellsTag (start "<=a b c=>".toList d) .equals "a b c".toList [] ∧
      ∃ reason, Delimiters.Misnamed "a b c".toList reason ∧
        step (start "<=a b c=>".toList d) = .failed (.invalidDelimiters ⟨0, 9⟩ reason) := by
  let d : Delimiters := ⟨['<'], ['>'], delimiterError?_eq_none_iff.1 rfl,
    delimiterError?_eq_none_iff.1 rfl⟩
  let changed : Delimiters := ⟨['>', '<'], ['<'], delimiterError?_eq_none_iff.1 rfl,
    delimiterError?_eq_none_iff.1 rfl⟩
  have hblank : Text.IsBlanks [' '] := Text.isBlanks_nil.cons (by decide)
  have hrest : scan "><a<".toList changed =
      ⟨[.tag ⟨.absent, ⟨2, 3⟩, ⟨0, 4⟩, changed⟩], none, changed⟩ := by decide +kernel
  have hscan := (step_changeTag_and_reads.1 d changed [] [' '] [] "><a<".toList Text.isBlanks_nil
    hblank (by simp) Text.isBlanks_nil).2
  rw [hrest] at hscan
  have hsource : d.changeTag ([] ++ changed.written [' '] ++ []) ++ "><a<".toList =
      "<=>< <=>><a<".toList := by decide +kernel
  rw [hsource] at hscan
  obtain ⟨⟨s, hreads, hsame, -⟩, hall⟩ := step_changeTag_and_reads.2 "<=>< <=>><a<".toList d
  have heffect := (hall _ s hreads).2.1
  rw [hsame, hscan] at heffect
  have hspells : SpellsTag (start "<=a b c=>".toList d) .equals "a b c".toList [] :=
    ⟨by decide +kernel, by decide +kernel, by decide +kernel⟩
  refine ⟨d, changed, d.make_self, changed.make_self, hscan, heffect, hspells, ?_⟩
  have hstart := (step_changeTag_and_reads.2 "<=a b c=>".toList d).2 [] _ (.done _)
  rcases hstart.2.2.2.2 _ _ hspells with ⟨named, hnamed, -⟩ | ⟨reason, hmisnamed, hstep⟩
  · have hwords : Text.words "a b c".toList = [['a'], ['b'], ['c']] := by decide +kernel
    have htrim : Text.trim "a b c".toList = "a b c".toList := by decide +kernel
    rw [htrim] at hnamed
    have hlength := congrArg List.length (hnamed.words_eq.symm.trans hwords)
    exact absurd hlength (by simp)
  · exact ⟨reason, hmisnamed, hstep⟩

end Mustache
