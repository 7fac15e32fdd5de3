import Mathlib.Tactic.Common
import Mustache.Proofs.Text.Offsets
import Mustache.Proofs.Text.Search
import Mustache.Token.Scanner

/-!
# The rounds of a scan

A scan goes in rounds: literal text up to the next opening delimiter, if there is any, and the tag
that starts there. The last round has no tag, or one that cannot be read. `Scanner.Rounds` is the
scan told in this way, and `Scanner.ReadsTag` says what it is to read one tag.
-/

namespace Mustache

/-- The token for a run of literal text; none if the run is empty. -/
def textToken (offset : Nat) (text : Text) : List Token :=
  if text = [] then [] else [.text ⟨offset, offset + text.byteSize⟩]

@[simp] lemma textToken_nil (offset : Nat) : textToken offset [] = [] := rfl

lemma textToken_of_ne_nil {offset : Nat} {text : Text} (h : text ≠ []) :
    textToken offset text = [.text ⟨offset, offset + text.byteSize⟩] := if_neg h

lemma tag_notMem_textToken (raw : RawTag) (offset : Nat) (text : Text) :
    .tag raw ∉ textToken offset text := by
  rw [textToken]
  split <;> simp

/-- The tag that a token is. -/
def Token.tag? : Token → Option RawTag
  | .text _  => none
  | .tag raw => some raw

/-- The tags among tokens. -/
def tagsOf (tokens : List Token) : List RawTag := tokens.filterMap Token.tag?

@[simp] lemma tagsOf_textToken (offset : Nat) (text : Text) (tokens : List Token) :
    tagsOf (textToken offset text ++ tokens) = tagsOf tokens := by
  by_cases h : text = []
  · rw [h, textToken_nil, List.nil_append]
  · rw [textToken_of_ne_nil h]
    rfl

@[simp] lemma tagsOf_tag (raw : RawTag) (tokens : List Token) :
    tagsOf (.tag raw :: tokens) = raw :: tagsOf tokens := rfl

lemma mem_tagsOf {raw : RawTag} {tokens : List Token} :
    raw ∈ tagsOf tokens ↔ .tag raw ∈ tokens := by
  rw [tagsOf, List.mem_filterMap]
  constructor
  · rintro ⟨token, hmem, htoken⟩
    cases token with
    | text span => simp [Token.tag?] at htoken
    | tag raw' =>
      obtain rfl : raw' = raw := Option.some.inj htoken
      exact hmem
  · intro h
    exact ⟨.tag raw, h, rfl⟩

namespace Scanner

variable {s next : Scanner} {text after inside : Text} {raw : RawTag} {tokens : List Token}
  {failure : Option ScanError} {d : Delimiters}

/-- The scanner in front of a tag, when `text` has been read and `after` follows the opening
delimiter. -/
def skip (s : Scanner) (text after : Text) : Scanner :=
  { s with rest := s.delimiters.opening ++ after, offset := s.offset + text.byteSize }

/-- All characters of a tag that is read at `s`. -/
def tagText (s : Scanner) (sigil : Sigil) (inside : Text) : Text :=
  s.delimiters.opening ++ sigil.text ++ inside ++ sigil.closing s.delimiters

/-- The tag with `inside` between its sigil and what closes it, read at `s`. -/
def rawTag (s : Scanner) (sigil : Sigil) (inside : Text) (changed : Delimiters) : RawTag where
  sigil
  content :=
    let start := s.offset + (s.delimiters.opening ++ sigil.text).byteSize +
      Text.byteSize (inside.takeWhile isBlank)
    ⟨start, start + inside.trim.byteSize⟩
  span := ⟨s.offset, s.offset + (s.tagText sigil inside).byteSize⟩
  delimiters := changed

/-- The scanner behind a tag that was read at `s`. -/
def afterTag (s : Scanner) (sigil : Sigil) (inside rest : Text) (changed : Delimiters) : Scanner :=
  ⟨rest, s.offset + (s.tagText sigil inside).byteSize, changed⟩

/-- At `s` stands a tag with `inside` between its sigil and what closes it; `rest` follows the
tag. -/
structure SpellsTag (s : Scanner) (sigil : Sigil) (inside rest : Text) : Prop where
  rest_eq : s.rest = s.tagText sigil inside ++ rest
  sigil_eq : Sigil.ofHead (sigil.text ++ inside ++ sigil.closing s.delimiters) = sigil
  cut?_eq : Text.cut? (sigil.closing s.delimiters)
    (inside ++ sigil.closing s.delimiters ++ rest) = some (inside, rest)

/-- At `s` a tag is read, behind which the delimiters `changed` are in effect. -/
structure ReadsTag (s : Scanner) (sigil : Sigil) (inside rest : Text) (changed : Delimiters) :
    Prop extends s.SpellsTag sigil inside rest where
  changed_eq : if sigil = .equals then Delimiters.ofContent inside.trim = .ok changed
    else changed = s.delimiters

end Scanner

namespace Sigil

lemma closing_ne_nil (sigil : Sigil) (d : Delimiters) : sigil.closing d ≠ [] := by
  have := d.isDelimiter_closing.1
  cases sigil <;> simp [closing, this]

/-- What a sigil reads does not depend on the text behind the tag. -/
lemma ofHead_append {t : Text} (ht : t ≠ []) (u : Text) : ofHead (t ++ u) = ofHead t := by
  cases t with
  | nil => exact absurd rfl ht
  | cons c cs => rfl

/-- The last character of a delimiter is not blank. -/
lemma exists_closing_eq_append (sigil : Sigil) (d : Delimiters) :
    ∃ (t : Text) (c : Char), sigil.closing d = t ++ [c] ∧ isBlank c = false := by
  obtain ⟨hne, hblank, -⟩ := d.isDelimiter_closing
  obtain ⟨t, c, hd⟩ := (List.eq_nil_or_concat d.closing).resolve_left hne
  have hc : isBlank c = false := hblank c (by simp [hd])
  cases sigil with
  | brace => exact ⟨'\x7d' :: t, c, by simp [closing, hd], hc⟩
  | equals => exact ⟨'=' :: t, c, by simp [closing, hd], hc⟩
  | _ => exact ⟨t, c, hd.trans List.concat_eq_append, hc⟩

end Sigil

namespace Scanner

variable {s next : Scanner} {text after inside : Text} {raw : RawTag} {tokens : List Token}
  {failure : Option ScanError} {d : Delimiters}

lemma readTag_ne_finished (s : Scanner) (after : Text) : s.readTag after ≠ .finished := by
  rw [readTag]
  intro h
  simp only at h
  split at h
  · simp at h
  · split at h
    · split at h <;> simp at h
    · simp at h

/-- `readTag` told with `rawTag` and `afterTag`. -/
lemma readTag_eq {rest : Text} (hcut : Text.cut? ((Sigil.ofHead after).closing s.delimiters)
      (after.drop (Sigil.ofHead after).text.length) = some (inside, rest)) :
    s.readTag after =
      let sigil := Sigil.ofHead after
      let read (changed : Delimiters) : Step :=
        .token (.tag (s.rawTag sigil inside changed)) (s.afterTag sigil inside rest changed)
      if sigil = .equals then
        match Delimiters.ofContent inside.trim with
        | .error reason =>
          .failed (.invalidDelimiters
            ⟨s.offset, s.offset + (s.tagText sigil inside).byteSize⟩ reason)
        | .ok changed => read changed
      else read s.delimiters := by
  by_cases hequals : Sigil.ofHead after = .equals
  · cases hchanged : Delimiters.ofContent inside.trim with
    | error reason =>
      simp only [readTag, hcut, if_pos hequals, hchanged, tagText, Text.byteSize_append,
        Nat.add_assoc]
    | ok changed =>
      simp only [readTag, hcut, if_pos hequals, hchanged, rawTag, afterTag, tagText,
        Text.byteSize_append, Nat.add_assoc]
  · simp only [readTag, hcut, if_neg hequals, rawTag, afterTag, tagText, Text.byteSize_append,
      Nat.add_assoc]

/-- Where the search for what closes a tag succeeds, a tag is spelled. -/
lemma spellsTag_of_cut? {rest : Text} (hrest : s.rest = s.delimiters.opening ++ after)
    (hcut : Text.cut? ((Sigil.ofHead after).closing s.delimiters)
      (after.drop (Sigil.ofHead after).text.length) = some (inside, rest)) :
    s.SpellsTag (Sigil.ofHead after) inside rest := by
  have hdrop := Text.eq_of_cut? hcut
  have hafter : after = (Sigil.ofHead after).text ++
      (inside ++ (Sigil.ofHead after).closing s.delimiters ++ rest) := by
    conv_lhs => rw [← Sigil.text_ofHead_append after, hdrop]
  constructor
  · rw [hrest, tagText]
    conv_lhs => rw [hafter]
    simp
  · have hne : (Sigil.ofHead after).text ++ inside ++
        (Sigil.ofHead after).closing s.delimiters ≠ [] := by simp [Sigil.closing_ne_nil]
    rw [← Sigil.ofHead_append hne rest]
    conv_rhs => rw [hafter]
    simp
  · exact hdrop ▸ hcut

/-- A token that `readTag` returns is a tag that is read. -/
lemma exists_readsTag_of_readTag {token : Token} (hrest : s.rest = s.delimiters.opening ++ after)
    (h : s.readTag after = .token token next) :
    ∃ sigil inside rest changed, s.ReadsTag sigil inside rest changed ∧
      token = .tag (s.rawTag sigil inside changed) ∧
      next = s.afterTag sigil inside rest changed := by
  cases hcut : Text.cut? ((Sigil.ofHead after).closing s.delimiters)
      (after.drop (Sigil.ofHead after).text.length) with
  | none => simp [readTag, hcut] at h
  | some found =>
    obtain ⟨inside, rest⟩ := found
    rw [readTag_eq hcut] at h
    simp only at h
    split at h
    · next hequals =>
      split at h
      · simp at h
      · next changed hchanged =>
        rw [Step.token.injEq] at h
        have hreads : s.ReadsTag (Sigil.ofHead after) inside rest changed :=
          ⟨spellsTag_of_cut? hrest hcut, by rw [if_pos hequals, hchanged]⟩
        exact ⟨_, _, _, _, hreads, h.1.symm, h.2.symm⟩
    · next hequals =>
      rw [Step.token.injEq] at h
      have hreads : s.ReadsTag (Sigil.ofHead after) inside rest s.delimiters :=
        ⟨spellsTag_of_cut? hrest hcut, by rw [if_neg hequals]⟩
      exact ⟨_, _, _, _, hreads, h.1.symm, h.2.symm⟩

/-- A tag that is read is the token that `readTag` returns. -/
lemma ReadsTag.readTag_eq_token {sigil : Sigil} {rest : Text} {changed : Delimiters}
    (h : s.ReadsTag sigil inside rest changed) (hrest : s.rest = s.delimiters.opening ++ after) :
    s.readTag after =
      .token (.tag (s.rawTag sigil inside changed)) (s.afterTag sigil inside rest changed) := by
  have hafter : after = sigil.text ++ inside ++ sigil.closing s.delimiters ++ rest := by
    have := h.rest_eq
    simp only [hrest, tagText, List.append_assoc, List.append_cancel_left_eq] at this
    simpa using this
  have hsigil : Sigil.ofHead after = sigil := by
    rw [hafter, Sigil.ofHead_append (by simp [Sigil.closing_ne_nil]), h.sigil_eq]
  have hcut : Text.cut? ((Sigil.ofHead after).closing s.delimiters)
      (after.drop (Sigil.ofHead after).text.length) = some (inside, rest) := by
    rw [hsigil, hafter]
    simpa using h.cut?_eq
  have hchanged := h.changed_eq
  rw [readTag_eq hcut, hsigil]
  by_cases hequals : sigil = .equals
  · rw [if_pos hequals] at hchanged
    simp only [if_pos hequals, hchanged]
  · rw [if_neg hequals] at hchanged
    simp only [if_neg hequals, hchanged]

/-- The parts of the unread text around a tag that is read. -/
lemma ReadsTag.eq_append {sigil : Sigil} {rest : Text} {changed : Delimiters}
    (h : (s.skip text after).ReadsTag sigil inside rest changed)
    (hcut : Text.cut? s.delimiters.opening s.rest = some (text, after)) :
    s.rest = text ++ (s.skip text after).tagText sigil inside ++ rest := by
  rw [List.append_assoc, ← h.rest_eq, Text.eq_of_cut? hcut, List.append_assoc]
  rfl

lemma ReadsTag.length_rest_lt {sigil : Sigil} {rest : Text} {changed : Delimiters}
    (h : s.ReadsTag sigil inside rest changed) : rest.length < s.rest.length := by
  have := List.length_pos_iff.2 s.delimiters.opening_ne_nil
  simp only [h.rest_eq, tagText, List.length_append]
  omega

lemma offset_lt_afterTag (s : Scanner) (sigil : Sigil) (inside rest : Text)
    (changed : Delimiters) : s.offset < (s.afterTag sigil inside rest changed).offset := by
  have := Text.byteSize_pos s.delimiters.opening_ne_nil
  simp only [afterTag, tagText, Text.byteSize_append]
  omega

lemma length_rest_skip_le (h : Text.cut? s.delimiters.opening s.rest = some (text, after)) :
    (s.skip text after).rest.length ≤ s.rest.length := by
  simp [skip, Text.eq_of_cut? h]

/-! ### Rounds -/

/-- What is found from a position on, in rounds. -/
inductive Rounds : Scanner → List Token → Option ScanError → Delimiters → Prop
  /-- No tag is left. -/
  | last (s : Scanner) (hcut : Text.cut? s.delimiters.opening s.rest = none) :
      Rounds s (textToken s.offset s.rest) none s.delimiters
  /-- The next tag cannot be read. -/
  | failed (s : Scanner) (text after : Text) (error : ScanError)
      (hcut : Text.cut? s.delimiters.opening s.rest = some (text, after))
      (hread : (s.skip text after).readTag after = .failed error) :
      Rounds s (textToken s.offset text) (some error) s.delimiters
  /-- The next tag is read. -/
  | round {s : Scanner} {text after : Text} {sigil : Sigil} {inside rest : Text}
      {changed d : Delimiters} {tokens : List Token} {failure : Option ScanError}
      (hcut : Text.cut? s.delimiters.opening s.rest = some (text, after))
      (htag : (s.skip text after).ReadsTag sigil inside rest changed)
      (later : Rounds ((s.skip text after).afterTag sigil inside rest changed) tokens failure d) :
      Rounds s (textToken s.offset text ++
        .tag ((s.skip text after).rawTag sigil inside changed) :: tokens) failure d

lemma run_of_step_finished (h : s.step = .finished) : s.run = ⟨[], none, s.delimiters⟩ := by
  rw [run]
  split <;> simp_all

lemma run_of_step_failed {error : ScanError} (h : s.step = .failed error) :
    s.run = ⟨[], some error, s.delimiters⟩ := by
  rw [run]
  split <;> simp_all

lemma run_of_step_token {token : Token} (h : s.step = .token token next) :
    s.run = ⟨token :: next.run.tokens, next.run.failure, next.run.delimiters⟩ := by
  rw [run]
  split <;> simp_all

lemma step_of_cut?_none (hne : s.rest ≠ []) (h : Text.cut? s.delimiters.opening s.rest = none) :
    s.step = s.readText s.rest [] := by
  rw [step, if_neg hne, h]

lemma step_of_cut?_nil (h : Text.cut? s.delimiters.opening s.rest = some ([], after)) :
    s.step = s.readTag after := by
  have hne : s.rest ≠ [] := by
    rw [Text.eq_of_cut? h]
    simp [s.delimiters.opening_ne_nil]
  rw [step, if_neg hne, h]

lemma step_of_cut?_text (hne : text ≠ [])
    (h : Text.cut? s.delimiters.opening s.rest = some (text, after)) :
    s.step = .token (.text ⟨s.offset, s.offset + text.byteSize⟩) (s.skip text after) := by
  have hne' : s.rest ≠ [] := by
    rw [Text.eq_of_cut? h]
    simp [s.delimiters.opening_ne_nil]
  rw [step, if_neg hne', h]
  cases text with
  | nil => exact absurd rfl hne
  | cons c cs => rfl

/-- The text in front of a tag is one step. -/
lemma run_of_cut?_some (h : Text.cut? s.delimiters.opening s.rest = some (text, after)) :
    s.run = ⟨textToken s.offset text ++ (s.skip text after).run.tokens,
      (s.skip text after).run.failure, (s.skip text after).run.delimiters⟩ := by
  by_cases hne : text = []
  · subst hne
    have hskip : s.skip [] after = s := by
      have hrest := Text.eq_of_cut? h
      rw [List.nil_append] at hrest
      simp [skip, ← hrest]
    simp [hskip]
  · rw [run_of_step_token (step_of_cut?_text hne h), textToken_of_ne_nil hne]
    rfl

lemma step_skip : (s.skip text after).step = (s.skip text after).readTag after :=
  step_of_cut?_nil (Text.cut?_append after)

lemma run_of_cut?_none (h : Text.cut? s.delimiters.opening s.rest = none) :
    s.run = ⟨textToken s.offset s.rest, none, s.delimiters⟩ := by
  by_cases hne : s.rest = []
  · rw [run_of_step_finished (by rw [step, if_pos hne]), hne, textToken_nil]
  · have hlast : ({ s with rest := [], offset := s.offset + s.rest.byteSize } : Scanner).run =
        ⟨[], none, s.delimiters⟩ := run_of_step_finished (by rw [step, if_pos rfl])
    rw [run_of_step_token (step_of_cut?_none hne h), hlast, textToken_of_ne_nil hne]

/-- The rounds are what the scanner finds. -/
theorem run_eq_of_rounds (h : Rounds s tokens failure d) : s.run = ⟨tokens, failure, d⟩ := by
  induction h with
  | last s hcut => exact run_of_cut?_none hcut
  | failed s text after error hcut hread =>
    rw [run_of_cut?_some hcut, run_of_step_failed (step_skip.trans hread)]
    simp [skip]
  | round hcut htag later ih =>
    have hread := htag.readTag_eq_token rfl
    rw [run_of_cut?_some hcut, run_of_step_token (step_skip.trans hread), ih]

/-- A scan goes in rounds. -/
theorem rounds_run (s : Scanner) : Rounds s s.run.tokens s.run.failure s.run.delimiters := by
  cases hcut : Text.cut? s.delimiters.opening s.rest with
  | none =>
    rw [run_of_cut?_none hcut]
    exact .last s hcut
  | some found =>
    obtain ⟨text, after⟩ := found
    rw [run_of_cut?_some hcut]
    cases hread : (s.skip text after).readTag after with
    | finished => exact absurd hread (readTag_ne_finished _ _)
    | failed error =>
      rw [run_of_step_failed (step_skip.trans hread)]
      simpa [skip] using Rounds.failed s text after error hcut hread
    | token token next =>
      obtain ⟨sigil, inside, rest, changed, htag, rfl, rfl⟩ := exists_readsTag_of_readTag rfl hread
      rw [run_of_step_token (step_skip.trans hread)]
      exact .round hcut htag (rounds_run _)
termination_by s.rest.length
decreasing_by
  have hlt := htag.length_rest_lt
  have hle := length_rest_skip_le hcut
  simp only [afterTag]
  omega

/-- A tag that is read lies between two characters of the source. -/
lemma Rounds.exists_eq_append {source read : Text} (h : s.Rounds tokens failure d)
    (hsource : source = read ++ s.rest) (hoffset : s.offset = read.byteSize)
    (hraw : .tag raw ∈ tokens) :
    ∃ before body after, source = before ++ body ++ after ∧
      raw.span.start = before.byteSize ∧ raw.span.stop = (before ++ body).byteSize := by
  induction h generalizing read with
  | last s hcut => exact absurd hraw (tag_notMem_textToken raw _ _)
  | failed s text after error hcut hread => exact absurd hraw (tag_notMem_textToken raw _ _)
  | @round s text after sigil inside rest changed d tokens failure hcut htag later ih =>
    have hparts : source = read ++ text ++ (s.skip text after).tagText sigil inside ++ rest := by
      rw [hsource, htag.eq_append hcut]
      simp only [List.append_assoc]
    have hstart : (s.skip text after).offset = (read ++ text).byteSize := by
      rw [Text.byteSize_append, ← hoffset]
      rfl
    have hstop : ((s.skip text after).afterTag sigil inside rest changed).offset =
        (read ++ text ++ (s.skip text after).tagText sigil inside).byteSize := by
      rw [Text.byteSize_append, ← hstart]
      rfl
    rcases List.mem_append.1 hraw with hraw | hraw
    · exact absurd hraw (tag_notMem_textToken raw _ _)
    rcases List.mem_cons.1 hraw with hraw | hraw
    · rw [Token.tag.injEq] at hraw
      subst hraw
      exact ⟨_, _, _, hparts, hstart, hstop⟩
    · exact ih hparts hstop hraw

/-- The tags of a scan lie between two characters of the source. -/
lemma exists_eq_append_of_mem_scan {source : Text} (hraw : .tag raw ∈ (scan source d).tokens) :
    ∃ before body after, source = before ++ body ++ after ∧
      raw.span.start = before.byteSize ∧ raw.span.stop = (before ++ body).byteSize :=
  (rounds_run (.start source d)).exists_eq_append (List.nil_append source).symm rfl hraw

end Scanner

end Mustache
