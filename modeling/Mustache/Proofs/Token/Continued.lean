import Mustache.Proofs.Token.Restart

/-!
# Sources with more text behind them

Text behind a source takes part in every search of the scanner. It does not change what has been
found by then: the tags that have been read, and a delimiter change that names no delimiters. Only a
search that had found nothing may now find something.
-/

namespace Mustache

/-! ### Moving by nothing -/

@[simp] lemma Span.shift_zero (span : Span) : span.shift 0 = span := rfl

@[simp] lemma RawTag.shift_zero (raw : RawTag) : raw.shift 0 = raw := rfl

@[simp] lemma Token.shift_zero (token : Token) : token.shift 0 = token := by
  cases token <;> rfl

@[simp] lemma Token.map_shift_zero (tokens : List Token) : tokens.map (Token.shift 0) = tokens :=
  (List.map_congr_left fun token _ => token.shift_zero).trans (List.map_id tokens)

namespace Scanner

variable {s : Scanner} {tokens front back : List Token} {raw : RawTag}
  {failure : Option ScanError} {d : Delimiters} {source more : Text}

/-! ### The last round -/

/-- What a scan finds from a position on when no tag is read any more. -/
inductive LastRound (s : Scanner) : List Token → Option ScanError → Prop
  /-- No tag is left. -/
  | last (hcut : Text.cut? s.delimiters.opening s.rest = none) :
      LastRound s (textToken s.offset s.rest) none
  /-- The next tag cannot be read. -/
  | failed {text after : Text} {error : ScanError}
      (hcut : Text.cut? s.delimiters.opening s.rest = some (text, after))
      (hread : (s.skip text after).readTag after = .failed error) :
      LastRound s (textToken s.offset text) (some error)

lemma LastRound.rounds (h : s.LastRound tokens failure) : s.Rounds tokens failure s.delimiters := by
  cases h with
  | last hcut => exact .last s hcut
  | failed hcut hread => exact .failed s _ _ _ hcut hread

/-- A scan passes all its tags and then ends. -/
lemma Rounds.exists_lastRound (h : s.Rounds tokens failure d) :
    ∃ front s' back, s.Passes front s' ∧ s'.LastRound back failure ∧ tokens = front ++ back ∧
      s'.delimiters = d := by
  induction h with
  | last s hcut => exact ⟨[], s, _, .done s, .last hcut, rfl, rfl⟩
  | failed s text after error hcut hread =>
    exact ⟨[], s, _, .done s, .failed hcut hread, rfl, rfl⟩
  | round hcut htag later ih =>
    obtain ⟨front, s', back, hpasses, hlast, rfl, hd⟩ := ih
    refine ⟨_, s', back, .round hcut htag hpasses, hlast, ?_, hd⟩
    rw [List.append_assoc, List.cons_append]

/-! ### What has been found by then -/

/-- A delimiter change that names no delimiters names none whatever follows it. -/
lemma readTag_append {after : Text} {span : Span} {reason : DelimiterTagError}
    (h : s.readTag after = .failed (.invalidDelimiters span reason)) (more : Text) :
    ({ s with rest := s.rest ++ more } : Scanner).readTag (after ++ more) =
      .failed (.invalidDelimiters span reason) := by
  cases hcut : Text.cut? ((Sigil.ofHead after).closing s.delimiters)
      (after.drop (Sigil.ofHead after).text.length) with
  | none => simp [readTag, hcut] at h
  | some found =>
    obtain ⟨inside, rest⟩ := found
    have hdrop := Text.eq_of_cut? hcut
    have hafter := Sigil.text_ofHead_append after
    have hne : after ≠ [] := by
      rintro rfl
      simp [Sigil.closing_ne_nil] at hdrop
    have hsigil : Sigil.ofHead (after ++ more) = Sigil.ofHead after := Sigil.ofHead_append hne more
    have hlength : (Sigil.ofHead after).text.length ≤ after.length := by
      rw [← congrArg List.length hafter, List.length_append]
      exact Nat.le_add_right _ _
    have hcut' : Text.cut? ((Sigil.ofHead (after ++ more)).closing s.delimiters)
        ((after ++ more).drop (Sigil.ofHead (after ++ more)).text.length) =
          some (inside, rest ++ more) := by
      rw [hsigil, List.drop_append_of_le_length hlength, hdrop, List.append_assoc]
      exact Text.cut?_congr_rest (hdrop ▸ hcut)
    rw [readTag_eq hcut] at h
    rw [readTag_eq (s := { s with rest := s.rest ++ more }) hcut', hsigil]
    simp only at h ⊢
    split at h
    · next hequals =>
      rw [if_pos hequals]
      split at h
      · exact h
      · simp at h
    · simp at h

/-- The failure of a scan at a delimiter change is there whatever follows. -/
lemma LastRound.append {span : Span} {reason : DelimiterTagError}
    (h : s.LastRound tokens (some (.invalidDelimiters span reason))) (more : Text) :
    LastRound { s with rest := s.rest ++ more } tokens (some (.invalidDelimiters span reason)) := by
  cases h with
  | @failed text after _ hcut hread =>
    have hrest := Text.eq_of_cut? hcut
    have hcut' : Text.cut? s.delimiters.opening (s.rest ++ more) = some (text, after ++ more) := by
      rw [hrest, List.append_assoc]
      exact Text.cut?_congr_rest (hrest ▸ hcut)
    refine .failed hcut' ?_
    have hskip : skip { s with rest := s.rest ++ more } text (after ++ more) =
        { s.skip text after with rest := (s.skip text after).rest ++ more } := by
      simp [skip]
    rw [hskip]
    exact readTag_append hread more

/-- What has been passed is passed again, whatever is appended. -/
lemma Passes.append {s' : Scanner} (h : s.Passes tokens s') (more : Text) :
    Passes { s with rest := s.rest ++ more } tokens { s' with rest := s'.rest ++ more } := by
  obtain ⟨read, hrest, -, hread⟩ := h.exists_read
  have hall := hread (s'.rest ++ more)
  rwa [← List.append_assoc, ← hrest] at hall

/-- The tokens of a source up to a tag are those of any longer source. -/
theorem exists_tokens_append (h : (scan source d).tokens = front ++ .tag raw :: back)
    (more : Text) :
    ∃ later, (scan (source ++ more) d).tokens = front ++ .tag raw :: later := by
  obtain ⟨s', hpasses, -⟩ := (rounds_run (.start source d)).exists_passes h
  have htokens := congrArg Scan.tokens (hpasses.append more).run_eq
  rw [List.append_assoc, List.singleton_append] at htokens
  exact ⟨_, htokens⟩

/-- A source whose scan fails at a delimiter change fails there in any longer source. -/
theorem scan_append_of_invalidDelimiters {span : Span} {reason : DelimiterTagError}
    (h : (scan source d).failure = some (.invalidDelimiters span reason)) (more : Text) :
    scan (source ++ more) d = scan source d := by
  obtain ⟨front, s', back, hpasses, hlast, htokens, hd⟩ :=
    (rounds_run (.start source d)).exists_lastRound
  have hlast : s'.LastRound back (some (.invalidDelimiters span reason)) := h ▸ hlast
  have hrounds := (hpasses.append more).rounds_append (hlast.append more).rounds
  have hrun := run_eq_of_rounds hrounds
  rw [← htokens] at hrun
  refine hrun.trans ?_
  rw [← h]
  exact congrArg (Scan.mk _ _) hd

end Scanner

end Mustache
