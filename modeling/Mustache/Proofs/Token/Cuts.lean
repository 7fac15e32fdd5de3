import Mustache.Proofs.Token.Lossless

/-!
# Cutting a source at two tags

What lies between two tags of a source is scanned alone as it is scanned in the source, if the scan
starts with the delimiters in effect behind the first tag: no search reaches over the second one,
and nothing but the delimiters is carried over the first.
-/

namespace Mustache

/-! ### Moving tokens -/

/-- A tag with its spans moved right by `n` bytes. -/
def RawTag.shift (raw : RawTag) (n : Nat) : RawTag :=
  { raw with content := raw.content.shift n, span := raw.span.shift n }

/-- A token with its spans moved right by `n` bytes. -/
def Token.shift (n : Nat) : Token → Token
  | .text span => .text (span.shift n)
  | .tag raw   => .tag (raw.shift n)

lemma map_shift_textToken (n offset : Nat) (text : Text) :
    (textToken offset text).map (Token.shift n) = textToken (offset + n) text := by
  by_cases h : text = []
  · rw [h]
    rfl
  · simp [textToken_of_ne_nil h, Token.shift, Span.shift, Nat.add_right_comm]

/-- A slice of a part of a source is a slice of the source. -/
lemma Span.slice_shift {source before part after : Text} {span : Span}
    (hsource : source = before ++ part ++ after) (h : span.LiesIn part) :
    (span.shift before.byteSize).slice source = span.slice part := by
  obtain ⟨hle, ⟨a, b, hab, ha⟩, ⟨c, e, hce, hc⟩⟩ := h
  obtain ⟨m, rfl⟩ : a <+: c :=
    Text.isPrefix_of_byteSize_le ⟨b, hab.symm⟩ ⟨e, hce.symm⟩ (by omega)
  rw [Text.byteSize_append] at hc
  rw [Span.slice_of_eq hce ha.symm hc.symm]
  refine Span.slice_of_eq (a := before ++ a) (c := e ++ after) ?_ ?_ ?_
  · rw [hsource, hce]
    simp only [List.append_assoc]
  · simp only [shift, Text.byteSize_append]
    omega
  · simp only [shift, Text.byteSize_append]
    omega

namespace Scanner

variable {s : Scanner} {tokens front mid back : List Token} {raw raw' : RawTag}
  {failure : Option ScanError} {d : Delimiters} {source read : Text}

/-- A tag among the tokens of a round is that of the round, or comes later. -/
lemma textToken_append_eq_append {offset : Nat} {text : Text}
    (h : textToken offset text ++ .tag raw :: tokens = mid ++ .tag raw' :: back) :
    (mid = textToken offset text ∧ raw = raw' ∧ tokens = back) ∨
      ∃ mid', mid = textToken offset text ++ .tag raw :: mid' ∧
        tokens = mid' ++ .tag raw' :: back := by
  rcases List.append_eq_append_iff.1 h with ⟨as, hmid, htokens⟩ | ⟨bs, htext, hback⟩
  · cases as with
    | nil =>
      obtain ⟨htag, rfl⟩ := List.cons.inj htokens
      exact .inl ⟨by simpa using hmid, Token.tag.inj htag, rfl⟩
    | cons token mid' =>
      obtain ⟨rfl, hlater⟩ := List.cons.inj htokens
      exact .inr ⟨mid', hmid, hlater⟩
  · cases bs with
    | nil =>
      obtain ⟨htag, rfl⟩ := List.cons.inj hback
      exact .inl ⟨by simpa using htext.symm, (Token.tag.inj htag).symm, rfl⟩
    | cons token bs =>
      obtain ⟨rfl, -⟩ := List.cons.inj hback
      exact absurd (by simp [htext]) (tag_notMem_textToken raw' offset text)

/-! ### Behind a tag -/

/-- Behind a tag the scan goes on with the delimiters recorded in the tag. -/
lemma Rounds.exists_rounds_behind (h : s.Rounds tokens failure d)
    (htokens : tokens = front ++ .tag raw :: back) (hsource : source = read ++ s.rest)
    (hoffset : s.offset = read.byteSize) :
    ∃ s' read', Rounds s' back failure d ∧ s'.delimiters = raw.delimiters ∧
      s'.offset = raw.span.stop ∧ source = read' ++ s'.rest ∧ s'.offset = read'.byteSize := by
  induction h generalizing front read with
  | last s hcut => exact absurd (by simp [htokens]) (tag_notMem_textToken raw s.offset s.rest)
  | failed s text after error hcut hread =>
    exact absurd (by simp [htokens]) (tag_notMem_textToken raw s.offset text)
  | @round s text after sigil inside rest changed d tokens failure hcut htag later ih =>
    have hparts : source = read ++ text ++ (s.skip text after).tagText sigil inside ++ rest := by
      rw [hsource, htag.eq_append hcut]
      simp only [List.append_assoc]
    have hstop : ((s.skip text after).afterTag sigil inside rest changed).offset =
        (read ++ text ++ (s.skip text after).tagText sigil inside).byteSize := by
      rw [Text.byteSize_append, Text.byteSize_append, ← hoffset]
      rfl
    rcases textToken_append_eq_append htokens with ⟨-, rfl, rfl⟩ | ⟨front', -, htokens'⟩
    · exact ⟨_, _, later, rfl, rfl, hparts, hstop⟩
    · exact ih htokens' hparts hstop

/-! ### In front of a tag -/

/-- What a tag reads does not depend on what follows it. -/
lemma ReadsTag.congr_rest {s' : Scanner} {sigil : Sigil} {inside rest rest' : Text}
    {changed : Delimiters} (h : s.ReadsTag sigil inside rest changed)
    (hd : s'.delimiters = s.delimiters) (hrest : s'.rest = s'.tagText sigil inside ++ rest') :
    s'.ReadsTag sigil inside rest' changed where
  rest_eq := hrest
  sigil_eq := hd ▸ h.sigil_eq
  cut?_eq := hd ▸ Text.cut?_congr_rest h.cut?_eq
  changed_eq := hd ▸ h.changed_eq

/-- What a round reads does not depend on what follows it, nor on the offset. -/
lemma ReadsTag.exists_cut?_eq {text after inside rest : Text} {sigil : Sigil}
    {changed : Delimiters} (h : (s.skip text after).ReadsTag sigil inside rest changed)
    (hcut : Text.cut? s.delimiters.opening s.rest = some (text, after)) (s₀ : Scanner)
    (hd : s₀.delimiters = s.delimiters) {rest₀ : Text}
    (hrest : s₀.rest = text ++ (s.skip text after).tagText sigil inside ++ rest₀) :
    ∃ after₀, Text.cut? s₀.delimiters.opening s₀.rest = some (text, after₀) ∧
      (s₀.skip text after₀).ReadsTag sigil inside rest₀ changed := by
  let after₀ := sigil.text ++ inside ++ sigil.closing s.delimiters ++ rest₀
  have hbody : (s.skip text after).tagText sigil inside ++ rest₀ =
      s.delimiters.opening ++ after₀ := by
    simp only [after₀, tagText, skip, List.append_assoc]
  refine ⟨after₀, ?_, h.congr_rest hd ?_⟩
  · rw [hd, hrest, List.append_assoc, hbody, ← List.append_assoc]
    exact Text.cut?_congr_rest (Text.eq_of_cut? hcut ▸ hcut)
  · show s₀.delimiters.opening ++ after₀ = s₀.delimiters.opening ++ sigil.text ++ inside ++
      sigil.closing s₀.delimiters ++ rest₀
    simp only [after₀, hd, List.append_assoc]

/-- In front of a tag the scan finds what it finds in the text up to there, from any offset. -/
lemma Rounds.exists_rounds_front (h : s.Rounds tokens failure d)
    (htokens : tokens = mid ++ .tag raw :: back) {offset n : Nat}
    (hoffset : s.offset = offset + n) :
    ∃ inner after mid' d', s.rest = inner ++ after ∧
      raw.span.start = s.offset + inner.byteSize ∧ mid = mid'.map (Token.shift n) ∧
      Rounds ⟨inner, offset, s.delimiters⟩ mid' none d' := by
  induction h generalizing mid offset with
  | last s hcut => exact absurd (by simp [htokens]) (tag_notMem_textToken raw s.offset s.rest)
  | failed s text after error hcut hread =>
    exact absurd (by simp [htokens]) (tag_notMem_textToken raw s.offset text)
  | @round s text after sigil inside rest changed d tokens failure hcut htag later ih =>
    have hopening := Text.eq_of_cut? hcut
    rcases textToken_append_eq_append htokens with ⟨rfl, rfl, rfl⟩ | ⟨mid₀, rfl, htokens'⟩
    · refine ⟨text, s.delimiters.opening ++ after, textToken offset text, s.delimiters, ?_, rfl, ?_,
        .last _ ?_⟩
      · rw [hopening, List.append_assoc]
      · rw [map_shift_textToken, hoffset]
      · exact Text.cut?_before_eq_none s.delimiters.opening_ne_nil hcut
    · let next := (s.skip text after).afterTag sigil inside rest changed
      let body := (s.skip text after).tagText sigil inside
      have hnext : next.offset = offset + text.byteSize + body.byteSize + n := by
        show s.offset + text.byteSize + body.byteSize = _
        omega
      obtain ⟨inner, after', mid', d', hrest, hstart, rfl, hrounds⟩ := ih htokens' hnext
      have hrest : rest = inner ++ after' := hrest
      let s₀ : Scanner := ⟨text ++ body ++ inner, offset, s.delimiters⟩
      obtain ⟨after₀, hcut₀, htag₀⟩ := htag.exists_cut?_eq hcut s₀ rfl rfl
      refine ⟨text ++ body ++ inner, after', _, d', ?_, ?_, ?_, .round hcut₀ htag₀ hrounds⟩
      · rw [htag.eq_append hcut, hrest]
        simp only [body, List.append_assoc]
      · rw [hstart]
        show s.offset + text.byteSize + body.byteSize + _ = _
        simp only [Text.byteSize_append, Nat.add_assoc]
      · rw [List.map_append, map_shift_textToken, ← hoffset, List.map_cons]
        congr 2
        simp only [Token.shift, RawTag.shift, rawTag, Span.shift, skip, tagText, hoffset,
          Token.tag.injEq, RawTag.mk.injEq, Span.mk.injEq, true_and, and_true]
        omega

/-! ### Between two tags -/

/-- Between two tags the scan of a source finds what it finds in the text between them. -/
theorem exists_scan_between {opening closing : RawTag}
    (h : (scan source d).tokens = front ++ .tag opening :: (mid ++ .tag closing :: back)) :
    ∃ before inner after, source = before ++ inner ++ after ∧
      opening.span.stop = before.byteSize ∧
      closing.span.start = before.byteSize + inner.byteSize ∧
      (scan inner opening.delimiters).failure = none ∧
      mid = (scan inner opening.delimiters).tokens.map (Token.shift before.byteSize) := by
  obtain ⟨s, before, hrounds, hd, hstop, hsource, hoffset⟩ :=
    (rounds_run (.start source d)).exists_rounds_behind h (List.nil_append source).symm rfl
  obtain ⟨inner, after, mid', d', hrest, hstart, hmid, hinner⟩ :=
    hrounds.exists_rounds_front rfl (hoffset.trans (Nat.zero_add _).symm)
  have hscan : scan inner opening.delimiters = ⟨mid', none, d'⟩ := run_eq_of_rounds (hd ▸ hinner)
  refine ⟨before, inner, after, ?_, ?_, ?_, ?_, ?_⟩
  · rw [hsource, hrest, List.append_assoc]
  · rw [← hstop, hoffset]
  · rw [hstart, hoffset]
  · rw [hscan]
  · rw [hscan, hmid]

end Scanner

end Mustache
