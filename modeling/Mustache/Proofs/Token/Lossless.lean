import Mathlib.Data.List.Chain
import Mustache.Proofs.Text.Bytes
import Mustache.Proofs.Token.Rounds

/-!
# A scan loses nothing

The tokens of a scan follow one another through the source without gap or overlap, up to its end or
to the tag that cannot be read. A text holds no opening delimiter, and a tag is spelled by the
delimiters in effect in front of it. These are told by the tokens in front: only a delimiter change
replaces them, by the pair that its content names. Offsets and occurrences are those of bytes.
-/

namespace Mustache

/-! ### Occurrences from an offset on -/

namespace Text

variable {needle source read unread before after : Text} {n : Nat}

/-- From where the search starts, nothing occurs further left than what it finds. -/
lemma le_of_occursAt (hcut : cut? needle unread = some (before, after)) (hne : needle ≠ [])
    (hsource : source = read ++ unread) (hoccurs : needle.OccursAt n source)
    (hle : read.byteSize ≤ n) : (read ++ before).byteSize ≤ n := by
  obtain ⟨a, b, hab, rfl⟩ := (occursAt_iff hne).1 hoccurs
  have hread : read <+: a :=
    isPrefix_of_byteSize_le ⟨unread, hsource.symm⟩ ⟨needle ++ b, by rw [hab, List.append_assoc]⟩ hle
  obtain ⟨a, rfl⟩ := hread
  have hunread : unread = a ++ needle ++ b := by
    rw [hsource, List.append_assoc, List.append_assoc, List.append_cancel_left_eq] at hab
    rw [hab, List.append_assoc]
  obtain ⟨hfound, hfirst⟩ := cut?_eq_some_iff.1 hcut
  have hbefore : before <+: a := by
    have ha : a <+: unread := ⟨needle ++ b, by rw [hunread, List.append_assoc]⟩
    have hb : before <+: unread := ⟨needle ++ after, by rw [hfound, List.append_assoc]⟩
    exact List.prefix_of_prefix_length_le hb ha (hfirst a b hunread)
  obtain ⟨c, rfl⟩ := hbefore
  simp only [byteSize_append]
  omega

/-- Where the search finds nothing, nothing occurs. -/
lemma lt_of_occursAt (hcut : cut? needle unread = none) (hne : needle ≠ [])
    (hsource : source = read ++ unread) (hoccurs : needle.OccursAt n source) :
    n < read.byteSize := by
  obtain ⟨a, b, hab, rfl⟩ := (occursAt_iff hne).1 hoccurs
  by_contra hle
  have hread : read <+: a :=
    isPrefix_of_byteSize_le ⟨unread, hsource.symm⟩ ⟨needle ++ b, by rw [hab, List.append_assoc]⟩
      (by omega)
  obtain ⟨a, rfl⟩ := hread
  refine cut?_eq_none_iff.1 hcut ⟨a, b, ?_⟩
  rw [hsource, List.append_assoc, List.append_assoc, List.append_cancel_left_eq] at hab
  rw [hab, List.append_assoc]

end Text

/-! ### What is said of a scan -/

/-- Spans that follow one another from one offset to another, none of them empty. -/
inductive Tiles : Nat → List Span → Nat → Prop
  | nil (n : Nat) : Tiles n [] n
  | cons {span : Span} {spans : List Span} {stop : Nat} (hne : span.start < span.stop)
      (h : Tiles span.stop spans stop) : Tiles span.start (span :: spans) stop

/-- A span that begins and ends on a boundary of the source. -/
structure Span.LiesIn (span : Span) (source : Text) : Prop where
  start_le_stop : span.start ≤ span.stop
  start : source.IsBoundary span.start
  stop : source.IsBoundary span.stop

/-- Whether a token is literal text. -/
def Token.isText : Token → Bool
  | .text _ => true
  | .tag _  => false

/-- The delimiters in effect behind a token, when `d` are in effect in front of it. -/
def Token.delimitersAfter (source : Text) (d : Delimiters) : Token → Delimiters
  | .text _  => d
  | .tag raw =>
    if raw.sigil = .equals then
      match Delimiters.ofContent (raw.content.slice source) with
      | .ok changed => changed
      | .error _    => d
    else d

/-- The delimiters in effect behind a sequence of tokens. -/
def delimitersAfter (source : Text) (d : Delimiters) (tokens : List Token) : Delimiters :=
  tokens.foldl (Token.delimitersAfter source) d

/-- The characters that are sigils. -/
def sigilChars : List Char := ['\x7b', '&', '#', '^', '/', '!', '>', '=']

/-- The parts of a tag that a pair of delimiters spells. -/
structure TagParts (source : Text) (d : Delimiters) (raw : RawTag) where
  before : Text
  front : Text
  content : Text
  back : Text
  after : Text
  source_eq : source = before ++
    (d.opening ++ raw.sigil.text ++ front ++ content ++ back ++ raw.sigil.closing d) ++ after
  /-- The sigil is the character behind the opening delimiter, if that is one. -/
  sigil_eq : ∃ c more, raw.sigil.text ++ front ++ content ++ back ++ raw.sigil.closing d ++ after =
    c :: more ∧ if c ∈ sigilChars then raw.sigil.text = [c] else raw.sigil = .absent
  isBlank_front : ∀ c ∈ front, isBlank c
  isBlank_back : ∀ c ∈ back, isBlank c
  head_content : ∀ c ∈ content.head?, isBlank c = false
  last_content : ∀ c ∈ content.getLast?, isBlank c = false
  start_span : raw.span.start = before.byteSize
  stop_span : raw.span.stop = raw.span.start +
    (d.opening ++ raw.sigil.text ++ front ++ content ++ back ++ raw.sigil.closing d).byteSize
  start_content : raw.content.start = (before ++ d.opening ++ raw.sigil.text ++ front).byteSize
  stop_content : raw.content.stop = raw.content.start + content.byteSize
  /-- What closes the tag occurs nowhere earlier behind the sigil. -/
  first : ∀ n, (raw.sigil.closing d).OccursAt n source →
    (before ++ d.opening ++ raw.sigil.text).byteSize ≤ n →
    (before ++ d.opening ++ raw.sigil.text ++ front ++ content ++ back).byteSize ≤ n

/-- All characters of the tag. -/
def TagParts.text {source : Text} {d : Delimiters} {raw : RawTag}
    (parts : TagParts source d raw) : Text :=
  d.opening ++ raw.sigil.text ++ parts.front ++ parts.content ++ parts.back ++ raw.sigil.closing d

/-- What is wrong at an offset where a tag cannot be read. -/
inductive FailsAt (source : Text) (d : Delimiters) (start : Nat) : ScanError → Prop
  /-- What closes the tag does not occur behind its sigil. -/
  | unclosedTag (before after : Text) (hsource : source = before ++ d.opening ++ after)
      (hstart : before.byteSize = start)
      (h : ∀ n, ((Sigil.ofHead after).closing d).OccursAt n source →
        n < (before ++ d.opening ++ (Sigil.ofHead after).text).byteSize) :
      FailsAt source d start
        (.unclosedTag ⟨start, source.byteSize⟩ ((Sigil.ofHead after).closing d))
  /-- The content of the tag does not name a pair of delimiters. -/
  | invalidDelimiters (raw : RawTag) (parts : TagParts source d raw) (reason : DelimiterTagError)
      (hsigil : raw.sigil = .equals) (hstart : raw.span.start = start)
      (h : Delimiters.ofContent parts.content = .error reason) :
      FailsAt source d start (.invalidDelimiters raw.span reason)

/-- The source from an offset on, where `d` are in effect, consists of the tokens, up to its end or
to where the scan fails. -/
structure Dissection (source : Text) (start : Nat) (d : Delimiters) (tokens : List Token)
    (failure : Option ScanError) : Prop where
  tiles : ∃ stop, Tiles start (tokens.map Token.span) stop ∧
    match failure with
    | none       => stop = source.byteSize
    | some error => error.span.start = stop ∧ error.span.LiesIn source ∧
        FailsAt source (delimitersAfter source d tokens) stop error
  span_liesIn : ∀ token ∈ tokens, token.span.LiesIn source
  content_liesIn : ∀ raw, .tag raw ∈ tokens → raw.content.LiesIn source
  /-- No two texts are adjacent. -/
  isChain : tokens.IsChain fun a b => ¬ (a.isText ∧ b.isText)
  /-- No opening delimiter begins inside a text. -/
  text : ∀ front span back, tokens = front ++ .text span :: back →
    ∀ n, (delimitersAfter source d front).opening.OccursAt n source →
      ¬ (span.start ≤ n ∧ n < span.stop)
  tag : ∀ front raw back, tokens = front ++ .tag raw :: back →
    raw.delimiters = delimitersAfter source d (front ++ [.tag raw]) ∧
    ∃ parts : TagParts source (delimitersAfter source d front) raw,
      raw.span.slice source = parts.text ∧ raw.content.slice source = parts.content

/-! ### The parts of a tag -/

/-- A span that covers a middle part lies in the source. -/
lemma Span.liesIn_of_eq {source a b c : Text} {span : Span} (h : source = a ++ b ++ c)
    (hstart : span.start = a.byteSize) (hstop : span.stop = span.start + b.byteSize) :
    span.LiesIn source where
  start_le_stop := by omega
  start := ⟨a, b ++ c, by rw [h, List.append_assoc], hstart.symm⟩
  stop := ⟨a ++ b, c, h, by rw [Text.byteSize_append, hstop, hstart]⟩

namespace TagParts

variable {source : Text} {d : Delimiters} {raw : RawTag} (parts : TagParts source d raw)

lemma source_eq_content : source =
    (parts.before ++ d.opening ++ raw.sigil.text ++ parts.front) ++ parts.content ++
      (parts.back ++ raw.sigil.closing d ++ parts.after) := by
  conv_lhs => rw [parts.source_eq]
  simp only [List.append_assoc]

lemma slice_span : raw.span.slice source = parts.text :=
  Span.slice_of_eq parts.source_eq parts.start_span (by rw [parts.stop_span, parts.start_span]; rfl)

lemma slice_content : raw.content.slice source = parts.content :=
  Span.slice_of_eq parts.source_eq_content parts.start_content
    (by rw [parts.stop_content, parts.start_content])

include parts

lemma span_liesIn : raw.span.LiesIn source :=
  Span.liesIn_of_eq parts.source_eq parts.start_span parts.stop_span

lemma content_liesIn : raw.content.LiesIn source :=
  Span.liesIn_of_eq parts.source_eq_content parts.start_content parts.stop_content

lemma start_lt_stop : raw.span.start < raw.span.stop := by
  have := Text.byteSize_pos d.opening_ne_nil
  rw [parts.stop_span]
  simp only [Text.byteSize_append]
  omega

end TagParts

/-- The eight characters are read as the sigils they are, and all others as none. -/
lemma Sigil.text_ofChar (c : Char) :
    if c ∈ sigilChars then (ofChar c).text = [c] else ofChar c = .absent := by
  by_cases h : c ∈ sigilChars
  · rw [if_pos h]
    simp only [sigilChars, List.mem_cons, List.not_mem_nil, or_false] at h
    rcases h with rfl | rfl | rfl | rfl | rfl | rfl | rfl | rfl <;> rfl
  · rw [if_neg h]
    unfold ofChar
    split <;> simp_all [sigilChars]

/-- A tag that is spelled at a place of the source has its parts. -/
lemma Scanner.SpellsTag.exists_tagParts {s : Scanner} {sigil : Sigil}
    {source read inside rest : Text} (h : s.SpellsTag sigil inside rest)
    (hsource : source = read ++ s.rest) (hoffset : s.offset = read.byteSize)
    (changed : Delimiters) :
    ∃ parts : TagParts source s.delimiters (s.rawTag sigil inside changed),
      parts.content = inside.trim := by
  obtain ⟨back, hinside, hback⟩ := Text.exists_eq_append_trim inside
  have hjoin : ∀ t : Text, t ++ inside.takeWhile isBlank ++ inside.trim ++ back = t ++ inside := by
    intro t
    conv_rhs => rw [hinside]
    simp only [List.append_assoc]
  have hsigil : ∃ c more, sigil.text ++ inside ++ sigil.closing s.delimiters ++ rest = c :: more ∧
      if c ∈ sigilChars then sigil.text = [c] else sigil = .absent := by
    have hne : sigil.text ++ inside ++ sigil.closing s.delimiters ≠ [] := by
      simp [sigil.closing_ne_nil]
    obtain ⟨c, more, hhead⟩ := List.exists_cons_of_ne_nil hne
    have hchar : Sigil.ofChar c = sigil := by
      rw [← h.sigil_eq, hhead]
      rfl
    exact ⟨c, more ++ rest, by rw [hhead, List.cons_append], hchar ▸ Sigil.text_ofChar c⟩
  have hfirst : ∀ n, (sigil.closing s.delimiters).OccursAt n source →
      (read ++ s.delimiters.opening ++ sigil.text).byteSize ≤ n →
      (read ++ s.delimiters.opening ++ sigil.text ++ inside).byteSize ≤ n := by
    intro n hoccurs hle
    refine Text.le_of_occursAt h.cut?_eq (sigil.closing_ne_nil _) ?_ hoccurs hle
    rw [hsource, h.rest_eq, tagText]
    simp only [List.append_assoc]
  refine ⟨{
    before := read
    front := inside.takeWhile isBlank
    content := inside.trim
    back
    after := rest
    source_eq := ?_
    sigil_eq := ?_
    isBlank_front := fun c hc => List.all_eq_true.1 List.all_takeWhile c hc
    isBlank_back := hback
    head_content := fun c hc => Text.isBlank_of_mem_head?_trim hc
    last_content := fun c hc => Text.isBlank_of_mem_getLast?_trim hc
    start_span := hoffset
    stop_span := ?_
    start_content := ?_
    stop_content := rfl
    first := ?_ }, rfl⟩
  · simp only [rawTag, hjoin]
    rw [hsource, h.rest_eq, tagText]
    simp only [List.append_assoc]
  · simpa only [rawTag, hjoin] using hsigil
  · simp only [rawTag, hjoin, tagText]
  · simp only [rawTag, hoffset, Text.byteSize_append, Nat.add_assoc]
  · simpa only [rawTag, hjoin] using hfirst

/-! ### Putting tokens in front -/

section
variable {source : Text} {d : Delimiters} {tokens : List Token} {failure : Option ScanError}
  {raw : RawTag} {start : Nat}

lemma TagParts.delimitersAfter_eq (parts : TagParts source d raw) :
    Token.delimitersAfter source d (.tag raw) =
      if raw.sigil = .equals then
        match Delimiters.ofContent parts.content with
        | .ok changed => changed
        | .error _    => d
      else d := by
  rw [Token.delimitersAfter, parts.slice_content]

lemma Dissection.nil (source : Text) (d : Delimiters) :
    Dissection source source.byteSize d [] none where
  tiles := ⟨_, .nil _, rfl⟩
  span_liesIn := by simp
  content_liesIn := by simp
  isChain := .nil
  text := by simp
  tag := by simp

lemma Dissection.failed {error : ScanError} (hstart : error.span.start = start)
    (hlies : error.span.LiesIn source) (h : FailsAt source d start error) :
    Dissection source start d [] (some error) where
  tiles := ⟨_, .nil _, hstart, hlies, h⟩
  span_liesIn := by simp
  content_liesIn := by simp
  isChain := .nil
  text := by simp
  tag := by simp

/-- A tag in front of what it leaves the delimiters for. -/
lemma Dissection.cons_tag (parts : TagParts source d raw)
    (hchanged : raw.delimiters = Token.delimitersAfter source d (.tag raw))
    (h : Dissection source raw.span.stop raw.delimiters tokens failure) :
    Dissection source raw.span.start d (.tag raw :: tokens) failure where
  tiles := by
    obtain ⟨stop, htiles, hend⟩ := h.tiles
    rw [hchanged] at hend
    have htag : Tiles raw.span.start (raw.span :: tokens.map Token.span) stop :=
      .cons parts.start_lt_stop htiles
    exact ⟨stop, htag, hend⟩
  span_liesIn := by
    intro token htoken
    rcases List.mem_cons.1 htoken with rfl | htoken
    · exact parts.span_liesIn
    · exact h.span_liesIn token htoken
  content_liesIn := by
    intro raw' hraw
    rcases List.mem_cons.1 hraw with heq | hraw
    · obtain rfl : raw' = raw := by simpa using heq
      exact parts.content_liesIn
    · exact h.content_liesIn raw' hraw
  isChain := by
    refine List.isChain_cons.2 ⟨?_, h.isChain⟩
    simp [Token.isText]
  text := by
    intro front span back heq
    cases front with
    | nil => simp at heq
    | cons token front =>
      obtain ⟨rfl, hrest⟩ := List.cons.inj heq
      have := h.text front span back hrest
      rwa [hchanged] at this
  tag := by
    intro front raw' back heq
    cases front with
    | nil =>
      obtain ⟨rfl, -⟩ : raw = raw' ∧ tokens = back := by simpa using heq
      exact ⟨hchanged, parts, parts.slice_span, parts.slice_content⟩
    | cons token front =>
      obtain ⟨rfl, hrest⟩ := List.cons.inj heq
      have := h.tag front raw' back hrest
      rwa [hchanged] at this

/-- A text in front of what does not begin with one. -/
lemma Dissection.cons_text {span : Span} (hne : span.start < span.stop) (hlies : span.LiesIn source)
    (hnone : ∀ n, d.opening.OccursAt n source → ¬ (span.start ≤ n ∧ n < span.stop))
    (hhead : ∀ token ∈ tokens.head?, ¬ token.isText)
    (h : Dissection source span.stop d tokens failure) :
    Dissection source span.start d (.text span :: tokens) failure where
  tiles := by
    obtain ⟨stop, htiles, hend⟩ := h.tiles
    exact ⟨stop, .cons hne htiles, hend⟩
  span_liesIn := by
    intro token htoken
    rcases List.mem_cons.1 htoken with rfl | htoken
    · exact hlies
    · exact h.span_liesIn token htoken
  content_liesIn := by
    intro raw hraw
    rcases List.mem_cons.1 hraw with heq | hraw
    · simp at heq
    · exact h.content_liesIn raw hraw
  isChain := by
    refine List.isChain_cons.2 ⟨?_, h.isChain⟩
    intro token htoken hboth
    exact hhead token htoken hboth.2
  text := by
    intro front span' back heq
    cases front with
    | nil =>
      obtain ⟨rfl, -⟩ : span = span' ∧ tokens = back := by simpa using heq
      exact hnone
    | cons token front =>
      obtain ⟨rfl, hrest⟩ := List.cons.inj heq
      exact h.text front span' back hrest
  tag := by
    intro front raw back heq
    cases front with
    | nil => simp at heq
    | cons token front =>
      obtain ⟨rfl, hrest⟩ := List.cons.inj heq
      exact h.tag front raw back hrest

/-- A run of text that is cut off in front of the next opening delimiter. -/
lemma Dissection.textToken {read text rest : Text} (hsource : source = read ++ text ++ rest)
    (hstart : start = read.byteSize)
    (hnone : ∀ n, d.opening.OccursAt n source → read.byteSize ≤ n → (read ++ text).byteSize ≤ n)
    (hhead : ∀ token ∈ tokens.head?, ¬ token.isText)
    (h : Dissection source (start + text.byteSize) d tokens failure) :
    Dissection source start d (textToken start text ++ tokens) failure := by
  by_cases hne : text = []
  · subst hne
    simpa using h
  · rw [textToken_of_ne_nil hne]
    have hpos := Text.byteSize_pos hne
    let span : Span := ⟨start, start + text.byteSize⟩
    have hlies : span.LiesIn source := Span.liesIn_of_eq hsource hstart rfl
    have hinside : ∀ n, d.opening.OccursAt n source → ¬ (span.start ≤ n ∧ n < span.stop) := by
      rintro n hoccurs ⟨hle, hlt⟩
      have := hnone n hoccurs (hstart ▸ hle)
      simp only [span, Text.byteSize_append] at this hlt
      omega
    exact .cons_text (Nat.lt_add_of_pos_right hpos) hlies hinside hhead h

end

/-! ### The rounds of a scan -/

namespace Scanner

variable {s : Scanner} {after : Text}

/-- Where no tag is read, either nothing closes it or its content names no delimiters. -/
lemma failed_cases {error : ScanError} (hrest : s.rest = s.delimiters.opening ++ after)
    (h : s.readTag after = .failed error) :
    (Text.cut? ((Sigil.ofHead after).closing s.delimiters)
        (after.drop (Sigil.ofHead after).text.length) = none ∧
      error = .unclosedTag ⟨s.offset, s.offset + s.rest.byteSize⟩
        ((Sigil.ofHead after).closing s.delimiters)) ∨
    ∃ inside rest reason, s.SpellsTag .equals inside rest ∧
      Delimiters.ofContent inside.trim = .error reason ∧
      error = .invalidDelimiters (s.rawTag .equals inside s.delimiters).span reason := by
  cases hcut : Text.cut? ((Sigil.ofHead after).closing s.delimiters)
      (after.drop (Sigil.ofHead after).text.length) with
  | none =>
    refine .inl ⟨rfl, ?_⟩
    simpa [readTag, hcut, eq_comm] using h
  | some found =>
    obtain ⟨inside, rest⟩ := found
    have hspells := spellsTag_of_cut? hrest hcut
    rw [readTag_eq hcut] at h
    simp only at h
    split at h
    · next hequals =>
      rw [hequals] at hspells h
      split at h
      · next reason hreason =>
        rw [Step.failed.injEq] at h
        exact .inr ⟨inside, rest, reason, hspells, hreason, h.symm⟩
      · simp at h
    · simp at h

/-- A tag that cannot be read ends the dissection. -/
lemma dissection_of_failed {source read : Text} {error : ScanError}
    (hsource : source = read ++ s.rest) (hoffset : s.offset = read.byteSize)
    (hrest : s.rest = s.delimiters.opening ++ after) (h : s.readTag after = .failed error) :
    Dissection source s.offset s.delimiters [] (some error) := by
  rcases failed_cases hrest h with ⟨hcut, rfl⟩ | ⟨inside, rest, reason, hspells, hreason, rfl⟩
  · have hsize : s.offset + s.rest.byteSize = source.byteSize := by
      rw [hsource, Text.byteSize_append, hoffset]
    have hparts : source = read ++ s.delimiters.opening ++ after := by
      rw [hsource, hrest, List.append_assoc]
    have hnone : ∀ n, ((Sigil.ofHead after).closing s.delimiters).OccursAt n source →
        n < (read ++ s.delimiters.opening ++ (Sigil.ofHead after).text).byteSize := by
      intro n hoccurs
      refine Text.lt_of_occursAt hcut (Sigil.closing_ne_nil _ _) ?_ hoccurs
      rw [List.append_assoc, Sigil.text_ofHead_append, hparts]
    refine .failed rfl ?_ ?_
    · refine Span.liesIn_of_eq (a := read) (b := s.rest) (c := []) ?_ hoffset rfl
      rw [hsource, List.append_nil]
    · rw [hsize]
      exact .unclosedTag read after hparts hoffset.symm hnone
  · obtain ⟨parts, hcontent⟩ := hspells.exists_tagParts hsource hoffset s.delimiters
    refine .failed rfl parts.span_liesIn ?_
    exact .invalidDelimiters _ parts reason rfl rfl (by rw [hcontent, hreason])

/-- What is found in rounds is a dissection. -/
lemma Rounds.dissection {tokens : List Token} {failure : Option ScanError} {d : Delimiters}
    {source read : Text} (h : s.Rounds tokens failure d) (hsource : source = read ++ s.rest)
    (hoffset : s.offset = read.byteSize) :
    Dissection source s.offset s.delimiters tokens failure := by
  induction h generalizing read with
  | last s hcut =>
    have hsize : s.offset + s.rest.byteSize = source.byteSize := by
      rw [hsource, Text.byteSize_append, hoffset]
    have hall : source = read ++ s.rest ++ [] := by rw [hsource, List.append_nil]
    rw [← List.append_nil (Mustache.textToken s.offset s.rest)]
    refine .textToken hall hoffset ?_ (by simp) ?_
    · intro n hoccurs hle
      have := Text.lt_of_occursAt hcut s.delimiters.opening_ne_nil hsource hoccurs
      omega
    · rw [hsize]
      exact .nil source s.delimiters
  | failed s text after error hcut hread =>
    have hskip : source = read ++ text ++ (s.skip text after).rest := by
      rw [hsource, Text.eq_of_cut? hcut]
      simp [skip]
    have hoffset' : (s.skip text after).offset = (read ++ text).byteSize := by
      rw [Text.byteSize_append, ← hoffset]
      rfl
    rw [← List.append_nil (Mustache.textToken s.offset text)]
    refine .textToken hskip hoffset ?_ (by simp) ?_
    · intro n hoccurs hle
      exact Text.le_of_occursAt hcut s.delimiters.opening_ne_nil hsource hoccurs hle
    · exact dissection_of_failed hskip hoffset' rfl hread
  | @round s text after sigil inside rest changed d tokens failure hcut htag later ih =>
    have hskip : source = read ++ text ++ (s.skip text after).rest := by
      rw [hsource, Text.eq_of_cut? hcut]
      simp [skip]
    have hoffset' : (s.skip text after).offset = (read ++ text).byteSize := by
      rw [Text.byteSize_append, ← hoffset]
      rfl
    obtain ⟨parts, hcontent⟩ := htag.toSpellsTag.exists_tagParts hskip hoffset' changed
    refine .textToken hskip hoffset ?_ (by simp [Token.isText]) ?_
    · intro n hoccurs hle
      exact Text.le_of_occursAt hcut s.delimiters.opening_ne_nil hsource hoccurs hle
    · refine .cons_tag parts ?_ ?_
      · rw [parts.delimitersAfter_eq, hcontent]
        have hchanged := htag.changed_eq
        by_cases hequals : sigil = .equals
        · rw [if_pos hequals] at hchanged
          simp only [rawTag, if_pos hequals, hchanged]
        · rw [if_neg hequals] at hchanged
          simp only [rawTag, if_neg hequals, hchanged]
      · have hlater :
            source = read ++ text ++ (s.skip text after).tagText sigil inside ++ rest := by
          rw [List.append_assoc, ← htag.rest_eq, hskip]
        refine ih hlater ?_
        rw [Text.byteSize_append, ← hoffset']
        rfl

end Scanner

namespace TokenStream

lemma get?_of_failed (n : Nat) : (⟨none⟩ : TokenStream).get? n = none := by
  induction n with
  | zero => rfl
  | succ n ih => exact ih

/-- Asked for one after the other, a stream gives the tokens of the scan, then the error if there
is one, and from then on nothing. -/
lemma get?_eq_getElem?_results (s : Scanner) (n : Nat) :
    (⟨some s⟩ : TokenStream).get? n = s.run.results[n]? := by
  induction n generalizing s with
  | zero =>
    rw [get?, next]
    cases h : s.step with
    | finished => simp [h, Scanner.run_of_step_finished h, Scan.results]
    | token token next => simp [h, Scanner.run_of_step_token h, Scan.results]
    | failed error => simp [h, Scanner.run_of_step_failed h, Scan.results]
  | succ n ih =>
    rw [get?, next]
    cases h : s.step with
    | finished =>
      have hrun := Scanner.run_of_step_finished h
      simpa [h, hrun, Scan.results] using ih s
    | token token next => simpa [h, Scanner.run_of_step_token h, Scan.results] using ih next
    | failed error =>
      simpa [h, Scanner.run_of_step_failed h, Scan.results] using get?_of_failed n

end TokenStream

/-- Whoever asks for one token after the other gets finitely many, and at most one error behind
them; these tokens dissect the source. -/
theorem scan_lossless (source : Text) (d : Delimiters) :
    (∀ n, (TokenStream.start source d).get? n = (scan source d).results[n]?) ∧
      Dissection source 0 d (scan source d).tokens (scan source d).failure := by
  refine ⟨fun n => TokenStream.get?_eq_getElem?_results _ n, ?_⟩
  have hrounds := Scanner.rounds_run (.start source d)
  exact hrounds.dissection (List.nil_append source).symm rfl

end Mustache
