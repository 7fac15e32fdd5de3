import Mathlib.Data.List.Forall2
import Mustache.Proofs.Tag.Segments
import Mustache.Proofs.Template.Acceptance
import Mustache.Proofs.Template.Carried

/-!
# Matching of closing tags

The builder compares paths to find whether a closing tag matches the innermost open section. As
names and paths correspond one to one, this compares the contents of the two tags, and the names
that are reported are the contents of the tags at fault. Which section is the innermost one is told
from the tokens: behind its opening tag all sections are closed again.
-/

namespace Mustache

section
variable {source : Text} {tokens : List Token} {opens : OpenNames} {raw opening : RawTag}
  {b : Builder}

/-! ### The innermost open section -/

/-- What opens the innermost section that tokens leave open: behind this tag the sections are
correctly nested. -/
structure OpensInnermost (source : Text) (tokens : List Token) (opening : RawTag) : Prop where
  sigil : opening.sigil = .hash ∨ opening.sigil = .caret
  balanced_behind : ∃ front inner, tokens = front ++ .tag opening :: inner ∧
    Bracket.Balanced (brackets source inner)

/-- The section that a builder closes next was opened by this tag. -/
def Builder.ClosesNext (b : Builder) (source : Text) (opening : RawTag) : Prop :=
  ∃ s ∈ b.pending.head?, s.span = opening.span ∧ Path.parse (opening.name source) = .ok s.path

/-- All sections are closed behind the tokens: the template can end here, and a closing tag is told
its own name. -/
structure Builder.Closed (b : Builder) (source : Text) (tokens : List Token) : Prop where
  pending_eq : b.pending = []
  balanced : Bracket.Balanced (brackets source tokens)
  finish : ∃ t, b.finish source = .ok t
  close : ∀ (raw : RawTag) (path : Path), raw.sigil = .slash →
    Path.parse (raw.name source) = .ok path →
      b.addToken source (.tag raw) = .error ⟨.unexpectedClose (raw.name source), raw.span⟩

/-- The section of `opening` is the innermost that is open behind the tokens: it has to be closed,
by a tag with the same name; otherwise the names of the two tags are told. -/
structure Builder.Awaits (b : Builder) (source : Text) (tokens : List Token) (opening : RawTag) :
    Prop where
  opensInnermost : OpensInnermost source tokens opening
  closesNext : b.ClosesNext source opening
  finish : b.finish source = .error ⟨.unclosedSection (opening.name source), opening.span⟩
  close : ∀ (raw : RawTag) (path : Path), raw.sigil = .slash →
    Path.parse (raw.name source) = .ok path →
      if opening.name source = raw.name source then
        ∃ b', b.addToken source (.tag raw) = .ok b' ∧ b'.pending.length + 1 = b.pending.length
      else
        b.addToken source (.tag raw) =
          .error ⟨.mismatchedClose (opening.name source) (raw.name source), raw.span⟩

lemma RawTag.sigil_of_bracket?_eq_opening {name : Text} {span : Span}
    (h : raw.bracket? source = some (.opening name span)) :
    (raw.sigil = .hash ∨ raw.sigil = .caret) ∧ raw.name source = name ∧ raw.span = span := by
  rw [bracket?] at h
  split at h
  · next hsigil =>
    obtain ⟨hname, hspan⟩ := Bracket.opening.inj (Option.some.inj h)
    exact ⟨.inl hsigil, hname, hspan⟩
  · next hsigil =>
    obtain ⟨hname, hspan⟩ := Bracket.opening.inj (Option.some.inj h)
    exact ⟨.inr hsigil, hname, hspan⟩
  · exact absurd (Option.some.inj h) (by simp)
  · simp at h

/-- The innermost of the sections that sound tokens leave open is that of an opening tag among
them. -/
lemma Sound.exists_opensInnermost {name : Text} {span : Span} {outer : OpenNames}
    (h : Sound source tokens ((name, span) :: outer)) :
    ∃ opening, OpensInnermost source tokens opening ∧ opening.name source = name ∧
      opening.span = span := by
  obtain ⟨before, inner, hbrackets, -, hinner⟩ := h.leavesOpen.exists_eq_append
  obtain ⟨front, rest, rfl, -, hrest⟩ := List.filterMap_eq_append_iff.1 hbrackets
  obtain ⟨skipped, token, behind, rfl, hskipped, htoken, hbehind⟩ :=
    List.filterMap_eq_cons_iff.1 hrest
  cases token with
  | text span => simp [Token.bracket?] at htoken
  | tag opening =>
    obtain ⟨hsigil, hname, hspan⟩ := RawTag.sigil_of_bracket?_eq_opening htoken
    have hbalanced : Bracket.Balanced (brackets source behind) := by
      rw [brackets, hbehind]
      exact hinner
    exact ⟨opening, ⟨hsigil, front ++ skipped, behind, by simp, hbalanced⟩, hname, hspan⟩

/-! ### The builder -/

lemma foldlM_append_error {earlier later : List Token} {token : Token} {e : ParseError}
    (hearlier : earlier.foldlM (Builder.addToken source) Builder.empty = .ok b)
    (htoken : Builder.addToken source b token = .error e) :
    (earlier ++ token :: later).foldlM (Builder.addToken source) Builder.empty = .error e := by
  simp only [List.foldlM_append, List.foldlM_cons, hearlier, htoken, bind, Except.bind]

/-- Tokens that the builder accepts are sound, and it has the sections open that they leave open. -/
lemma Template.sound_of_foldlM
    (h : tokens.foldlM (Builder.addToken source) Builder.empty = .ok b) :
    ∃ opens, Sound source tokens opens ∧ b.Nests opens := by
  have hnil : Sound source [] [] := sound_nil
  rcases sound_or_exists_violates hnil tokens with
    ⟨opens, hsound⟩ | ⟨earlier, raw, later, opens, fault, htokens, hsound, hviolates⟩
  · obtain ⟨b', hb', hnests⟩ := exists_nests_of_sound hsound
    obtain rfl : b' = b := Except.ok.inj (hb'.symm.trans h)
    exact ⟨opens, hsound, hnests⟩
  · obtain ⟨b', hb', hnests⟩ := exists_nests_of_sound hsound
    rw [List.nil_append] at htokens
    rw [htokens, foldlM_append_error hb' (hnests.addToken_of_violates hviolates)] at h
    simp at h

namespace Builder

lemma wellNamed_of_slash {path : Path} (hsigil : raw.sigil = .slash)
    (hpath : Path.parse (raw.name source) = .ok path) : raw.WellNamed source :=
  ⟨fun _ => Path.exists_parse_eq_ok_iff.1 ⟨path, hpath⟩, by simp [hsigil]⟩

lemma Nests.closesNext (h : b.Nests ((opening.name source, opening.span) :: opens)) :
    b.ClosesNext source opening := by
  obtain ⟨table, root, pending, k⟩ := b
  cases h with
  | cons hs houter => exact ⟨_, rfl, hs.2, hs.1⟩

lemma Nests.length_pending (h : b.Nests opens) : b.pending.length = opens.length := h.length_eq

lemma Nests.closed (h : b.Nests []) (hsound : Sound source tokens []) :
    b.Closed source tokens where
  pending_eq := List.length_eq_zero_iff.1 h.length_pending
  balanced := Bracket.leavesOpen_nil_iff.1 hsound.leavesOpen
  finish := h.finish_nil source
  close _ _ hsigil hpath :=
    h.addToken_of_violates (.unexpected hsigil (wellNamed_of_slash hsigil hpath) rfl)

/-- A closing tag closes the innermost open section if the two have the same name. -/
lemma Nests.addToken_slash {name : Text} {span : Span} (h : b.Nests ((name, span) :: opens))
    (hsigil : raw.sigil = .slash) (hname : raw.WellNamed source) :
    if name = raw.name source then
      ∃ b', addToken source b (.tag raw) = .ok b' ∧ b'.Nests opens
    else
      addToken source b (.tag raw) =
        .error ⟨.mismatchedClose name (raw.name source), raw.span⟩ := by
  split
  · next heq =>
    have hb : raw.bracket? source = some (.closing (raw.name source)) := by
      rw [RawTag.bracket?, hsigil]
    exact h.addToken_of_settles (.bracket hname hb (if_pos heq))
  · next hne => exact h.addToken_of_violates (.mismatched hsigil hname rfl hne)

lemma Nests.awaits (h : b.Nests ((opening.name source, opening.span) :: opens))
    (hopening : OpensInnermost source tokens opening) : b.Awaits source tokens opening where
  opensInnermost := hopening
  closesNext := h.closesNext
  finish := h.finish_cons source
  close raw path hsigil hpath := by
    have hclose := h.addToken_slash hsigil (wellNamed_of_slash hsigil hpath)
    split at hclose
    · next heq =>
      obtain ⟨b', hb', hnests'⟩ := hclose
      rw [if_pos heq]
      refine ⟨b', hb', ?_⟩
      rw [hnests'.length_pending, h.length_pending, List.length_cons]
    · next hne =>
      rw [if_neg hne]
      exact hclose

/-- Behind tokens that the builder has accepted all sections are closed, or one is the innermost
that is open. -/
lemma closed_or_awaits (h : tokens.foldlM (addToken source) empty = .ok b) :
    b.Closed source tokens ∨ ∃ opening, b.Awaits source tokens opening := by
  obtain ⟨opens, hsound, hnests⟩ := Template.sound_of_foldlM h
  cases opens with
  | nil => exact .inl (hnests.closed hsound)
  | cons innermost outer =>
    obtain ⟨opening, hopening, hname, hspan⟩ := hsound.exists_opensInnermost
    obtain rfl : (opening.name source, opening.span) = innermost := Prod.ext hname hspan
    exact .inr ⟨opening, hnests.awaits hopening⟩

end Builder

end

/-! ### What is reported -/

/-- The errors of tags that do not match, with the contents of the tags. -/
inductive Unmatched (source : Text) (tokens : List Token) : ParseError → Prop
  | close {earlier later : List Token} {raw : RawTag}
      (htokens : tokens = earlier ++ .tag raw :: later) (hsigil : raw.sigil = .slash)
      (hclosed : Bracket.Balanced (brackets source earlier)) :
      Unmatched source tokens ⟨.unexpectedClose (raw.name source), raw.span⟩
  | mismatch {earlier later : List Token} {raw opening : RawTag}
      (htokens : tokens = earlier ++ .tag raw :: later) (hsigil : raw.sigil = .slash)
      (hopening : OpensInnermost source earlier opening)
      (hne : opening.name source ≠ raw.name source) :
      Unmatched source tokens
        ⟨.mismatchedClose (opening.name source) (raw.name source), raw.span⟩
  | unclosed {opening : RawTag} (hopening : OpensInnermost source tokens opening) :
      Unmatched source tokens ⟨.unclosedSection (opening.name source), opening.span⟩

/-- Faults of tags that do not match. -/
def ParseFault.isUnmatched : ParseFault → Bool
  | .unexpectedClose _ | .mismatchedClose _ _ | .unclosedSection _ => true
  | _                                                              => false

lemma RawTag.NameFault.isUnmatched {raw : RawTag} {source : Text} {fault : ParseFault}
    (h : raw.NameFault source fault) : fault.isUnmatched = false := by
  cases h <;> rfl

lemma FirstFault.unmatched {source : Text} {found : Scan} {e : ParseError}
    (h : FirstFault source found e) (hfault : e.fault.isUnmatched) :
    Unmatched source found.tokens e := by
  cases h with
  | @scan failure opens hfailure hsound =>
    cases failure <;> simp [ParseError.ofScanError, ParseFault.isUnmatched] at hfault
  | unclosed hfailure hsound =>
    obtain ⟨opening, hopening, rfl, rfl⟩ := hsound.exists_opensInnermost
    exact .unclosed hopening
  | @tag earlier later raw opens fault htokens hsound hviolates =>
    cases hviolates with
    | name hname => simp [hname.isUnmatched] at hfault
    | unexpected hsigil hname hopens =>
      subst hopens
      exact .close htokens hsigil (Bracket.leavesOpen_nil_iff.1 hsound.leavesOpen)
    | mismatched hsigil hname hopens hne =>
      subst hopens
      obtain ⟨opening, hopening, rfl, rfl⟩ := hsound.exists_opensInnermost
      exact .mismatch htokens hsigil hopening hne

/-- The name of a tag is what stands between its sigil and its end, trimmed. -/
lemma TagParts.name_eq_trim {source : Text} {d : Delimiters} {raw : RawTag}
    (parts : TagParts source d raw) :
    ∃ inside, raw.span.slice source =
        d.opening ++ raw.sigil.text ++ inside ++ raw.sigil.closing d ∧
      raw.name source = inside.trim := by
  refine ⟨parts.front ++ parts.content ++ parts.back, ?_, ?_⟩
  · rw [parts.slice_span, TagParts.text]
    simp only [List.append_assoc]
  · rw [Text.trim_append parts.head_content parts.isBlank_front parts.last_content
      parts.isBlank_back]
    exact parts.slice_content

lemma Template.unmatched_of_compile {source : Text} {d : Delimiters} {e : ParseError}
    (h : compile source d = .error e) (hfault : e.fault.isUnmatched) :
    Unmatched source (scan source d).tokens e := by
  by_cases hsize : source.byteSize ≤ maxOffset
  · exact (firstFault_of_compile hsize h).unmatched hfault
  · rw [compile, if_pos (Nat.lt_of_not_le hsize), Except.error.injEq] at h
    subst h
    simp [ParseFault.isUnmatched] at hfault

/-- Every text is split at its dots in one way, is read as a path just if it is a dot alone or all
its pieces are words, and is what this path is shown as; and a path whose segments are words without
dots is read from what it is shown as. So two names with one path are the same. Whatever tokens the
builder has accepted, a closing tag is accepted just if it has the name of the tag that opened the
innermost section that is still open, and the faults tell the names of these tags; so do the errors
of sources, in which the name of a tag is its trimmed content. -/
theorem parse_display_and_addToken_slash :
    (∀ name : Text, ∃ pieces, (∀ other, name.DotPieces other ↔ other = pieces) ∧
      (∀ path, Path.parse name = .ok path ↔
        name = ['.'] ∧ path = Path.implicit ∨ (∀ s ∈ pieces, s.IsWord) ∧ path = ⟨pieces⟩) ∧
      (∀ fault, (Path.parse name).mapError ParseFault.ofPathError = .error fault ↔
        name = [] ∧ fault = .emptyName ∨
          name ≠ [] ∧ ¬ (name = ['.'] ∨ ∀ s ∈ pieces, s.IsWord) ∧ fault = .invalidPath name) ∧
      (∀ path, Path.parse name = .ok path → path.display = name) ∧
      ∀ other path, Path.parse name = .ok path → Path.parse other = .ok path → name = other) ∧
    (∀ segments : List Text, (∀ s ∈ segments, s.IsWord ∧ '.' ∉ s) →
      (Path.mk segments).display =
        (if segments = [] then ['.'] else ['.'].intercalate segments) ∧
      Path.parse (Path.mk segments).display = .ok ⟨segments⟩) ∧
    (∀ (source : Text) (tokens : List Token) (b : Builder),
      tokens.foldlM (Builder.addToken source) Builder.empty = .ok b →
        b.Closed source tokens ∨ ∃ opening, b.Awaits source tokens opening) ∧
    ∀ (source : Text) (d : Delimiters),
      (∀ raw, .tag raw ∈ (scan source d).tokens → ∃ (d' : Delimiters) (inside : Text),
        raw.span.slice source =
          d'.opening ++ raw.sigil.text ++ inside ++ raw.sigil.closing d' ∧
        raw.name source = inside.trim) ∧
      ∀ e, Template.compile source d = .error e → e.fault.isUnmatched →
        Unmatched source (scan source d).tokens e := by
  refine ⟨fun name => ?_, fun segments hsegments => ?_,
    fun source tokens b => Builder.closed_or_awaits,
    fun source d => ⟨fun raw hraw => ?_, fun e => Template.unmatched_of_compile⟩⟩
  · have hpieces := Text.dotPieces_pieces name
    exact ⟨_, fun other => Text.dotPieces_iff,
      fun path => Path.parse_eq_ok_iff_of_dotPieces hpieces,
      fun fault => Path.parse_eq_error_iff_of_dotPieces hpieces,
      fun path => Path.display_of_parse, fun other path => Path.parse_injective⟩
  · exact ⟨Path.display_eq_intercalate segments, Path.parse_display_of_isWord hsegments⟩
  · obtain ⟨d', ⟨parts⟩⟩ := Scanner.exists_tagParts_of_mem_scan hraw
    obtain ⟨inside, hspan, htrim⟩ := parts.name_eq_trim
    exact ⟨d', inside, hspan, htrim⟩

/-- A dotted name, a section of this name that is still open, and one with another closing tag. -/
theorem parse_dotted_and_unmatched :
    ∃ d, Delimiters.make ['<'] ['>'] = .ok d ∧
      Path.parse "a.b".toList = .ok ⟨[['a'], ['b']]⟩ ∧
      (∃ b opening, (scan "<#a.b>x".toList d).tokens.foldlM (Builder.addToken "<#a.b>x".toList)
          Builder.empty = .ok b ∧
        OpensInnermost "<#a.b>x".toList (scan "<#a.b>x".toList d).tokens opening ∧
        b.finish "<#a.b>x".toList =
          .error ⟨.unclosedSection (opening.name "<#a.b>x".toList), opening.span⟩) ∧
      Unmatched "<#a.b></ a >".toList (scan "<#a.b></ a >".toList d).tokens
        ⟨.mismatchedClose "a.b".toList ['a'], ⟨6, 12⟩⟩ := by
  let d : Delimiters := ⟨['<'], ['>'], delimiterError?_eq_none_iff.1 rfl,
    delimiterError?_eq_none_iff.1 rfl⟩
  obtain ⟨-, hsegments, hbuilder, hsource⟩ := parse_display_and_addToken_slash
  refine ⟨d, d.make_self, ?_, ?_, ?_⟩
  · have hword : ∀ c, isBlank c = false → '.' ≠ c → Text.IsWord [c] ∧ '.' ∉ [c] :=
      fun c hc hdot => ⟨Text.isWord_singleton hc, by simpa using hdot⟩
    have hwords : ∀ s ∈ [['a'], ['b']], Text.IsWord s ∧ '.' ∉ s :=
      List.forall_mem_cons.2 ⟨hword 'a' rfl (by decide),
        List.forall_mem_singleton.2 (hword 'b' rfl (by decide))⟩
    exact (hsegments _ hwords).2
  · have hopen : (((scan "<#a.b>x".toList d).tokens.foldlM (Builder.addToken "<#a.b>x".toList)
        Builder.empty).map fun b => b.pending.length).toOption = some 1 := by decide +kernel
    cases hb : (scan "<#a.b>x".toList d).tokens.foldlM (Builder.addToken "<#a.b>x".toList)
      Builder.empty with
    | error e =>
      rw [hb] at hopen
      exact absurd hopen (by simp [Except.map, Except.toOption])
    | ok b =>
      rw [hb] at hopen
      rcases hbuilder _ _ b hb with hclosed | ⟨opening, hawaits⟩
      · exact absurd hopen (by simp [hclosed.pending_eq, Except.map, Except.toOption])
      · exact ⟨b, opening, rfl, hawaits.opensInnermost, hawaits.finish⟩
  · exact (hsource _ d).2 _ (by decide +kernel) rfl

end Mustache
