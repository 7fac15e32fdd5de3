import Mathlib.Data.List.Induction
import Mustache.Proofs.Tag.Names
import Mustache.Proofs.Template.Brackets
import Mustache.Proofs.Template.Fragments

/-!
# Which sources compile

A source compiles if it can be split into tokens, all its tags are named well and its sections are
correctly nested. Otherwise the first thing that is wrong is reported: `FirstFault` tells which
that is, from the tokens alone. The builder agrees because its open sections are, at every token,
the ones that the tokens read so far leave open.
-/

namespace Mustache

/-! ### What can be wrong -/

/-- The bracket that a tag is. -/
def RawTag.bracket? (raw : RawTag) (source : Text) : Option Bracket :=
  match raw.sigil with
  | .hash | .caret => some (.opening (raw.name source) raw.span)
  | .slash         => some (.closing (raw.name source))
  | _              => none

/-- The bracket that a token is. -/
def Token.bracket? (source : Text) : Token → Option Bracket
  | .text _  => none
  | .tag raw => raw.bracket? source

/-- The brackets among tokens. -/
def brackets (source : Text) (tokens : List Token) : List Bracket :=
  tokens.filterMap (Token.bracket? source)

/-- Tokens with which a template can begin: their tags are named well, and their brackets leave
sections open. -/
structure Sound (source : Text) (tokens : List Token) (opens : OpenNames) : Prop where
  wellNamed : ∀ raw, .tag raw ∈ tokens → raw.WellNamed source
  leavesOpen : Bracket.LeavesOpen (brackets source tokens) opens

/-- What is wrong with a tag where sections are open: its name, or that it closes none of them, or
another one than the innermost. -/
inductive Violates (source : Text) (opens : OpenNames) (raw : RawTag) : ParseFault → Prop
  | name {fault : ParseFault} (h : raw.NameFault source fault) : Violates source opens raw fault
  | unexpected (hsigil : raw.sigil = .slash) (hname : raw.WellNamed source) (hopens : opens = []) :
      Violates source opens raw (.unexpectedClose (raw.name source))
  | mismatched {expected : Text} {span : Span} {outer : OpenNames} (hsigil : raw.sigil = .slash)
      (hname : raw.WellNamed source) (hopens : opens = (expected, span) :: outer)
      (hne : expected ≠ raw.name source) :
      Violates source opens raw (.mismatchedClose expected (raw.name source))

/-- The first thing wrong with a source: a tag after sound tokens, the end of the scan if all tokens
are sound, or else a section that they leave open. -/
inductive FirstFault (source : Text) (found : Scan) : ParseError → Prop
  | tag {earlier later : List Token} {raw : RawTag} {opens : OpenNames} {fault : ParseFault}
      (htokens : found.tokens = earlier ++ .tag raw :: later) (hsound : Sound source earlier opens)
      (h : Violates source opens raw fault) : FirstFault source found ⟨fault, raw.span⟩
  | scan {failure : ScanError} {opens : OpenNames} (hfailure : found.failure = some failure)
      (hsound : Sound source found.tokens opens) : FirstFault source found (.ofScanError failure)
  | unclosed {name : Text} {span : Span} {outer : OpenNames} (hfailure : found.failure = none)
      (hsound : Sound source found.tokens ((name, span) :: outer)) :
      FirstFault source found ⟨.unclosedSection name, span⟩

/-! ### Tokens one by one -/

section
variable {source : Text} {tokens more : List Token} {opens after : OpenNames} {raw : RawTag}

/-- What the next token does to the open sections, if nothing is wrong with it. -/
inductive Settles (source : Text) (opens : OpenNames) : Token → OpenNames → Prop
  | text (span : Span) : Settles source opens (.text span) opens
  | bracket {raw : RawTag} {b : Bracket} {after : OpenNames} (hname : raw.WellNamed source)
      (hb : raw.bracket? source = some b) (h : Bracket.settle? opens b = some after) :
      Settles source opens (.tag raw) after
  | other {raw : RawTag} (hname : raw.WellNamed source) (hb : raw.bracket? source = none) :
      Settles source opens (.tag raw) opens

lemma brackets_concat (source : Text) (tokens : List Token) (token : Token) :
    brackets source (tokens ++ [token]) =
      brackets source tokens ++ (token.bracket? source).toList := by
  rw [brackets, List.filterMap_append]
  cases h : token.bracket? source <;> simp [brackets, h]

lemma RawTag.eq_of_bracket?_eq_some {b : Bracket} (h : raw.bracket? source = some b) :
    b = .opening (raw.name source) raw.span ∨
      raw.sigil = .slash ∧ b = .closing (raw.name source) := by
  rw [bracket?] at h
  split at h
  · exact .inl (Option.some.inj h).symm
  · exact .inl (Option.some.inj h).symm
  · next hsigil => exact .inr ⟨hsigil, (Option.some.inj h).symm⟩
  · simp at h

lemma sound_nil : Sound source [] [] := ⟨by simp, .nil⟩

lemma Sound.settles {token : Token} (h : Sound source tokens opens)
    (hsettles : Settles source opens token after) : Sound source (tokens ++ [token]) after := by
  constructor
  · intro raw hraw
    rcases List.mem_append.1 hraw with hraw | hraw
    · exact h.wellNamed raw hraw
    · rw [List.mem_singleton] at hraw
      subst hraw
      cases hsettles with
      | bracket hname => exact hname
      | other hname => exact hname
  · have hopen := h.leavesOpen
    rw [brackets_concat]
    cases hsettles with
    | text span => simpa [Token.bracket?] using hopen
    | bracket _ hb hsettle => simpa [Token.bracket?, hb] using hopen.settle hsettle
    | other _ hb => simpa [Token.bracket?, hb] using hopen

lemma Sound.of_concat {token : Token} (h : Sound source (tokens ++ [token]) after) :
    ∃ opens, Sound source tokens opens ∧ Settles source opens token after := by
  have hleaves := h.leavesOpen
  rw [brackets_concat, ← Bracket.foldlM_settle?_eq_some_iff, List.foldlM_append,
    Option.bind_eq_bind, Option.bind_eq_some_iff] at hleaves
  obtain ⟨opens, hopens, hlast⟩ := hleaves
  have hnames : ∀ raw, .tag raw ∈ tokens → raw.WellNamed source := fun raw hraw =>
    h.wellNamed raw (List.mem_append_left [token] hraw)
  refine ⟨opens, ⟨hnames, Bracket.foldlM_settle?_eq_some_iff.1 hopens⟩, ?_⟩
  cases token with
  | text span =>
    obtain rfl : opens = after := Option.some.inj hlast
    exact .text span
  | tag raw =>
    have hname := h.wellNamed raw (by simp)
    rw [Token.bracket?] at hlast
    cases hb : raw.bracket? source with
    | none =>
      rw [hb] at hlast
      obtain rfl : opens = after := Option.some.inj hlast
      exact .other hname hb
    | some b =>
      refine .bracket hname hb ?_
      simpa [hb] using hlast

/-- Every tag either violates something or settles. -/
lemma settles_or_violates (source : Text) (opens : OpenNames) (raw : RawTag) :
    (∃ after, Settles source opens (.tag raw) after) ∨
      ∃ fault, Violates source opens raw fault := by
  by_cases hname : raw.WellNamed source
  · cases hb : raw.bracket? source with
    | none => exact .inl ⟨opens, .other hname hb⟩
    | some b =>
      cases hsettle : Bracket.settle? opens b with
      | some after => exact .inl ⟨after, .bracket hname hb hsettle⟩
      | none =>
        right
        rcases RawTag.eq_of_bracket?_eq_some hb with rfl | ⟨hsigil, rfl⟩
        · cases opens <;> simp [Bracket.settle?] at hsettle
        · cases opens with
          | nil => exact ⟨_, .unexpected hsigil hname rfl⟩
          | cons s outer =>
            obtain ⟨expected, span⟩ := s
            refine ⟨_, .mismatched hsigil hname rfl ?_⟩
            intro heq
            simp [Bracket.settle?, heq] at hsettle
  · rw [← Tag.exists_ofRaw_eq_ok_iff] at hname
    cases hraw : Tag.ofRaw raw source with
    | ok tag => exact absurd ⟨tag, hraw⟩ hname
    | error e =>
      obtain ⟨fault, hfault, -⟩ := Tag.ofRaw_eq_error_iff.1 hraw
      exact .inr ⟨fault, .name hfault⟩

/-- From sound tokens on, all tokens are sound, or one of them is the first with a fault. -/
lemma sound_or_exists_violates (h : Sound source tokens opens) (more : List Token) :
    (∃ after, Sound source (tokens ++ more) after) ∨
      ∃ earlier raw later after fault, tokens ++ more = earlier ++ .tag raw :: later ∧
        Sound source earlier after ∧ Violates source after raw fault := by
  induction more generalizing tokens opens with
  | nil => exact .inl ⟨opens, by rwa [List.append_nil]⟩
  | cons token more ih =>
    have hnext : (∃ after, Settles source opens token after) ∨
        ∃ raw fault, token = .tag raw ∧ Violates source opens raw fault := by
      cases token with
      | text span => exact .inl ⟨opens, .text span⟩
      | tag raw =>
        rcases settles_or_violates source opens raw with hsettles | ⟨fault, hfault⟩
        · exact .inl hsettles
        · exact .inr ⟨raw, fault, rfl, hfault⟩
    rcases hnext with ⟨after, hsettles⟩ | ⟨raw, fault, rfl, hfault⟩
    · rw [List.append_cons]
      exact ih (h.settles hsettles)
    · exact .inr ⟨tokens, raw, more, opens, fault, rfl, h, hfault⟩

end

/-! ### The builder -/

lemma Tag.exists_ofRaw_eq_closeTag {raw : RawTag} {source : Text} (hsigil : raw.sigil = .slash)
    (hname : raw.WellNamed source) :
    ∃ path, Path.parse (raw.name source) = .ok path ∧ ofRaw raw source = .ok (.closeTag path) := by
  obtain ⟨path, hpath⟩ :=
    Path.exists_parse_eq_ok_iff.2 (hname.isName (by rw [hsigil]; rfl))
  refine ⟨path, hpath, ?_⟩
  rw [ofRaw_eq_ok_iff, hsigil]
  exact .slash hpath

/-- The bracket of a tag, by what the tag says. -/
lemma Tag.bracket?_of_ofRaw {raw : RawTag} {source : Text} {tag : Tag}
    (h : ofRaw raw source = .ok tag) :
    match tag with
    | .openTag path _ => Path.parse (raw.name source) = .ok path ∧
        raw.bracket? source = some (.opening (raw.name source) raw.span)
    | .closeTag path  => Path.parse (raw.name source) = .ok path ∧
        raw.bracket? source = some (.closing (raw.name source))
    | _               => raw.bracket? source = none := by
  have hmeans := ofRaw_eq_ok_iff.1 h
  rw [RawTag.bracket?]
  generalize raw.sigil = sigil at hmeans
  cases hmeans with
  | hash hpath | caret hpath | slash hpath => exact ⟨hpath, rfl⟩
  | absent | brace | ampersand | bang | angle | equals => rfl

/-- The sections that are open in a builder have these names and opening tags. -/
def Builder.Nests (b : Builder) (opens : OpenNames) : Prop :=
  List.Forall₂ (fun s o => Path.parse o.1 = .ok s.path ∧ s.span = o.2) b.pending opens

namespace Builder.Nests

variable {b : Builder} {opens after : OpenNames} {source : Text} {raw : RawTag}

lemma setCurrent (h : b.Nests opens) (nodes : List Node) : (b.setCurrent nodes).Nests opens := by
  obtain ⟨table, root, pending, k⟩ := b
  cases h with
  | nil => exact .nil
  | cons hs houter => exact .cons hs houter

lemma push (h : b.Nests opens) (node : Node) : (b.push node).Nests opens := h.setCurrent _

lemma addText (h : b.Nests opens) (span : Span) : (b.addText span).Nests opens := by
  unfold Builder.addText
  simp only
  split
  · exact h.push _
  · exact h

lemma cutLine (h : b.Nests opens) (line : Option StandaloneLine) :
    (b.cutLine line).Nests opens := by
  cases line with
  | none => exact h
  | some line =>
    unfold Builder.cutLine removeLine
    simp only
    split
    · exact h
    · exact h.setCurrent _

lemma place_of_settles {tag : Tag} {d : Delimiters} {indent : Text} (h : b.Nests opens)
    (htag : Tag.ofRaw raw source = .ok tag) (hsettles : Settles source opens (.tag raw) after) :
    ∃ b', b.place tag raw.span d indent = .ok b' ∧ b'.Nests after := by
  have hbracket := Tag.bracket?_of_ofRaw htag
  cases tag with
  | openTag path inverted =>
    obtain ⟨hparse, hb⟩ := hbracket
    cases hsettles with
    | other _ hb' => simp [hb] at hb'
    | bracket _ hb' hsettle =>
      obtain rfl := Option.some.inj (hb.symm.trans hb')
      obtain rfl : (raw.name source, raw.span) :: opens = after := by
        cases opens <;> exact Option.some.inj hsettle
      exact ⟨_, rfl, .cons ⟨hparse, rfl⟩ h⟩
  | closeTag path =>
    obtain ⟨hparse, hb⟩ := hbracket
    cases hsettles with
    | other _ hb' => simp [hb] at hb'
    | bracket _ hb' hsettle =>
      obtain rfl := Option.some.inj (hb.symm.trans hb')
      obtain ⟨table, root, pending, k⟩ := b
      cases h with
      | nil => simp [Bracket.settle?] at hsettle
      | @cons s o pending opens hs houter =>
        obtain ⟨name, span⟩ := o
        rw [Bracket.settle?] at hsettle
        split at hsettle
        · next heq =>
          obtain rfl : opens = after := Option.some.inj hsettle
          have hpath : s.path = path := by
            have hparse' := hs.1
            simp only [heq, hparse, Except.ok.injEq] at hparse'
            exact hparse'.symm
          refine ⟨_, if_pos hpath, push ?_ _⟩
          exact houter
        · simp at hsettle
  | variableTag path escaped | partialTag name | commentTag | delimiterTag =>
    cases hsettles with
    | bracket _ hb => simp [hbracket] at hb
    | other => exact ⟨_, rfl, by first | exact h | exact h.push _⟩

/-- The builder accepts a token that settles, and its open sections change with it. -/
lemma addToken_of_settles {token : Token} (h : b.Nests opens)
    (hsettles : Settles source opens token after) :
    ∃ b', addToken source b token = .ok b' ∧ b'.Nests after := by
  cases token with
  | text span =>
    cases hsettles
    exact ⟨_, rfl, h.addText span⟩
  | tag raw =>
    have hname : raw.WellNamed source := by
      cases hsettles with
      | bracket hname => exact hname
      | other hname => exact hname
    obtain ⟨tag, htag⟩ := Tag.exists_ofRaw_eq_ok_iff.2 hname
    rw [addToken_tag, htag]
    exact (h.cutLine _).place_of_settles htag hsettles

lemma closeSection_of_nil {path : Path} {span : Span} (h : b.Nests []) :
    b.closeSection path span = .error ⟨.unexpectedClose path.display, span⟩ := by
  obtain ⟨table, root, pending, k⟩ := b
  cases h
  rfl

lemma closeSection_of_ne {name : Text} {opened : Span} (h : b.Nests ((name, opened) :: opens))
    {path : Path} (hne : ∀ p, Path.parse name = .ok p → p ≠ path) (span : Span) :
    b.closeSection path span = .error ⟨.mismatchedClose name path.display, span⟩ := by
  obtain ⟨table, root, pending, k⟩ := b
  cases h with
  | @cons s o pending opens hs houter =>
    have hname : s.path.display = name := Path.display_of_parse hs.1
    rw [← hname]
    exact if_neg (hne s.path hs.1)

/-- The builder rejects a tag that violates something, for that reason. -/
lemma addToken_of_violates {fault : ParseFault} (h : b.Nests opens)
    (hviolates : Violates source opens raw fault) :
    addToken source b (.tag raw) = .error ⟨fault, raw.span⟩ := by
  rw [addToken_tag]
  cases hviolates with
  | name hfault =>
    rw [Tag.ofRaw_eq_error_iff.2 ⟨fault, hfault, rfl⟩]
    rfl
  | unexpected hsigil hname hopens =>
    subst hopens
    obtain ⟨path, hpath, htag⟩ := Tag.exists_ofRaw_eq_closeTag hsigil hname
    rw [htag, ← Path.display_of_parse hpath]
    exact (h.cutLine _).closeSection_of_nil
  | mismatched hsigil hname hopens hne =>
    subst hopens
    obtain ⟨path, hpath, htag⟩ := Tag.exists_ofRaw_eq_closeTag hsigil hname
    rw [htag]
    have hpaths : ∀ p, Path.parse _ = .ok p → p ≠ path := fun p hp hp' =>
      hne (Path.parse_injective hp (hp' ▸ hpath))
    have hclose := (h.cutLine (raw.line? source)).closeSection_of_ne hpaths raw.span
    rw [Path.display_of_parse hpath] at hclose
    exact hclose

lemma finish_nil (h : b.Nests []) (source : Text) : ∃ t, b.finish source = .ok t := by
  obtain ⟨table, root, pending, k⟩ := b
  cases h
  exact ⟨_, rfl⟩

lemma finish_cons {name : Text} {span : Span} (h : b.Nests ((name, span) :: opens))
    (source : Text) : b.finish source = .error ⟨.unclosedSection name, span⟩ := by
  obtain ⟨table, root, pending, k⟩ := b
  cases h with
  | @cons s o pending opens hs houter =>
    have hname : s.path.display = name := Path.display_of_parse hs.1
    have hspan : s.span = span := hs.2
    rw [← hname, ← hspan]
    rfl

end Builder.Nests

/-! ### Sources -/

namespace Template

variable {source : Text} {d : Delimiters}

/-- After sound tokens the builder has the sections open that they leave open. -/
lemma exists_nests_of_sound {tokens : List Token} {opens : OpenNames}
    (h : Sound source tokens opens) :
    ∃ b, tokens.foldlM (Builder.addToken source) Builder.empty = .ok b ∧ b.Nests opens := by
  induction tokens using List.reverseRecOn generalizing opens with
  | nil =>
    obtain rfl : [] = opens :=
      Option.some.inj (Bracket.foldlM_settle?_eq_some_iff.2 h.leavesOpen)
    exact ⟨_, rfl, .nil⟩
  | append_singleton tokens token ih =>
    obtain ⟨before, hbefore, hsettles⟩ := h.of_concat
    obtain ⟨b, hb, hnests⟩ := ih hbefore
    obtain ⟨b', hb', hnests'⟩ := hnests.addToken_of_settles hsettles
    refine ⟨b', ?_, hnests'⟩
    rw [List.foldlM_append, hb]
    show (Builder.addToken source b token).bind _ = _
    rw [hb']
    rfl

/-- The first fault is the one reported. -/
lemma compile_eq_error_of_firstFault (hsize : source.byteSize ≤ maxOffset) {e : ParseError}
    (h : FirstFault source (scan source d) e) : compile source d = .error e := by
  rw [compile]
  rw [if_neg (Nat.not_lt.2 hsize)]
  cases h with
  | tag htokens hsound hviolates =>
    obtain ⟨b, hb, hnests⟩ := exists_nests_of_sound hsound
    simp only [htokens, List.foldlM_append, List.foldlM_cons, hb,
      hnests.addToken_of_violates hviolates, bind, Except.bind]
  | scan hfailure hsound =>
    obtain ⟨b, hb, -⟩ := exists_nests_of_sound hsound
    simp only [hb, hfailure]
  | unclosed hfailure hsound =>
    obtain ⟨b, hb, hnests⟩ := exists_nests_of_sound hsound
    simp only [hb, hfailure]
    exact hnests.finish_cons source

/-- Sound tokens that leave no section open are those of a template. -/
lemma exists_compile_eq_ok (hsize : source.byteSize ≤ maxOffset)
    (hfailure : (scan source d).failure = none) (hsound : Sound source (scan source d).tokens []) :
    ∃ t, compile source d = .ok t := by
  obtain ⟨b, hb, hnests⟩ := exists_nests_of_sound hsound
  rw [compile]
  rw [if_neg (Nat.not_lt.2 hsize)]
  simp only [hb, hfailure]
  exact hnests.finish_nil source

lemma exists_compile_of_isOk (h : (compile source d).isOk = true) :
    ∃ t, compile source d = .ok t := by
  cases hcompile : compile source d with
  | error e => simp [hcompile, Except.isOk, Except.toBool] at h
  | ok t => exact ⟨t, rfl⟩

/-- A scan has a first fault, or its tokens are sound and leave no section open. -/
lemma firstFault_or_sound (source : Text) (found : Scan) :
    (∃ e, FirstFault source found e) ∨ found.failure = none ∧ Sound source found.tokens [] := by
  have hnil : Sound source [] [] := sound_nil
  rcases sound_or_exists_violates hnil found.tokens with
    ⟨opens, hsound⟩ | ⟨earlier, raw, later, opens, fault, htokens, hsound, hviolates⟩
  · cases hfailure : found.failure with
    | some failure => exact .inl ⟨_, .scan hfailure hsound⟩
    | none =>
      cases opens with
      | nil => exact .inr ⟨rfl, hsound⟩
      | cons s outer => exact .inl ⟨_, .unclosed hfailure hsound⟩
  · exact .inl ⟨_, .tag htokens hsound hviolates⟩

/-- The tokens of a template are sound. -/
lemma sound_of_compile {t : Template} (hsize : source.byteSize ≤ maxOffset)
    (h : compile source d = .ok t) :
    Sound source (scan source d).tokens [] := by
  rcases firstFault_or_sound source (scan source d) with ⟨e, he⟩ | hsound
  · simp [compile_eq_error_of_firstFault hsize he] at h
  · exact hsound.2

/-- The error of a source that is no template is that of its first fault. -/
lemma firstFault_of_compile {e : ParseError} (hsize : source.byteSize ≤ maxOffset)
    (h : compile source d = .error e) : FirstFault source (scan source d) e := by
  rcases firstFault_or_sound source (scan source d) with ⟨e', he'⟩ | ⟨hfailure, hsound⟩
  · have herror := compile_eq_error_of_firstFault hsize he'
    rw [h, Except.error.injEq] at herror
    exact herror ▸ he'
  · obtain ⟨t, ht⟩ := exists_compile_eq_ok hsize hfailure hsound
    simp [h] at ht

/-- A source compiles just if it can be split into tokens, every tag has the content that its sigil
asks for, and the opening and closing tags are correctly nested; and the error of any other source
is that of the first fault in it. -/
theorem compile_iff_balanced (hsize : source.byteSize ≤ maxOffset) (d : Delimiters) :
    ((∃ t, compile source d = .ok t) ↔
      (scan source d).failure = none ∧
        (∀ raw, .tag raw ∈ (scan source d).tokens → raw.WellNamed source) ∧
        Bracket.Balanced (brackets source (scan source d).tokens)) ∧
    ∀ e, compile source d = .error e ↔ FirstFault source (scan source d) e := by
  have haccept : (∃ t, compile source d = .ok t) ↔
      (scan source d).failure = none ∧ Sound source (scan source d).tokens [] := by
    constructor
    · rintro ⟨t, ht⟩
      rcases firstFault_or_sound source (scan source d) with ⟨e, he⟩ | h
      · simp [compile_eq_error_of_firstFault hsize he] at ht
      · exact h
    · rintro ⟨hfailure, hsound⟩
      exact exists_compile_eq_ok hsize hfailure hsound
  refine ⟨haccept.trans (and_congr_right fun _ => ?_), fun e => ?_⟩
  · constructor
    · intro h
      exact ⟨h.wellNamed, Bracket.leavesOpen_nil_iff.1 h.leavesOpen⟩
    · rintro ⟨hnames, hbalanced⟩
      exact ⟨hnames, Bracket.leavesOpen_nil_iff.2 hbalanced⟩
  · exact ⟨firstFault_of_compile hsize, compile_eq_error_of_firstFault hsize⟩

/-- With pointed delimiters: sections that are correctly nested, and a closing tag with the name of
an outer section. -/
theorem balanced_of_compile_nested :
    ∃ d, Delimiters.make ['<'] ['>'] = .ok d ∧
      Bracket.Balanced (brackets "<#a><#b></b></a>".toList
        (scan "<#a><#b></b></a>".toList d).tokens) ∧
      FirstFault "<#a><#b></a></b>".toList (scan "<#a><#b></a></b>".toList d)
        ⟨.mismatchedClose ['b'] ['a'], ⟨8, 12⟩⟩ := by
  let d : Delimiters := ⟨['<'], ['>'], delimiterError?_eq_none_iff.1 rfl,
    delimiterError?_eq_none_iff.1 rfl⟩
  refine ⟨d, Delimiters.make_self d, ?_, ?_⟩
  · have hok : (compile "<#a><#b></b></a>".toList d).isOk = true := by decide +kernel
    exact ((compile_iff_balanced (by decide +kernel) d).1.1 (exists_compile_of_isOk hok)).2.2
  · exact ((compile_iff_balanced (by decide +kernel) d).2 _).1 (by decide +kernel)

end Template

end Mustache
