import Mathlib.Tactic.Common
import Mustache.Tag

/-!
# Names in tags

Which contents are names, told without reading them, and what becomes of a tag by its content: it
says something just if it is named well, and otherwise its fault follows from its content.
-/

namespace Mustache

/-! ### Names -/

/-- A name is a dot alone, or segments with dots between them; a segment is not empty and holds
neither a dot nor a blank. -/
def IsName (name : Text) : Prop :=
  name = ['.'] ∨ ∃ segments : List Text, segments ≠ [] ∧ name = ['.'].intercalate segments ∧
    ∀ s ∈ segments, s ≠ [] ∧ '.' ∉ s ∧ ∀ c ∈ s, isBlank c = false

lemma isSegment_iff {s : Text} : isSegment s ↔ s ≠ [] ∧ ∀ c ∈ s, isBlank c = false := by
  simp [isSegment]

lemma Text.not_of_mem_pieces {p : Char → Bool} {t s : Text} (h : s ∈ t.pieces p) :
    ∀ c ∈ s, p c = false := by
  induction t generalizing s with
  | nil =>
    rw [pieces, List.mem_singleton] at h
    simp [h]
  | cons c cs ih =>
    rw [pieces] at h
    split at h
    · rcases List.mem_cons.1 h with rfl | h
      · simp
      · exact ih h
    · next hc =>
      obtain ⟨first, more, hpieces⟩ := List.exists_cons_of_ne_nil (pieces_ne_nil p cs)
      rw [hpieces, List.modifyHead_cons, List.mem_cons] at h
      rcases h with rfl | h
      · intro d hd
        rcases List.mem_cons.1 hd with rfl | hd
        · simpa using hc
        · exact ih (by simp [hpieces]) d hd
      · exact ih (by simp [hpieces, h])

namespace Path

lemma joined_eq_intercalate {segments : List Text} (h : segments ≠ []) :
    joined segments = ['.'].intercalate segments := by
  induction segments with
  | nil => exact absurd rfl h
  | cons s rest ih =>
    by_cases hrest : rest = []
    · subst hrest
      simp [joined]
    · rw [joined_cons hrest, ih hrest, List.intercalate_cons_of_ne_nil hrest]
      simp

/-- Just the names can be read. -/
theorem exists_parse_eq_ok_iff {name : Text} : (∃ p, parse name = .ok p) ↔ IsName name := by
  constructor
  · rintro ⟨p, h⟩
    by_cases hdot : name = ['.']
    · exact .inl hdot
    rw [parse] at h
    split at h
    · simp at h
    · simp only at h
      split at h
      · next hall =>
        refine .inr ⟨name.pieces (· = '.'), Text.pieces_ne_nil _ _, ?_, fun s hs => ?_⟩
        · rw [← joined_eq_intercalate (Text.pieces_ne_nil _ _), joined_pieces]
        · obtain ⟨hne, hblank⟩ := isSegment_iff.1 (List.all_eq_true.1 hall s hs)
          exact ⟨hne, fun hmem => by simpa using Text.not_of_mem_pieces hs _ hmem, hblank⟩
      · simp at h
  · rintro (rfl | ⟨segments, hne, rfl, h⟩)
    · exact ⟨implicit, rfl⟩
    · rw [← joined_eq_intercalate hne]
      exact ⟨⟨segments⟩, parse_display fun s hs =>
        ⟨isSegment_iff.2 ⟨(h s hs).1, (h s hs).2.2⟩, (h s hs).2.1⟩⟩

/-- Two names with the same path are the same. -/
lemma parse_injective {name other : Text} {p : Path} (h : parse name = .ok p)
    (hother : parse other = .ok p) : name = other := by
  rw [← display_of_parse h, display_of_parse hother]

lemma parse_eq_error_iff {name : Text} {e : PathError} :
    parse name = .error e ↔
      name = [] ∧ e = .empty ∨ name ≠ [] ∧ ¬ IsName name ∧ e = .malformed name := by
  by_cases hnil : name = []
  · simp [parse, hnil, eq_comm]
  · rw [← exists_parse_eq_ok_iff]
    rw [parse]
    rw [if_neg hnil]
    split
    · simp [hnil]
    · simp only
      split <;> simp [hnil, eq_comm]

end Path

/-! ### Tags -/

/-- What a tag says, by its sigil and the name in it. -/
inductive Tag.Means (name : Text) : Sigil → Tag → Prop
  | absent {path : Path} (h : Path.parse name = .ok path) :
      Means name .absent (.variableTag path true)
  | brace {path : Path} (h : Path.parse name = .ok path) :
      Means name .brace (.variableTag path false)
  | ampersand {path : Path} (h : Path.parse name = .ok path) :
      Means name .ampersand (.variableTag path false)
  | hash {path : Path} (h : Path.parse name = .ok path) : Means name .hash (.openTag path false)
  | caret {path : Path} (h : Path.parse name = .ok path) : Means name .caret (.openTag path true)
  | slash {path : Path} (h : Path.parse name = .ok path) : Means name .slash (.closeTag path)
  | bang : Means name .bang .commentTag
  | angle (h : name ≠ []) : Means name .angle (.partialTag name)
  | equals : Means name .equals .delimiterTag

/-- Whether the content of a tag with this sigil has to be a name. -/
def Sigil.takesPath : Sigil → Bool
  | .bang | .angle | .equals => false
  | _                        => true

namespace RawTag

variable {raw : RawTag} {source : Text}

/-- The content of the tag. -/
def name (raw : RawTag) (source : Text) : Text := raw.content.slice source

/-- The tag has the content that its sigil asks for. -/
structure WellNamed (raw : RawTag) (source : Text) : Prop where
  isName : raw.sigil.takesPath → IsName (raw.name source)
  ne_nil : raw.sigil = .angle → raw.name source ≠ []

/-- What is wrong with the content of a tag that is not named well. -/
inductive NameFault (raw : RawTag) (source : Text) : ParseFault → Prop
  | empty (hsigil : raw.sigil.takesPath ∨ raw.sigil = .angle) (hname : raw.name source = []) :
      NameFault raw source .emptyName
  | invalid (hsigil : raw.sigil.takesPath) (hne : raw.name source ≠ [])
      (hname : ¬ IsName (raw.name source)) :
      NameFault raw source (.invalidPath (raw.name source))

end RawTag

namespace Tag

variable {raw : RawTag} {source : Text}

lemma readPath_eq_error_iff {span : Span} {name : Text} {e : ParseError} :
    readPath name span = .error e ↔
      name = [] ∧ e = ⟨.emptyName, span⟩ ∨
        name ≠ [] ∧ ¬ IsName name ∧ e = ⟨.invalidPath name, span⟩ := by
  rw [readPath]
  cases hparse : Path.parse name with
  | ok p =>
    have hname := Path.exists_parse_eq_ok_iff.1 ⟨p, hparse⟩
    have hne : name ≠ [] := by
      rintro rfl
      simp [Path.parse] at hparse
    simp [Except.mapError, hname, hne]
  | error pathError =>
    rw [Except.mapError, Except.error.injEq]
    rcases Path.parse_eq_error_iff.1 hparse with ⟨rfl, rfl⟩ | ⟨hne, hname, rfl⟩
    · simp [ParseFault.ofPathError, eq_comm]
    · simp [ParseFault.ofPathError, hne, hname, eq_comm]

lemma readPath_eq_ok_iff {span : Span} {name : Text} {path : Path} :
    readPath name span = .ok path ↔ Path.parse name = .ok path := by
  rw [readPath]
  cases Path.parse name <;> simp [Except.mapError]

lemma map_readPath_eq_ok_iff {span : Span} {name : Text} {meaning : Path → Tag} {tag : Tag} :
    (readPath name span).map meaning = .ok tag ↔
      ∃ path, Path.parse name = .ok path ∧ meaning path = tag := by
  cases hread : readPath name span with
  | ok path =>
    rw [readPath_eq_ok_iff] at hread
    simp [hread, Except.map]
  | error e =>
    have hnone : ∀ path, Path.parse name ≠ .ok path := by
      intro path hpath
      simp [readPath_eq_ok_iff.2 hpath] at hread
    simp [hnone, Except.map]

lemma ofContent_eq_ok_iff {sigil : Sigil} {name : Text} {span : Span} {tag : Tag} :
    ofContent sigil name span = .ok tag ↔ Means name sigil tag := by
  constructor
  · intro h
    cases sigil
    case bang => exact Except.ok.inj h ▸ .bang
    case equals => exact Except.ok.inj h ▸ .equals
    case angle =>
      simp only [ofContent] at h
      split at h
      · simp at h
      · next hne => exact Except.ok.inj h ▸ .angle hne
    all_goals
      obtain ⟨path, hpath, rfl⟩ := map_readPath_eq_ok_iff.1 h
      constructor
      exact hpath
  · intro h
    cases h with
    | bang | equals => rfl
    | angle hne => exact if_neg hne
    | absent hpath | brace hpath | ampersand hpath | hash hpath | caret hpath | slash hpath =>
      exact map_readPath_eq_ok_iff.2 ⟨_, hpath, rfl⟩

lemma ofRaw_eq (raw : RawTag) (source : Text) :
    ofRaw raw source = ofContent raw.sigil (raw.name source) raw.span := rfl

/-- What a tag of a source says is what its sigil and its name mean. -/
theorem ofRaw_eq_ok_iff {tag : Tag} :
    ofRaw raw source = .ok tag ↔ Means (raw.name source) raw.sigil tag := by
  rw [ofRaw_eq, ofContent_eq_ok_iff]

/-- A tag whose sigil takes a path has the meaning of the path, or the fault of its name. -/
lemma ofRaw_of_takesPath (h : raw.sigil.takesPath) (source : Text) :
    ∃ meaning : Path → Tag,
      ofRaw raw source = (readPath (raw.name source) raw.span).map meaning := by
  rw [ofRaw_eq]
  simp only [ofContent]
  cases hs : raw.sigil
  case bang | angle | equals => simp [hs, Sigil.takesPath] at h
  all_goals exact ⟨_, rfl⟩

/-- A tag has a fault of its own just if it is not named well. -/
theorem ofRaw_eq_error_iff {e : ParseError} :
    ofRaw raw source = .error e ↔
      ∃ fault, raw.NameFault source fault ∧ e = ⟨fault, raw.span⟩ := by
  by_cases hpath : raw.sigil.takesPath
  · obtain ⟨meaning, hmeaning⟩ := ofRaw_of_takesPath hpath source
    have herror : ofRaw raw source = .error e ↔
        readPath (raw.name source) raw.span = .error e := by
      rw [hmeaning]
      cases readPath (raw.name source) raw.span <;> simp [Except.map]
    rw [herror, readPath_eq_error_iff]
    constructor
    · rintro (⟨hname, rfl⟩ | ⟨hne, hname, rfl⟩)
      · exact ⟨_, .empty (.inl hpath) hname, rfl⟩
      · exact ⟨_, .invalid hpath hne hname, rfl⟩
    · rintro ⟨fault, h, rfl⟩
      cases h with
      | empty _ hname => exact .inl ⟨hname, rfl⟩
      | invalid _ hne hname => exact .inr ⟨hne, hname, rfl⟩
  · have hfault : ∀ fault, raw.NameFault source fault ↔
        raw.sigil = .angle ∧ raw.name source = [] ∧ fault = .emptyName := by
      intro fault
      constructor
      · intro h
        cases h with
        | empty hsigil hname => exact ⟨hsigil.resolve_left hpath, hname, rfl⟩
        | invalid hsigil => exact absurd hsigil hpath
      · rintro ⟨hsigil, hname, rfl⟩
        exact .empty (.inr hsigil) hname
    simp only [hfault, ofRaw_eq]
    cases hs : raw.sigil
    case angle => by_cases hname : raw.name source = [] <;> simp [ofContent, hname, eq_comm]
    case bang | equals => simp [ofContent]
    all_goals simp [hs, Sigil.takesPath] at hpath

lemma Means.isName {name : Text} {sigil : Sigil} {tag : Tag} (h : Means name sigil tag)
    (hpath : sigil.takesPath) : IsName name := by
  cases h with
  | bang | angle | equals => simp [Sigil.takesPath] at hpath
  | absent h | brace h | ampersand h | hash h | caret h | slash h =>
    exact Path.exists_parse_eq_ok_iff.1 ⟨_, h⟩

lemma Means.ne_nil {name : Text} {tag : Tag} (h : Means name .angle tag) : name ≠ [] := by
  cases h with
  | angle hne => exact hne

lemma exists_means {name : Text} {sigil : Sigil} (hname : sigil.takesPath → IsName name)
    (hne : sigil = .angle → name ≠ []) : ∃ tag, Means name sigil tag := by
  cases sigil
  case bang => exact ⟨_, .bang⟩
  case equals => exact ⟨_, .equals⟩
  case angle => exact ⟨_, .angle (hne rfl)⟩
  all_goals
    obtain ⟨path, hpath⟩ := Path.exists_parse_eq_ok_iff.2 (hname rfl)
    constructor
    constructor
    exact hpath

/-- Just the tags that are named well say something. -/
theorem exists_ofRaw_eq_ok_iff : (∃ tag, ofRaw raw source = .ok tag) ↔ raw.WellNamed source := by
  simp only [ofRaw_eq_ok_iff]
  constructor
  · rintro ⟨tag, h⟩
    constructor
    · intro hpath
      exact h.isName hpath
    · intro hangle
      rw [hangle] at h
      exact h.ne_nil
  · intro h
    exact exists_means h.isName h.ne_nil

end Tag

end Mustache
