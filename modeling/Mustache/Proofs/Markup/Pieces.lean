import Mathlib.Data.List.Chain
import Mustache.Markup.Printer
import Mustache.Proofs.Tag.Standalone
import Mustache.Proofs.Template.Fragments

/-!
# Pieces of printed markup

Printed markup is a sequence of pieces, which are texts and tags. A scan finds these pieces again:
text ends where a delimiter starts, for it does not hold the character that the delimiter starts
with, and a tag ends at the delimiter behind its name, for no other fits in front of it. As all is
printed on one line, a tag stands alone only if there is nothing but blanks around it.
-/

namespace Mustache

/-- A part of printed markup. -/
inductive Piece
  | text (text : Text)
  | tag (sigil : Sigil) (name : Text)

namespace Piece

/-- A piece as it is written in a source. -/
def print (d : Delimiters) : Piece → Text
  | .text t         => t
  | .tag sigil name => d.tag sigil name

/-- A sequence of pieces as it is written in a source. -/
def printAll (d : Delimiters) (ps : List Piece) : Text := ps.flatMap (print d)

/-- The tag that is read at an offset where a piece was written. -/
def rawTag (d : Delimiters) (offset : Nat) (sigil : Sigil) (name : Text) : RawTag where
  sigil
  content :=
    let start := offset + d.opening.byteSize + sigil.text.byteSize + 1
    ⟨start, start + name.byteSize⟩
  span := ⟨offset, offset + (d.tag sigil name).byteSize⟩
  delimiters := d

/-- The token that is read at an offset where a piece was written. -/
def token (d : Delimiters) (offset : Nat) : Piece → Token
  | .text t         => .text ⟨offset, offset + t.byteSize⟩
  | .tag sigil name => .tag (rawTag d offset sigil name)

/-- The tokens that are read from an offset on where pieces were written. -/
def tokens (d : Delimiters) (offset : Nat) : List Piece → List Token
  | []      => []
  | p :: ps => p.token d offset :: tokens d (offset + (p.print d).byteSize) ps

/-- A name that can be written in a tag: not blank at either end, on one line, and without the
closing delimiter. -/
structure FitsTag (d : Delimiters) (name : Text) : Prop where
  ne_nil : name ≠ []
  head : ∀ c ∈ name.head?, isBlank c = false
  last : ∀ c ∈ name.getLast?, isBlank c = false
  newline : '\n' ∉ name
  closing : ¬ d.closing <:+: name

/-- A text that can be written between tags: not empty, on one line, and without the character that
the opening delimiter starts with. -/
structure FitsText (d : Delimiters) (t : Text) : Prop where
  ne_nil : t ≠ []
  newline : '\n' ∉ t
  opening : ∀ c ∈ d.opening.head?, c ∉ t

/-- A piece that can be written. -/
inductive Fits (d : Delimiters) : Piece → Prop
  | text {t : Text} (h : FitsText d t) : Fits d (.text t)
  | tag {sigil : Sigil} {name : Text} (h : FitsTag d name)
      (hsigil : sigil ≠ .brace ∧ sigil ≠ .equals) : Fits d (.tag sigil name)

/-- Whether a piece is a tag. -/
def isTag : Piece → Bool
  | .text _  => false
  | .tag _ _ => true

/-- Two pieces that can be told apart: not both of them are text. -/
def Apart (p q : Piece) : Prop := p.isTag ∨ q.isTag

variable {d : Delimiters} {sigil : Sigil} {name t : Text} {p : Piece} {ps qs : List Piece}
  {offset : Nat}

@[simp] lemma printAll_nil (d : Delimiters) : printAll d [] = [] := rfl

@[simp] lemma printAll_cons (d : Delimiters) (p : Piece) (ps : List Piece) :
    printAll d (p :: ps) = p.print d ++ printAll d ps := by simp [printAll]

@[simp] lemma printAll_append (d : Delimiters) (ps qs : List Piece) :
    printAll d (ps ++ qs) = printAll d ps ++ printAll d qs := by simp [printAll]

lemma tokens_append (d : Delimiters) (offset : Nat) (ps qs : List Piece) :
    tokens d offset (ps ++ qs) =
      tokens d offset ps ++ tokens d (offset + (printAll d ps).byteSize) qs := by
  induction ps generalizing offset with
  | nil => rfl
  | cons p ps ih =>
    simp only [List.cons_append, tokens, ih, printAll_cons, Text.byteSize_append, Nat.add_assoc]

/-! ### Scanning a tag -/

lemma isBlank_space : isBlank ' ' = true := by decide

lemma takeWhile_spaced (h : FitsTag d name) :
    (' ' :: name ++ [' ']).takeWhile isBlank = [' '] := by
  obtain ⟨c, cs, rfl⟩ := List.exists_cons_of_ne_nil h.ne_nil
  have hc : isBlank c = false := h.head c rfl
  simp [isBlank_space, hc]

/-- The blanks around a name are what is trimmed off. -/
lemma trim_spaced (h : FitsTag d name) : Text.trim (' ' :: name ++ [' ']) = name := by
  have hstart : Text.trimStart (' ' :: name ++ [' ']) = name ++ [' '] := by
    obtain ⟨c, cs, rfl⟩ := List.exists_cons_of_ne_nil h.ne_nil
    have hc : isBlank c = false := h.head c rfl
    simp [Text.trimStart, isBlank_space, hc]
  have hend : Text.trimEnd (name ++ [' ']) = name := by
    obtain ⟨init, c, rfl⟩ := (List.eq_nil_or_concat name).resolve_left h.ne_nil
    have hc : isBlank c = false := h.last c (by simp)
    simp [Text.trimEnd, isBlank_space, hc]
  rw [Text.trim, hstart, hend]

lemma closing_eq (hsigil : sigil ≠ .brace ∧ sigil ≠ .equals) (d : Delimiters) :
    sigil.closing d = d.closing := by
  cases sigil <;> simp_all [Sigil.closing]

/-- No closing delimiter reaches over the space behind a name. -/
lemma cut?_closing (h : FitsTag d name) (rest : Text) :
    Text.cut? d.closing (' ' :: name ++ ' ' :: (d.closing ++ rest)) =
      some (' ' :: name ++ [' '], rest) := by
  obtain ⟨hne, hblank, -⟩ := d.isDelimiter_closing
  have hspace : ' ' ∉ d.closing := by
    intro hmem
    simpa [isBlank_space] using hblank ' ' hmem
  refine Text.cut?_append_of_notMem_needle hspace ?_
  intro hoccurs
  rcases List.infix_cons_iff.1 hoccurs with hstarts | hoccurs
  · obtain ⟨c, cs, hd⟩ := List.exists_cons_of_ne_nil hne
    rw [hd, List.cons_prefix_cons] at hstarts
    exact hspace (by simp [hd, hstarts.1])
  · exact h.closing hoccurs

/-- A tag that was written is read. -/
lemma readsTag (h : FitsTag d name) (hsigil : sigil ≠ .brace ∧ sigil ≠ .equals) (offset : Nat)
    (rest : Text) :
    (⟨d.tag sigil name ++ rest, offset, d⟩ : Scanner).ReadsTag sigil (' ' :: name ++ [' ']) rest
      d where
  rest_eq := by simp [Delimiters.tag, Scanner.tagText]
  sigil_eq := by cases sigil <;> simp [Sigil.text, Sigil.ofHead, Sigil.ofChar]
  cut?_eq := by
    rw [closing_eq hsigil]
    simpa using cut?_closing h rest
  changed_eq := by rw [if_neg hsigil.2]

lemma tagText_spaced (d : Delimiters) (sigil : Sigil) (name rest : Text) (offset : Nat) :
    Scanner.tagText ⟨rest, offset, d⟩ sigil (' ' :: name ++ [' ']) = d.tag sigil name := by
  simp [Delimiters.tag, Scanner.tagText]

lemma rawTag_spaced (h : FitsTag d name) (rest : Text) :
    Scanner.rawTag ⟨rest, offset, d⟩ sigil (' ' :: name ++ [' ']) d =
      rawTag d offset sigil name := by
  simp only [Scanner.rawTag, rawTag, tagText_spaced, takeWhile_spaced h, trim_spaced h,
    Text.byteSize_append, Nat.add_assoc]
  rfl

/-! ### Scanning all pieces -/

lemma cut?_opening (h : ∀ c ∈ d.opening.head?, c ∉ t) (rest : Text) :
    Text.cut? d.opening (t ++ (d.opening ++ rest)) = some (t, rest) := by
  obtain ⟨c, cs, hd⟩ := List.exists_cons_of_ne_nil d.opening_ne_nil
  rw [hd, ← List.append_assoc]
  exact Text.cut?_append_of_notMem (h c (by simp [hd]))

lemma cut?_opening_eq_none (h : ∀ c ∈ d.opening.head?, c ∉ t) : Text.cut? d.opening t = none := by
  obtain ⟨c, cs, hd⟩ := List.exists_cons_of_ne_nil d.opening_ne_nil
  rw [hd]
  exact Text.cut?_eq_none_of_notMem (h c (by simp [hd]))

/-- A tag that was written is the tag of a round, with the text in front of it. -/
lemma rounds_tag (h : FitsTag d name) (hsigil : sigil ≠ .brace ∧ sigil ≠ .equals)
    (ht : ∀ c ∈ d.opening.head?, c ∉ t) {rest : Text} {found : List Token}
    (later : (⟨rest, offset + t.byteSize + (d.tag sigil name).byteSize, d⟩ : Scanner).Rounds found
      none d) :
    (⟨t ++ (d.tag sigil name ++ rest), offset, d⟩ : Scanner).Rounds
      (textToken offset t ++ .tag (rawTag d (offset + t.byteSize) sigil name) :: found) none d := by
  let s : Scanner := ⟨t ++ (d.tag sigil name ++ rest), offset, d⟩
  let after := sigil.text ++ ' ' :: name ++ ' ' :: sigil.closing d ++ rest
  have hafter : d.opening ++ after = d.tag sigil name ++ rest := by
    simp [after, Delimiters.tag]
  have hcut : Text.cut? d.opening s.rest = some (t, after) := by
    show Text.cut? d.opening (t ++ (d.tag sigil name ++ rest)) = _
    rw [← hafter]
    exact cut?_opening ht after
  have hskip : s.skip t after = ⟨d.tag sigil name ++ rest, offset + t.byteSize, d⟩ := by
    simp only [Scanner.skip, hafter, s]
  have htag := readsTag h hsigil (offset + t.byteSize) rest
  rw [← rawTag_spaced h (d.tag sigil name ++ rest)]
  rw [← hskip] at htag ⊢
  refine .round hcut htag ?_
  rw [hskip, Scanner.afterTag, tagText_spaced]
  exact later

/-- A scan finds the pieces that were written. -/
theorem rounds_printAll (ps : List Piece) (hfits : ∀ p ∈ ps, Fits d p)
    (hapart : ps.IsChain Apart) (offset : Nat) :
    (⟨printAll d ps, offset, d⟩ : Scanner).Rounds (tokens d offset ps) none d := by
  match ps with
  | [] => exact .last _ (cut?_opening_eq_none (t := []) (by simp))
  | .tag sigil name :: ps =>
    obtain _ | ⟨h, hsigil⟩ := hfits _ List.mem_cons_self
    have later := rounds_printAll ps (fun p hp => hfits p (List.mem_cons_of_mem _ hp)) hapart.tail
      (offset + (d.tag sigil name).byteSize)
    exact rounds_tag (t := []) h hsigil (by simp) later
  | [.text t] =>
    obtain ⟨h⟩ | _ := hfits _ List.mem_cons_self
    have hlast := Scanner.Rounds.last ⟨t, offset, d⟩ (cut?_opening_eq_none h.opening)
    rw [textToken_of_ne_nil h.ne_nil] at hlast
    simpa [print, tokens, token] using hlast
  | .text t :: .tag sigil name :: ps =>
    obtain ⟨ht⟩ | _ := hfits _ List.mem_cons_self
    obtain _ | ⟨h, hsigil⟩ := hfits (.tag sigil name) (by simp)
    have later := rounds_printAll ps (fun p hp => hfits p (by simp [hp])) hapart.tail.tail
      (offset + t.byteSize + (d.tag sigil name).byteSize)
    have hround := rounds_tag h hsigil ht.opening later
    rw [textToken_of_ne_nil ht.ne_nil] at hround
    simpa [print, tokens, token] using hround
  | .text t :: .text u :: ps => exact absurd hapart (by simp [Apart, isTag])

/-! ### Nothing stands alone -/

/-- No tag among the pieces has nothing but blanks around it, or else it does not vanish with its
line: there is another tag, or a text with some other character, or a tag for a value. -/
def Grounded (ps : List Piece) : Prop :=
  2 ≤ ps.countP isTag ∨ (∃ t, .text t ∈ ps ∧ ∃ c ∈ t, c ≠ ' ' ∧ c ≠ '\t' ∧ c ≠ '\r') ∨
    ∃ sigil name, .tag sigil name ∈ ps ∧ sigil.canStandAlone = false

lemma newline_notMem_delimiter {t : Text} (h : IsDelimiter t) : '\n' ∉ t := by
  intro hmem
  have := h.2.1 _ hmem
  simp [isBlank, inRanges, blankRanges] at this

lemma Fits.newline_notMem (h : Fits d p) : '\n' ∉ p.print d := by
  cases h with
  | text h => exact h.newline
  | @tag sigil name h hsigil =>
    have hopening := newline_notMem_delimiter d.isDelimiter_opening
    have hclosing := newline_notMem_delimiter d.isDelimiter_closing
    have htext : '\n' ∉ sigil.text := by cases sigil <;> simp [Sigil.text]
    simp [print, Delimiters.tag, closing_eq hsigil, hopening, hclosing, htext, h.newline]

lemma newline_notMem_printAll (h : ∀ p ∈ ps, Fits d p) : '\n' ∉ printAll d ps := by
  rw [printAll, List.mem_flatMap]
  rintro ⟨p, hp, hmem⟩
  exact (h p hp).newline_notMem hmem

/-- A tag has a character that is no blank. -/
lemma exists_mem_print_of_isTag (d : Delimiters) (h : p.isTag) :
    ∃ c ∈ p.print d, c ≠ ' ' ∧ c ≠ '\t' ∧ c ≠ '\r' := by
  cases p with
  | text t => simp [isTag] at h
  | tag sigil name =>
    obtain ⟨c, cs, hd⟩ := List.exists_cons_of_ne_nil d.opening_ne_nil
    have hc : isBlank c = false := d.isDelimiter_opening.2.1 c (by simp [hd])
    refine ⟨c, by simp [print, Delimiters.tag, hd], ?_, ?_, ?_⟩
    all_goals
      rintro rfl
      simp [isBlank, inRanges, blankRanges] at hc

/-- Around a tag that could vanish there is a character that is no blank. -/
lemma Grounded.exists_mem {front back : List Piece}
    (h : Grounded (front ++ .tag sigil name :: back)) (hsigil : sigil.canStandAlone)
    (d : Delimiters) :
    ∃ c ∈ printAll d front ++ printAll d back, c ≠ ' ' ∧ c ≠ '\t' ∧ c ≠ '\r' := by
  have hpiece : ∃ p ∈ front ++ back, ∃ c ∈ p.print d, c ≠ ' ' ∧ c ≠ '\t' ∧ c ≠ '\r' := by
    rcases h with hcount | ⟨t, ht, hc⟩ | ⟨sigil', name', htag, hsigil'⟩
    · have hpos : 0 < (front ++ back).countP isTag := by
        rw [List.countP_append, List.countP_cons_of_pos rfl] at hcount
        rw [List.countP_append]
        omega
      obtain ⟨p, hp, hptag⟩ := List.countP_pos_iff.1 hpos
      exact ⟨p, hp, exists_mem_print_of_isTag d hptag⟩
    · exact ⟨.text t, by simpa using ht, hc⟩
    · have hne : Piece.tag sigil' name' ≠ .tag sigil name := by
        rintro heq
        rw [tag.injEq] at heq
        rw [heq.1, hsigil] at hsigil'
        simp at hsigil'
      refine ⟨.tag sigil' name', ?_, exists_mem_print_of_isTag d rfl⟩
      simp only [List.mem_append, List.mem_cons] at htag ⊢
      tauto
  obtain ⟨p, hp, c, hc, hblank⟩ := hpiece
  refine ⟨c, ?_, hblank⟩
  rw [← printAll_append]
  exact List.mem_flatMap.2 ⟨p, hp, hc⟩

/-- Where a tag among the tokens was written. -/
lemma exists_of_tag_mem_tokens {raw : RawTag} (h : .tag raw ∈ tokens d offset ps) :
    ∃ front sigil name back, ps = front ++ .tag sigil name :: back ∧
      raw = rawTag d (offset + (printAll d front).byteSize) sigil name := by
  induction ps generalizing offset with
  | nil => simp [tokens] at h
  | cons p ps ih =>
    rw [tokens, List.mem_cons] at h
    rcases h with h | h
    · cases p with
      | text t => simp [token] at h
      | tag sigil name =>
        rw [token, Token.tag.injEq] at h
        exact ⟨[], sigil, name, ps, rfl, h⟩
    · obtain ⟨front, sigil, name, back, rfl, rfl⟩ := ih h
      refine ⟨p :: front, sigil, name, back, rfl, ?_⟩
      rw [printAll_cons, Text.byteSize_append, Nat.add_assoc]

/-- No tag that was written takes a line with it. -/
theorem line?_eq_none (hfits : ∀ p ∈ ps, Fits d p) (hgrounded : Grounded ps) {raw : RawTag}
    (hraw : .tag raw ∈ tokens d 0 ps) : raw.line? (printAll d ps) = none := by
  obtain ⟨front, sigil, name, back, rfl, rfl⟩ := exists_of_tag_mem_tokens hraw
  have hsource : printAll d (front ++ .tag sigil name :: back) =
      printAll d front ++ d.tag sigil name ++ printAll d back := by
    simp [print]
  have hstart : (rawTag d (0 + (printAll d front).byteSize) sigil name).span.start =
      (printAll d front).byteSize := Nat.zero_add _
  have hstop : (rawTag d (0 + (printAll d front).byteSize) sigil name).span.stop =
      (printAll d front ++ d.tag sigil name).byteSize := by
    rw [Text.byteSize_append]
    show 0 + _ + _ = _
    rw [Nat.zero_add]
  rw [RawTag.line?]
  split
  · next hsigil =>
    by_contra hsome
    obtain ⟨line, hline⟩ := Option.ne_none_iff_exists'.1 hsome
    obtain ⟨l⟩ := nonempty_lineAround_of_standaloneLine? hsource hstart hstop hline
    obtain ⟨c, hc, hspace, htab, hreturn⟩ := hgrounded.exists_mem hsigil d
    have hblank := l.blank_of_notMem hsource (newline_notMem_printAll hfits) hstart hstop c hc
    tauto
  · rfl

/-- The fragment of a token that loses nothing to a line. -/
def fragmentOf : Token → Fragment
  | .text span => .text span
  | .tag raw   => .tag raw []

/-- When no tag takes a line with it, the fragments are the tokens. -/
lemma fragments_tokens {source : Text} (hfits : ∀ p ∈ ps, Fits d p)
    (hline : ∀ raw, .tag raw ∈ tokens d offset ps → raw.line? source = none) {k : Nat}
    (hk : k ≤ offset) :
    fragments source k (tokens d offset ps) = (tokens d offset ps).map fragmentOf := by
  induction ps generalizing offset with
  | nil => rfl
  | cons p ps ih =>
    have hlater := ih (fun q hq => hfits q (List.mem_cons_of_mem p hq))
      (fun raw hraw => hline raw (List.mem_cons_of_mem _ hraw))
      (Nat.le_trans hk (Nat.le_add_right offset (p.print d).byteSize))
    cases p with
    | tag sigil name =>
      have hnone := hline (rawTag d offset sigil name) (by simp [tokens, token])
      rw [tokens, token, fragments, RawTag.indent, hnone]
      exact congrArg _ hlater
    | text t =>
      obtain ⟨h⟩ | _ := hfits _ List.mem_cons_self
      have hpos := Text.byteSize_pos h.ne_nil
      have hstop : textStop source (offset + t.byteSize) (tokens d (offset + t.byteSize) ps) =
          offset + t.byteSize := by
        cases ps with
        | nil => rfl
        | cons q qs =>
          cases q with
          | text u => rfl
          | tag sigil name =>
            have hnone := hline (rawTag d (offset + t.byteSize) sigil name)
              (by simp [tokens, token, print])
            simp only [tokens, token, textStop, RawTag.region, hnone]
            rfl
      rw [tokens, token, print, fragments, hstop, Nat.max_eq_left hk, textFragment,
        if_pos (by omega)]
      exact congrArg _ hlater

end Piece

end Mustache
