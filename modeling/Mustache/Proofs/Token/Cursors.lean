import Mustache.Cursor
import Mustache.Proofs.Token.Changes

/-!
# Scanning with a cursor

All that a scan needs of its source is a cursor: it looks for a delimiter from the cursor on, looks
at the one byte behind an opening delimiter, and slices out what stands in a tag. The cursor always
stands between two characters then, with the unread text behind it; so what is found with a cursor
is what is found on the characters.
-/

namespace Mustache

/-! ### The byte of a sigil -/

namespace Sigil

/-- The sigil that a byte is; any other byte already belongs to the content. -/
def ofByte (b : UInt8) : Sigil := ofChar (Char.ofNat b.toNat)

lemma ofChar_of_lt {c : Char} (h : 127 < c.toNat) : ofChar c = absent := by
  unfold ofChar
  split <;> first | rfl | exact absurd h (by decide)

lemma ofByte_of_lt {b : UInt8} (h : 127 < b.toNat) : ofByte b = absent := by
  have hall : ∀ n < 256, 127 < n → ofChar (Char.ofNat n) = absent := by decide +kernel
  exact hall _ b.toNat_lt h

/-- The first byte of a character that takes up several is larger than those of the sigils. -/
lemma lt_of_utf8EncodeChar_eq_cons {c : Char} {b : UInt8} {bs : List UInt8} (hc : 127 < c.toNat)
    (h : String.utf8EncodeChar c = b :: bs) : 127 < b.toNat := by
  have hc : ¬ c.val.toNat ≤ 127 := Nat.not_le_of_lt hc
  rw [String.utf8EncodeChar] at h
  simp only [if_neg hc] at h
  split_ifs at h <;>
  · obtain ⟨rfl, -⟩ := List.cons.inj h
    simp
    omega

/-- The first byte of a character tells whether the character is a sigil. -/
lemma ofByte_of_utf8EncodeChar_eq_cons {c : Char} {b : UInt8} {bs : List UInt8}
    (h : String.utf8EncodeChar c = b :: bs) : ofByte b = ofChar c := by
  rcases Nat.lt_or_ge 127 c.toNat with hlt | hle
  · rw [ofByte_of_lt (lt_of_utf8EncodeChar_eq_cons hlt h), ofChar_of_lt hlt]
  · have hsize : c.utf8Size = 1 := Char.utf8Size_eq_one_iff.2 hle
    rw [String.utf8EncodeChar_eq_singleton hsize] at h
    obtain ⟨rfl, -⟩ := List.cons.inj h
    have hbyte : c.val.toUInt8.toNat = c.toNat := by
      rw [UInt32.toNat_toUInt8]
      exact Nat.mod_eq_of_lt (Nat.lt_of_le_of_lt hle (by decide))
    rw [ofByte, hbyte, Char.ofNat_toNat]

lemma byteSize_text (sigil : Sigil) :
    sigil.text.byteSize = if sigil.isExplicit then 1 else 0 := by
  cases sigil <;> rfl

end Sigil

/-! ### What a cursor shows -/

namespace Cursor

/-- The cursor stands between two characters of its text: behind `read`, in front of `rest`. -/
structure Shows (c : Cursor) (read rest : Text) : Prop where
  source_eq : c.source = read ++ rest
  offset_eq : c.offset = read.byteSize

lemma Shows.eq {c : Cursor} {read rest : Text} (h : c.Shows read rest) :
    c = ⟨read ++ rest, read.byteSize⟩ := by
  rw [← h.source_eq, ← h.offset_eq]

namespace Shows

variable {c : Cursor} {read rest part more : Text} {n : Nat}

lemma rest_eq (h : c.Shows read rest) : c.rest = rest := by
  rw [Cursor.rest, Text.dropBytes?_of_eq h.source_eq h.offset_eq]
  rfl

lemma size_eq (h : c.Shows read rest) : c.size = c.offset + rest.byteSize := by
  rw [size, h.source_eq, h.offset_eq, Text.byteSize_append]

lemma atEnd_iff (h : c.Shows read rest) : c.atEnd ↔ rest = [] := by
  rw [atEnd, h.size_eq, decide_eq_true_iff, ← Text.byteSize_eq_zero_iff]
  omega

lemma find?_eq (h : c.Shows read rest) (needle : Text) :
    c.find? needle = (Text.cut? needle rest).map fun (before, _) => before.byteSize := by
  rw [find?, h.rest_eq]

/-- The cursor moves over the text that it is moved by. -/
lemma advance (h : c.Shows read (part ++ more)) (hn : n = part.byteSize) :
    (c.advance n).Shows (read ++ part) more where
  source_eq := by
    rw [List.append_assoc, ← h.source_eq]
    rfl
  offset_eq := by
    have hle : c.offset + n ≤ c.size := by
      rw [h.size_eq, Text.byteSize_append, hn, ← Nat.add_assoc]
      exact Nat.le_add_right _ _
    rw [Text.byteSize_append, ← h.offset_eq, ← hn]
    exact Nat.min_eq_left hle

lemma advanceToEnd (h : c.Shows read rest) : c.advanceToEnd.Shows (read ++ rest) [] where
  source_eq := by
    rw [List.append_nil, ← h.source_eq]
    rfl
  offset_eq := congrArg Text.byteSize h.source_eq

lemma slice_eq (h : c.Shows read (part ++ more)) (hn : n = c.offset + part.byteSize) :
    c.slice c.offset n = part := by
  apply Text.slice_of_eq (c := more)
  · rw [h.source_eq, List.append_assoc]
  · exact h.offset_eq
  · rw [hn, h.offset_eq]

/-- The byte under the cursor tells whether a sigil stands there. -/
lemma ofByte_byte (h : c.Shows read rest) : Sigil.ofByte c.byte = Sigil.ofHead rest := by
  have hbyte : c.byte = rest.bytes.data.getD 0 0 := by
    have hsize : read.bytes.data.size = c.offset := by
      rw [h.offset_eq, ← Text.size_bytes]
      rfl
    rw [byte, h.source_eq, Text.bytes_append, ByteArray.data_append, Array.getD_eq_getD_getElem?,
      Array.getD_eq_getD_getElem?, Array.getElem?_append_right (Nat.le_of_eq hsize), hsize,
      Nat.sub_self]
  rw [hbyte, Text.bytes_eq_utf8Encode]
  cases rest with
  | nil => decide
  | cons x xs =>
    obtain ⟨b, bs, hx⟩ := List.exists_cons_of_ne_nil (String.utf8EncodeChar_ne_nil (c := x))
    have hhead : (List.utf8Encode (x :: xs)).data.getD 0 0 = b := by
      simp [List.utf8Encode, hx, Array.getD_eq_getD_getElem?]
    rw [hhead, Sigil.ofByte_of_utf8EncodeChar_eq_cons hx]
    rfl

/-- The cursor behind a sigil, if one stands there. -/
lemma behindSigil (h : c.Shows read rest) :
    (if (Sigil.ofByte c.byte).isExplicit then c.advance 1 else c).Shows
      (read ++ (Sigil.ofHead rest).text) (rest.drop (Sigil.ofHead rest).text.length) := by
  have hsize := Sigil.byteSize_text (Sigil.ofHead rest)
  rw [h.ofByte_byte]
  split
  · next hexplicit =>
    rw [if_pos hexplicit] at hsize
    rw [← Sigil.text_ofHead_append rest] at h
    exact h.advance hsize.symm
  · next hexplicit =>
    rw [if_neg hexplicit] at hsize
    rw [Text.byteSize_eq_zero_iff.1 hsize, List.append_nil, List.length_nil, List.drop_zero]
    exact h

end Shows

end Cursor

/-! ### The scan -/

/-- A scan that holds its place in the source with a cursor. -/
structure CursorScanner where
  cursor : Cursor
  delimiters : Delimiters
  /-- Whether an error has ended the scan. -/
  failed : Bool
  deriving DecidableEq

namespace CursorScanner

/-- The start of a scan. -/
def start (source : Text) (d : Delimiters) : CursorScanner := ⟨.start source, d, false⟩

/-- The scan behind the cursor `c`, if nothing else has changed. -/
def moved (s : CursorScanner) (c : Cursor) : CursorScanner := { s with cursor := c }

/-- The scan behind the cursor `c`, where it has failed. -/
def stopped (s : CursorScanner) (c : Cursor) : CursorScanner :=
  { s with cursor := c, failed := true }

/-- What is found next, and the scan behind it. -/
abbrev Found := Option (Except ScanError Token) × CursorScanner

/-- Reads a run of text of `n` bytes. -/
def readText (s : CursorScanner) (n : Nat) : Found :=
  let next := s.cursor.advance n
  (some (.ok (.text ⟨s.cursor.offset, next.offset⟩)), s.moved next)

/-- The sigil of the tag at the cursor, and the cursor behind it. -/
def openTag (s : CursorScanner) : Sigil × Cursor :=
  let behind := s.cursor.advance s.delimiters.opening.byteSize
  let sigil := Sigil.ofByte behind.byte
  (sigil, if sigil.isExplicit then behind.advance 1 else behind)

/-- Reads the tag at the cursor from behind its sigil on. -/
def closeTag (s : CursorScanner) (sigil : Sigil) (inner : Cursor) : Found :=
  let start := s.cursor.offset
  let closing := sigil.closing s.delimiters
  match inner.find? closing with
  | none =>
    let stop := inner.advanceToEnd
    (some (.error (.unclosedTag ⟨start, stop.offset⟩ closing)), s.stopped stop)
  | some n =>
    let inside := inner.slice inner.offset (inner.offset + n)
    let contentStart := inner.offset + Text.byteSize (inside.takeWhile isBlank)
    let content : Span := ⟨contentStart, contentStart + inside.trim.byteSize⟩
    let next := inner.advance (n + closing.byteSize)
    let span : Span := ⟨start, next.offset⟩
    let read (d : Delimiters) : Found :=
      (some (.ok (.tag ⟨sigil, content, span, d⟩)), { s.moved next with delimiters := d })
    if sigil = .equals then
      match Delimiters.ofContent (next.slice content.start content.stop) with
      | .error reason => (some (.error (.invalidDelimiters span reason)), s.stopped next)
      | .ok changed   => read changed
    else read s.delimiters

/-- Reads the tag at the cursor. -/
def readTag (s : CursorScanner) : Found := s.closeTag s.openTag.1 s.openTag.2

/-- The next token, or the error in its place, and how the scan goes on. -/
def next (s : CursorScanner) : Found :=
  if s.failed || s.cursor.atEnd then (none, s)
  else match s.cursor.find? s.delimiters.opening with
    | none   => s.readText (s.cursor.size - s.cursor.offset)
    | some n => if n = 0 then s.readTag else s.readText n

/-- The scan when it has been asked for the next token `n` times. -/
def after (s : CursorScanner) : Nat → CursorScanner
  | 0     => s
  | n + 1 => s.next.2.after n

lemma next_eq {s : CursorScanner} (hfailed : s.failed = false) (hend : s.cursor.atEnd = false) :
    s.next = match s.cursor.find? s.delimiters.opening with
      | none   => s.readText (s.cursor.size - s.cursor.offset)
      | some n => if n = 0 then s.readTag else s.readText n := by
  rw [next, hfailed, hend]
  rfl

lemma next_of_failed {s : CursorScanner} (h : s.failed) : s.next = (none, s) := by
  rw [next, h]
  rfl

end CursorScanner

namespace Scanner

variable {s : Scanner} {source read after inside rest unread : Text} {sigil : Sigil}

/-- The scan at the same place, with a cursor. -/
def onCursor (s : Scanner) (source : Text) : CursorScanner :=
  ⟨⟨source, s.offset⟩, s.delimiters, false⟩

/-- The cursor behind a sigil, when the scanner is at the tag. -/
def innerCursor (s : Scanner) (source : Text) (sigil : Sigil) : Cursor :=
  ⟨source, s.offset + (s.delimiters.opening ++ sigil.text).byteSize⟩

/-- What is found with a cursor where the scanner finds `step`. -/
inductive FindsOnCursor (source : Text) (s : Scanner) : Step → CursorScanner.Found → Prop
  | finished : FindsOnCursor source s .finished (none, s.onCursor source)
  | token (token : Token) (next : Scanner) :
      FindsOnCursor source s (.token token next) (some (.ok token), next.onCursor source)
  /-- A scan that has failed stands between two characters too. -/
  | failed (error : ScanError) {t : CursorScanner} {read rest : Text} (hfailed : t.failed)
      (hsource : source = read ++ rest) (hshows : t.cursor.Shows read rest) :
      FindsOnCursor source s (.failed error) (some (.error error), t)

section

variable (hsource : source = read ++ s.rest) (hoffset : s.offset = read.byteSize)

include hsource hoffset

lemma shows_innerCursor (hrest : s.rest = s.delimiters.opening ++ sigil.text ++ unread) :
    (s.innerCursor source sigil).Shows (read ++ s.delimiters.opening ++ sigil.text) unread where
  source_eq := by
    show source = _
    rw [hsource, hrest]
    simp only [List.append_assoc]
  offset_eq := by
    show s.offset + _ = _
    rw [hoffset, List.append_assoc, ← Text.byteSize_append]

/-- A run of text is read with a cursor as it is read on the characters. -/
lemma findsOnCursor_readText {text : Text} (hrest : s.rest = text ++ rest) :
    FindsOnCursor source s (s.readText text rest) ((s.onCursor source).readText text.byteSize) := by
  have hshows : (s.onCursor source).cursor.Shows read (text ++ rest) := ⟨hrest ▸ hsource, hoffset⟩
  have hnext : (s.onCursor source).cursor.advance text.byteSize =
      ⟨source, s.offset + text.byteSize⟩ := by
    rw [(hshows.advance rfl).eq, List.append_assoc, ← hrest, ← hsource, Text.byteSize_append,
      hoffset]
  rw [CursorScanner.readText, hnext]
  exact .token _ _

lemma openTag_onCursor (hrest : s.rest = s.delimiters.opening ++ after) :
    (s.onCursor source).openTag =
      (Sigil.ofHead after, s.innerCursor source (Sigil.ofHead after)) := by
  have hstart : (s.onCursor source).cursor.Shows read (s.delimiters.opening ++ after) :=
    ⟨hrest ▸ hsource, hoffset⟩
  have hbehind := hstart.advance rfl
  have hinner : (s.innerCursor source (Sigil.ofHead after)).Shows _ _ :=
    shows_innerCursor hsource hoffset (by rw [hrest, List.append_assoc, Sigil.text_ofHead_append])
  refine Prod.ext hbehind.ofByte_byte ?_
  rw [hinner.eq, ← hbehind.behindSigil.eq]
  rfl

lemma closeTag_of_cut?_none (hrest : s.rest = s.delimiters.opening ++ sigil.text ++ unread)
    (hcut : Text.cut? (sigil.closing s.delimiters) unread = none) :
    FindsOnCursor source s
      (.failed (.unclosedTag ⟨s.offset, s.offset + s.rest.byteSize⟩ (sigil.closing s.delimiters)))
      ((s.onCursor source).closeTag sigil (s.innerCursor source sigil)) := by
  have hinner := shows_innerCursor hsource hoffset hrest
  have hstop : (s.innerCursor source sigil).advanceToEnd.offset = s.offset + s.rest.byteSize := by
    rw [hoffset, ← Text.byteSize_append, ← hsource]
    rfl
  have hfind : (s.innerCursor source sigil).find? (sigil.closing s.delimiters) = none := by
    rw [hinner.find?_eq, hcut]
    rfl
  simp only [CursorScanner.closeTag, onCursor, hfind, hstop]
  refine .failed _ rfl ?_ hinner.advanceToEnd
  rw [hsource, hrest]
  simp only [List.append_assoc, List.append_nil]

lemma shows_innerCursor_of_spellsTag (hspells : s.SpellsTag sigil inside rest) :
    (s.innerCursor source sigil).Shows (read ++ s.delimiters.opening ++ sigil.text)
      (inside ++ sigil.closing s.delimiters ++ rest) := by
  apply shows_innerCursor hsource hoffset
  rw [hspells.rest_eq, tagText]
  simp only [List.append_assoc]

/-- Behind a tag, the cursor stands where the scanner does. -/
lemma advance_innerCursor (hspells : s.SpellsTag sigil inside rest) :
    (s.innerCursor source sigil).advance
      (inside.byteSize + (sigil.closing s.delimiters).byteSize) =
        ⟨source, s.offset + (s.tagText sigil inside).byteSize⟩ := by
  have hinner := shows_innerCursor_of_spellsTag hsource hoffset hspells
  have hnext := hinner.advance (Text.byteSize_append ..).symm
  rw [hnext.eq, hsource, hspells.rest_eq, hoffset, tagText]
  simp only [List.append_assoc, Text.byteSize_append]

lemma closeTag_of_spellsTag (hspells : s.SpellsTag sigil inside rest) :
    (s.onCursor source).closeTag sigil (s.innerCursor source sigil) =
      let next (changed : Delimiters) := (s.afterTag sigil inside rest changed).onCursor source
      let read (changed : Delimiters) : CursorScanner.Found :=
        (some (.ok (.tag (s.rawTag sigil inside changed))), next changed)
      if sigil = .equals then
        match Delimiters.ofContent inside.trim with
        | .error reason =>
          (some (.error (.invalidDelimiters
            ⟨s.offset, s.offset + (s.tagText sigil inside).byteSize⟩ reason)),
            (s.onCursor source).stopped (next s.delimiters).cursor)
        | .ok changed => read changed
      else read s.delimiters := by
  have hinner := shows_innerCursor_of_spellsTag hsource hoffset hspells
  have hnext := advance_innerCursor hsource hoffset hspells
  have hfind : (s.innerCursor source sigil).find? (sigil.closing s.delimiters) =
      some inside.byteSize := by
    rw [hinner.find?_eq, hspells.cut?_eq]
    rfl
  have hinside : (s.innerCursor source sigil).slice (s.innerCursor source sigil).offset
      ((s.innerCursor source sigil).offset + inside.byteSize) = inside := by
    rw [List.append_assoc inside] at hinner
    exact hinner.slice_eq rfl
  obtain ⟨parts, hcontent⟩ := hspells.exists_tagParts hsource hoffset s.delimiters
  have hslice : Cursor.slice ⟨source, s.offset + (s.tagText sigil inside).byteSize⟩
      ((s.innerCursor source sigil).offset + Text.byteSize (inside.takeWhile isBlank))
      ((s.innerCursor source sigil).offset + Text.byteSize (inside.takeWhile isBlank) +
        inside.trim.byteSize) = inside.trim :=
    parts.slice_content.trans hcontent
  simp only [CursorScanner.closeTag, onCursor, hfind, hnext, hinside, hslice]
  by_cases hequals : sigil = .equals
  · rw [if_pos hequals, if_pos hequals]
    cases Delimiters.ofContent inside.trim <;> rfl
  · rw [if_neg hequals, if_neg hequals]
    rfl

/-- A tag is read with a cursor as it is read on the characters. -/
lemma findsOnCursor_readTag (hrest : s.rest = s.delimiters.opening ++ after) :
    FindsOnCursor source s (s.readTag after) (s.onCursor source).readTag := by
  rw [CursorScanner.readTag, openTag_onCursor hsource hoffset hrest]
  cases hcut : Text.cut? ((Sigil.ofHead after).closing s.delimiters)
      (after.drop (Sigil.ofHead after).text.length) with
  | none =>
    have hread : s.readTag after = .failed (.unclosedTag ⟨s.offset, s.offset + s.rest.byteSize⟩
        ((Sigil.ofHead after).closing s.delimiters)) := by
      simp only [readTag, hcut]
    rw [hread]
    refine closeTag_of_cut?_none hsource hoffset ?_ hcut
    rw [hrest, List.append_assoc, Sigil.text_ofHead_append]
  | some found =>
    obtain ⟨inside, rest⟩ := found
    have hspells := spellsTag_of_cut? hrest hcut
    have hbehind : source = read ++ s.tagText (Sigil.ofHead after) inside ++ rest := by
      rw [List.append_assoc, ← hspells.rest_eq, hsource]
    rw [readTag_eq hcut, closeTag_of_spellsTag hsource hoffset hspells]
    by_cases hequals : Sigil.ofHead after = .equals
    · simp only [if_pos hequals]
      cases Delimiters.ofContent inside.trim with
      | error reason =>
        refine .failed _ rfl hbehind ⟨hbehind, ?_⟩
        rw [Text.byteSize_append, ← hoffset]
        rfl
      | ok changed => exact .token _ _
    · simp only [if_neg hequals]
      exact .token _ _

/-- What is found next with a cursor is what is found on the characters. -/
lemma findsOnCursor_step : FindsOnCursor source s s.step (s.onCursor source).next := by
  have hshows : (s.onCursor source).cursor.Shows read s.rest := ⟨hsource, hoffset⟩
  by_cases hrest : s.rest = []
  · rw [step, if_pos hrest, CursorScanner.next, hshows.atEnd_iff.2 hrest]
    exact .finished
  have hend : (s.onCursor source).cursor.atEnd = false :=
    Bool.eq_false_iff.2 (mt hshows.atEnd_iff.1 hrest)
  have hfind : (s.onCursor source).cursor.find? (s.onCursor source).delimiters.opening =
      (Text.cut? s.delimiters.opening s.rest).map fun (before, _) => before.byteSize :=
    hshows.find?_eq s.delimiters.opening
  rw [CursorScanner.next_eq rfl hend, hfind]
  cases hcut : Text.cut? s.delimiters.opening s.rest with
  | none =>
    simp only [Option.map_none, hshows.size_eq, Nat.add_sub_cancel_left]
    rw [step_of_cut?_none hrest hcut]
    exact findsOnCursor_readText hsource hoffset (List.append_nil _).symm
  | some found =>
    obtain ⟨text, after⟩ := found
    have hparts := Text.eq_of_cut? hcut
    rw [List.append_assoc] at hparts
    simp only [Option.map_some, Text.byteSize_eq_zero_iff]
    by_cases htext : text = []
    · subst htext
      rw [step_of_cut?_nil hcut, if_pos rfl]
      exact findsOnCursor_readTag hsource hoffset hparts
    · rw [step_of_cut?_text htext hcut, if_neg htext]
      exact findsOnCursor_readText hsource hoffset hparts

end

end Scanner

namespace CursorScanner

variable {t : CursorScanner} {stream : TokenStream} {source : Text}

/-- A scan with a cursor and one on the characters have come equally far. -/
inductive Matches (source : Text) : CursorScanner → TokenStream → Prop
  | underway {s : Scanner} (h : s.StandsIn source) : Matches source (s.onCursor source) ⟨some s⟩
  | failed {t : CursorScanner} {read rest : Text} (hfailed : t.failed)
      (hsource : source = read ++ rest) (hshows : t.cursor.Shows read rest) :
      Matches source t ⟨none⟩

lemma matches_start (source : Text) (d : Delimiters) :
    (start source d).Matches source (.start source d) :=
  .underway (Scanner.standsIn_start source d)

namespace Matches

lemma next (h : t.Matches source stream) :
    t.next.1 = stream.next.1 ∧ t.next.2.Matches source stream.next.2 := by
  cases h with
  | @underway s h =>
    obtain ⟨read, hsource, hoffset⟩ := h
    have hfinds := Scanner.findsOnCursor_step hsource hoffset
    have hstands : s.StandsIn source := ⟨read, hsource, hoffset⟩
    simp only [TokenStream.next]
    generalize (s.onCursor source).next = found at hfinds ⊢
    generalize hstep : s.step = step at hfinds ⊢
    cases hfinds with
    | finished => exact ⟨rfl, .underway hstands⟩
    | token token next => exact ⟨rfl, .underway (hstands.of_step hstep)⟩
    | failed error hfailed hsource' hshows => exact ⟨rfl, .failed hfailed hsource' hshows⟩
  | failed hfailed hsource hshows =>
    rw [next_of_failed hfailed]
    exact ⟨rfl, .failed hfailed hsource hshows⟩

lemma exists_shows (h : t.Matches source stream) :
    ∃ read rest, source = read ++ rest ∧ t.cursor.Shows read rest := by
  cases h with
  | @underway s h =>
    obtain ⟨read, hsource, hoffset⟩ := h
    exact ⟨read, s.rest, hsource, hsource, hoffset⟩
  | @failed _ read rest hfailed hsource hshows => exact ⟨read, rest, hsource, hshows⟩

/-- Asked equally often, the two have come equally far. -/
lemma after (h : t.Matches source stream) (n : Nat) :
    (t.after n).next.1 = stream.get? n ∧
      ∃ read rest, source = read ++ rest ∧ (t.after n).cursor.Shows read rest := by
  induction n generalizing t stream with
  | zero => exact ⟨h.next.1, h.exists_shows⟩
  | succ n ih => exact ih h.next.2

end Matches

/-- Asked for one token after the other, a scan with a cursor gives the tokens of the scan on the
characters and the error behind them if there is one, and from then on nothing. All the time, also
behind an error, the cursor stands between two characters of the source. -/
theorem next_after_start (source : Text) (d : Delimiters) (n : Nat) :
    ((start source d).after n).next.1 = (scan source d).results[n]? ∧
      ∃ read rest, source = read ++ rest ∧ ((start source d).after n).cursor.Shows read rest := by
  obtain ⟨hnext, hshows⟩ := (matches_start source d).after n
  exact ⟨hnext.trans (TokenStream.get?_eq_getElem?_results _ n), hshows⟩

end CursorScanner

end Mustache
