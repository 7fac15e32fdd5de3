import Mustache.Proofs.Tag.Names
import Mustache.Proofs.Text.Words

/-!
# Segments of names

Every text is written in one way as pieces without dots, with dots between them. A name is read as
the path of its pieces if they are words, and a dot alone as the implicit path; any other text is no
name. The path of a name is shown as the name, and only as this one.
-/

namespace Mustache

/-! ### The pieces between dots -/

namespace Text

/-- The text is written as these pieces with dots between them, and no dot is in a piece. -/
structure DotPieces (t : Text) (pieces : List Text) : Prop where
  ne_nil : pieces ≠ []
  eq_intercalate : t = ['.'].intercalate pieces
  dot_notMem : ∀ s ∈ pieces, '.' ∉ s

variable {t : Text} {pieces : List Text}

lemma dotPieces_pieces (t : Text) : t.DotPieces (t.pieces (· = '.')) where
  ne_nil := pieces_ne_nil _ _
  eq_intercalate := by rw [← Path.joined_eq_intercalate (pieces_ne_nil _ _), Path.joined_pieces]
  dot_notMem s hs hdot := by simpa using not_of_mem_pieces hs '.' hdot

lemma DotPieces.eq_joined (h : t.DotPieces pieces) : t = Path.joined pieces := by
  rw [h.eq_intercalate, Path.joined_eq_intercalate h.ne_nil]

/-- A text has one list of pieces, into which it is split. -/
theorem dotPieces_iff : t.DotPieces pieces ↔ pieces = t.pieces (· = '.') := by
  constructor
  · intro h
    rw [h.eq_joined, Path.pieces_joined h.ne_nil h.dot_notMem]
  · rintro rfl
    exact dotPieces_pieces t

lemma isWord_iff_isSegment {s : Text} : s.IsWord ↔ isSegment s := by
  rw [isSegment_iff]
  exact ⟨fun h => ⟨h.ne_nil, h.not_isBlank⟩, fun h => ⟨h.1, h.2⟩⟩

end Text

/-! ### Paths -/

namespace Path

variable {name other : Text} {path : Path} {pieces segments : List Text}

/-- A path whose segments are words without dots is read from what it is shown as. -/
lemma parse_display_of_isWord (h : ∀ s ∈ segments, s.IsWord ∧ '.' ∉ s) :
    parse (Path.mk segments).display = .ok ⟨segments⟩ := by
  refine parse_display fun s hs => ?_
  obtain ⟨hword, hdot⟩ := h s hs
  exact ⟨Text.isWord_iff_isSegment.1 hword, hdot⟩

lemma display_eq_intercalate (segments : List Text) :
    (Path.mk segments).display =
      if segments = [] then ['.'] else ['.'].intercalate segments := by
  split
  · next h =>
    subst h
    rfl
  · next h => exact joined_eq_intercalate h

/-- A dot alone is read as the implicit path, and otherwise a name as the path of its pieces. -/
lemma parse_eq_ok_iff_of_dotPieces (h : name.DotPieces pieces) :
    parse name = .ok path ↔
      name = ['.'] ∧ path = implicit ∨ (∀ s ∈ pieces, s.IsWord) ∧ path = ⟨pieces⟩ := by
  constructor
  · intro hparse
    by_cases hdot : name = ['.']
    · subst hdot
      exact .inl ⟨rfl, (Except.ok.inj hparse).symm⟩
    obtain hname | ⟨segments, hne, heq, hsegments⟩ := exists_parse_eq_ok_iff.1 ⟨path, hparse⟩
    · exact absurd hname hdot
    have hpieces : name.DotPieces segments := ⟨hne, heq, fun s hs => (hsegments s hs).2.1⟩
    obtain rfl : segments = pieces :=
      (Text.dotPieces_iff.1 hpieces).trans (Text.dotPieces_iff.1 h).symm
    have hwords : ∀ s ∈ segments, s.IsWord := fun s hs =>
      ⟨(hsegments s hs).1, (hsegments s hs).2.2⟩
    have hread := parse_display_of_isWord fun s hs => ⟨hwords s hs, h.dot_notMem s hs⟩
    rw [display, ← h.eq_joined, hparse] at hread
    exact .inr ⟨hwords, Except.ok.inj hread⟩
  · rintro (⟨rfl, rfl⟩ | ⟨hwords, rfl⟩)
    · rfl
    · rw [h.eq_joined]
      exact parse_display_of_isWord fun s hs => ⟨hwords s hs, h.dot_notMem s hs⟩

/-- A text without a path is empty, or one of its pieces is not a word. -/
lemma parse_eq_error_iff_of_dotPieces (h : name.DotPieces pieces) {fault : ParseFault} :
    (parse name).mapError ParseFault.ofPathError = .error fault ↔
      name = [] ∧ fault = .emptyName ∨
        name ≠ [] ∧ ¬ (name = ['.'] ∨ ∀ s ∈ pieces, s.IsWord) ∧ fault = .invalidPath name := by
  have hname : IsName name ↔ name = ['.'] ∨ ∀ s ∈ pieces, s.IsWord := by
    rw [← exists_parse_eq_ok_iff]
    simp only [parse_eq_ok_iff_of_dotPieces h, exists_or, exists_and_left, exists_eq, and_true]
  rw [← hname]
  cases hparse : parse name with
  | ok path =>
    have hne : name ≠ [] := by
      rintro rfl
      simp [parse] at hparse
    simp [Except.mapError, hne, exists_parse_eq_ok_iff.1 ⟨path, hparse⟩]
  | error e =>
    rw [Except.mapError, Except.error.injEq]
    rcases parse_eq_error_iff.1 hparse with ⟨rfl, rfl⟩ | ⟨hne, hnot, rfl⟩
    · simp [ParseFault.ofPathError, eq_comm]
    · simp [ParseFault.ofPathError, hne, hnot, eq_comm]

end Path

end Mustache
