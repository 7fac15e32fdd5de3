import Mustache.Text.Blank
import Mustache.Text.Quoted

/-!
# Delimiters

The two texts that open and close a tag. Each is non-empty and holds neither a blank, which
separates the two in a delimiter change, nor an equals sign, which ends it. A pair carries the
proof of that, so whoever holds a pair holds a valid one.
-/

namespace Mustache

/-- Why a text cannot be a delimiter. -/
inductive DelimiterError
  | empty
  | blank (delimiter : Text)
  | equals (delimiter : Text)
  deriving DecidableEq, Repr

/-- What is wrong, in words. -/
def DelimiterError.message : DelimiterError → String
  | .empty    => "delimiters must not be empty"
  | .blank d  => "delimiter " ++ String.ofList d.quoted ++ " contains whitespace"
  | .equals d => "delimiter " ++ String.ofList d.quoted ++ " contains '='"

/-- Whether a text can be a delimiter. -/
def IsDelimiter (t : Text) : Prop := t ≠ [] ∧ (∀ c ∈ t, isBlank c = false) ∧ '=' ∉ t

/-- The first thing wrong with a text as a delimiter. -/
def delimiterError? (t : Text) : Option DelimiterError :=
  if t = [] then some .empty
  else if t.any isBlank then some (.blank t)
  else if '=' ∈ t then some (.equals t)
  else none

theorem delimiterError?_eq_none_iff {t : Text} : delimiterError? t = none ↔ IsDelimiter t := by
  unfold delimiterError? IsDelimiter
  split
  · next h => simp [h]
  · next h =>
    split
    · next hb =>
      obtain ⟨c, hc, hb⟩ := List.any_eq_true.1 hb
      simp only [reduceCtorEq, false_iff]
      intro ⟨_, hn, _⟩
      exact absurd (hn c hc) (by simp [hb])
    · next hb =>
      split
      · next he => simp [he]
      · next he =>
        simp only [List.any_eq_true, not_exists, not_and, Bool.not_eq_true] at hb
        exact ⟨fun _ => ⟨h, hb, he⟩, fun _ => rfl⟩

/-- The pair of texts that open and close a tag. -/
structure Delimiters where
  opening : Text
  closing : Text
  isDelimiter_opening : IsDelimiter opening
  isDelimiter_closing : IsDelimiter closing
  deriving DecidableEq

namespace Delimiters

/-- A pair of delimiters, or what is wrong with it; the opening one is judged first. -/
def make (opening closing : Text) : Except DelimiterError Delimiters :=
  match ho : delimiterError? opening, hc : delimiterError? closing with
  | some e, _      => .error e
  | none,   some e => .error e
  | none,   none   =>
    .ok ⟨opening, closing, delimiterError?_eq_none_iff.1 ho, delimiterError?_eq_none_iff.1 hc⟩

/-- Two braces on either side. -/
def standard : Delimiters where
  opening := ['\x7b', '\x7b']
  closing := ['\x7d', '\x7d']
  isDelimiter_opening := delimiterError?_eq_none_iff.1 rfl
  isDelimiter_closing := delimiterError?_eq_none_iff.1 rfl

instance : Inhabited Delimiters := ⟨standard⟩

/-- Whether the pair is the standard one. -/
def isStandard (d : Delimiters) : Bool := d = standard

theorem opening_ne_nil (d : Delimiters) : d.opening ≠ [] := d.isDelimiter_opening.1

/-- Both texts of a valid pair make that pair again. -/
theorem make_self (d : Delimiters) : make d.opening d.closing = .ok d := by
  have ho := delimiterError?_eq_none_iff.2 d.isDelimiter_opening
  have hc := delimiterError?_eq_none_iff.2 d.isDelimiter_closing
  unfold make
  split <;> simp_all

end Delimiters

end Mustache
