import Mathlib.Tactic.Common
import Mustache.Span
import Mustache.Text.Blank

/-!
# Offsets and slices

A span between two characters of a source covers the text between them.
-/

namespace Mustache

namespace Text

lemma byteSize_pos {t : Text} (h : t ≠ []) : 0 < t.byteSize := by
  cases t with
  | nil => exact absurd rfl h
  | cons c cs =>
    have := c.utf8Size_pos
    simp only [byteSize_cons]
    omega

lemma byteSize_eq_zero_iff {t : Text} : t.byteSize = 0 ↔ t = [] := by
  refine ⟨fun h => ?_, fun h => by simp [h]⟩
  by_contra hne
  have := byteSize_pos hne
  omega

lemma takeBytes?_of_eq {source a b : Text} {n : Nat} (h : source = a ++ b) (hn : n = a.byteSize) :
    source.takeBytes? n = some a := by
  rw [h, hn, takeBytes?_append]

lemma dropBytes?_of_eq {source a b : Text} {n : Nat} (h : source = a ++ b) (hn : n = a.byteSize) :
    source.dropBytes? n = some b := by
  rw [h, hn, dropBytes?_append]

/-- What is left when some bytes are dropped follows just these bytes. -/
lemma exists_eq_append_of_dropBytes? {n : Nat} {t rest : Text}
    (h : dropBytes? n t = some rest) : ∃ a, t = a ++ rest ∧ a.byteSize = n := by
  induction t generalizing n with
  | nil =>
    cases n with
    | zero => exact ⟨[], by simpa using h, rfl⟩
    | succ n => cases h
  | cons c cs ih =>
    cases n with
    | zero => exact ⟨[], by simpa using h, rfl⟩
    | succ n =>
      rw [dropBytes?] at h
      split at h
      · next hle =>
        obtain ⟨a, rfl, ha⟩ := ih h
        refine ⟨c :: a, rfl, ?_⟩
        rw [byteSize_cons, ha]
        omega
      · cases h

/-- What is taken is what is in front. -/
lemma exists_eq_append_of_takeBytes? {n : Nat} {t front : Text}
    (h : takeBytes? n t = some front) : ∃ rest, t = front ++ rest ∧ front.byteSize = n := by
  induction t generalizing n front with
  | nil =>
    cases n with
    | zero => exact ⟨[], by simpa using h, by simp [← Option.some.inj h]⟩
    | succ n => cases h
  | cons c cs ih =>
    cases n with
    | zero => exact ⟨c :: cs, by simp [← Option.some.inj h], by simp [← Option.some.inj h]⟩
    | succ n =>
      rw [takeBytes?] at h
      split at h
      · next hle =>
        obtain ⟨later, hlater, rfl⟩ := Option.map_eq_some_iff.1 h
        obtain ⟨rest, rfl, hsize⟩ := ih hlater
        refine ⟨rest, rfl, ?_⟩
        rw [byteSize_cons, hsize]
        omega
      · cases h

/-- The slice over the bytes of a middle part, wherever the offsets come from. -/
lemma slice_of_eq {source a b c : Text} {m n : Nat} (h : source = a ++ b ++ c)
    (hm : m = a.byteSize) (hn : n = a.byteSize + b.byteSize) : source.slice m n = b := by
  rw [h, hm, hn, slice_append]

/-- An offset is on a boundary if it lies between two characters of a text or at one of its ends. -/
def IsBoundary (text : Text) (n : Nat) : Prop := ∃ a b, text = a ++ b ∧ a.byteSize = n

/-- Of two beginnings of a text, the one of fewer bytes is a beginning of the other. -/
lemma isPrefix_of_byteSize_le {text a b : Text} (ha : a <+: text) (hb : b <+: text)
    (h : a.byteSize ≤ b.byteSize) : a <+: b := by
  rcases List.prefix_or_prefix_of_prefix ha hb with h' | ⟨c, rfl⟩
  · exact h'
  · rw [byteSize_append] at h
    obtain rfl : c = [] := byteSize_eq_zero_iff.1 (by omega)
    simp

/-- What is left of a text when the blanks around it are set aside. -/
lemma exists_eq_append_trim (t : Text) :
    ∃ trail : Text, t = t.takeWhile isBlank ++ t.trim ++ trail ∧ ∀ c ∈ trail, isBlank c := by
  refine ⟨((t.dropWhile isBlank).reverse.takeWhile isBlank).reverse, ?_, ?_⟩
  · have hend : t.dropWhile isBlank =
        t.trim ++ ((t.dropWhile isBlank).reverse.takeWhile isBlank).reverse := by
      rw [trim, trimStart, trimEnd, ← List.reverse_append, List.takeWhile_append_dropWhile,
        List.reverse_reverse]
    rw [List.append_assoc, ← hend, List.takeWhile_append_dropWhile]
  · intro c hc
    rw [List.mem_reverse] at hc
    exact List.all_eq_true.1 List.all_takeWhile c hc

lemma isBlank_of_mem_getLast?_trim {t : Text} {c : Char} (h : c ∈ t.trim.getLast?) :
    isBlank c = false := by
  rw [trim, trimEnd, List.getLast?_reverse] at h
  have := List.head?_dropWhile_not isBlank t.trimStart.reverse
  rw [Option.mem_def.1 h] at this
  simpa using this

lemma isBlank_of_mem_head?_trim {t : Text} {c : Char} (h : c ∈ t.trim.head?) :
    isBlank c = false := by
  obtain ⟨trail, heq, -⟩ := exists_eq_append_trim t
  have hstart : t.dropWhile isBlank = t.trim ++ trail := by
    conv_lhs at heq => rw [← List.takeWhile_append_dropWhile (p := isBlank) (l := t)]
    rwa [List.append_assoc, List.append_cancel_left_eq] at heq
  have := List.head?_dropWhile_not isBlank t
  rw [hstart, List.head?_append, Option.mem_def.1 h] at this
  simpa using this

end Text

lemma Span.slice_of_eq {source a b c : Text} {span : Span} (h : source = a ++ b ++ c)
    (hstart : span.start = a.byteSize) (hstop : span.stop = a.byteSize + b.byteSize) :
    span.slice source = b := Text.slice_of_eq h hstart hstop

end Mustache
