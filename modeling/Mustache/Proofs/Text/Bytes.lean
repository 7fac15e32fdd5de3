import Mathlib.Tactic.Common
import Mustache.Text.Basic

/-!
# Texts and their bytes

A search for the bytes of a text finds just the places where its characters stand: a character
begins with a byte that occurs in no other place of a character, so that no occurrence begins
inside of one.
-/

namespace Mustache.Text

lemma bytes_eq_utf8Encode (t : Text) : t.bytes = t.utf8Encode := String.toByteArray_ofList

@[simp] lemma bytes_nil : bytes [] = .empty := by simp [bytes]

@[simp] lemma bytes_append (s t : Text) : (s ++ t).bytes = s.bytes ++ t.bytes := by
  simp [bytes, String.ofList_append]

lemma bytes_injective {s t : Text} (h : s.bytes = t.bytes) : s = t :=
  Option.some.inj (by rw [← ofBytes?_bytes s, h, ofBytes?_bytes])

@[simp] lemma size_bytes (t : Text) : t.bytes.size = t.byteSize := by
  rw [bytes_eq_utf8Encode]
  induction t with
  | nil => rfl
  | cons c t ih =>
    rw [List.utf8Encode_cons, ByteArray.size_append, ih]
    simp [List.utf8Encode]

/-- The bytes of `needle` stand in those of a text from offset `n` on. -/
def OccursAt (needle : Text) (n : Nat) (text : Text) : Prop :=
  ∃ before after : ByteArray, text.bytes = before ++ needle.bytes ++ after ∧ before.size = n

variable {needle text : Text} {n : Nat}

/-- The first byte of a character is none of the later bytes of another. -/
lemma size_eq_zero_of_utf8Encode_eq {c d : Char} {before after after' : ByteArray}
    (h : [c].utf8Encode ++ after = before ++ ([d].utf8Encode ++ after'))
    (hlt : before.size < c.utf8Size) : before.size = 0 := by
  have hc : before.size < [c].utf8Encode.size := by simpa [List.utf8Encode] using hlt
  have hd : 0 < [d].utf8Encode.size := by simpa [List.utf8Encode] using d.utf8Size_pos
  have hsize : before.size < ([c].utf8Encode ++ after).size := by
    rw [ByteArray.size_append]
    omega
  have hbyte : [c].utf8Encode[before.size] = [d].utf8Encode[0] := by
    have hleft : [c].utf8Encode[before.size] = ([c].utf8Encode ++ after)[before.size] :=
      (ByteArray.getElem_append_left hc).symm
    rw [hleft]
    simp only [h]
    rw [ByteArray.getElem_append_right (Nat.le_refl _)]
    simp only [Nat.sub_self]
    exact ByteArray.getElem_append_left hd
  have hfirst : [c].utf8Encode[before.size].IsUTF8FirstByte := by
    rw [hbyte]
    exact List.isUTF8FirstByte_getElem_utf8Encode_singleton.2 rfl
  exact List.isUTF8FirstByte_getElem_utf8Encode_singleton.1 hfirst

/-- Where the bytes of a text occur, its characters do. -/
theorem occursAt_iff (hne : needle ≠ []) :
    needle.OccursAt n text ↔ ∃ a b, text = a ++ needle ++ b ∧ a.byteSize = n := by
  constructor
  · rintro ⟨before, after, h, rfl⟩
    obtain ⟨d, ds, rfl⟩ := List.exists_cons_of_ne_nil hne
    rw [ByteArray.append_assoc] at h
    induction text generalizing before with
    | nil =>
      have hsize := congrArg ByteArray.size h
      have hpos := d.utf8Size_pos
      simp only [ByteArray.size_append, size_bytes, byteSize_nil, byteSize_cons] at hsize
      omega
    | cons c cs ih =>
      have hcons : (c :: cs).utf8Encode = before ++ ((d :: ds).utf8Encode ++ after) := by
        simpa only [bytes_eq_utf8Encode] using h
      have hlater : [c].utf8Encode ++ cs.utf8Encode =
          before ++ ([d].utf8Encode ++ (ds.utf8Encode ++ after)) := by
        rw [← List.utf8Encode_cons, hcons, List.utf8Encode_cons, ByteArray.append_assoc]
      by_cases hlt : before.size < c.utf8Size
      · have hzero := size_eq_zero_of_utf8Encode_eq hlater hlt
        obtain rfl : before = .empty := ByteArray.size_eq_zero_iff.1 hzero
        rw [ByteArray.empty_append] at hcons
        obtain ⟨b, hb⟩ := List.isPrefix_of_utf8Encode_append_eq_utf8Encode after hcons.symm
        exact ⟨[], b, hb.symm, rfl⟩
      · -- the first character lies in front of the occurrence
        obtain ⟨front, before, rfl, hfront⟩ :
            ∃ front back, before = front ++ back ∧ front.size = c.utf8Size := by
          refine ⟨before.extract 0 c.utf8Size, before.extract c.utf8Size before.size, ?_, ?_⟩
          · rw [← ByteArray.extract_eq_extract_append_extract _ (Nat.zero_le _) (by omega),
              ByteArray.extract_zero_size]
          · rw [ByteArray.size_extract]
            omega
        have hc : front.size = [c].utf8Encode.size := by simp [List.utf8Encode, hfront]
        rw [ByteArray.append_assoc, List.utf8Encode_cons, eq_comm,
          ByteArray.append_eq_append_iff_of_size_eq_left hc] at hcons
        obtain ⟨a, b, rfl, ha⟩ := ih before (by simpa only [bytes_eq_utf8Encode] using hcons.2.symm)
        refine ⟨c :: a, b, rfl, ?_⟩
        rw [byteSize_cons, ha, ByteArray.size_append, hfront]
  · rintro ⟨a, b, rfl, rfl⟩
    exact ⟨a.bytes, b.bytes, by simp only [bytes_append], size_bytes a⟩

end Mustache.Text
