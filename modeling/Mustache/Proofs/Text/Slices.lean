import Mathlib.Tactic.Common
import Mustache.Escape
import Mustache.Proofs.Text.Bytes

/-!
# Escaping by bytes

Escaping need not look at characters: the bytes of a text are searched for those of reserved
characters, and cut there. A reserved character is a single byte, and that byte is no part of any
other character. So each slice is a run of whole characters, and the slices are the pieces in which
an escaped text is written.
-/

namespace Mustache

/-! ### Cutting bytes -/

/-- The entity of a reserved byte. -/
def entityOfByte? (byte : UInt8) : Option Text := entity? (Char.ofUInt8 byte)

/-- The smaller of two places. -/
def earliest : Option Nat → Option Nat → Option Nat
  | some m, some n => some (min m n)
  | some m, none   => some m
  | none,   place  => place

/-- Where the next reserved byte stands. There are five of them, which takes two searches. -/
def nextReserved (bytes : List UInt8) : Option Nat :=
  earliest (bytes.findIdx? ([38, 60, 62].contains ·)) (bytes.findIdx? ([34, 39].contains ·))

/-- Bytes cut at those that are reserved, with entities in the place of these. -/
def escapedSlices (bytes : List UInt8) : List (List UInt8) :=
  match nextReserved bytes with
  | none   => [bytes]
  | some n =>
    match hn : bytes[n]?.bind entityOfByte? with
    | none        => [bytes]
    | some entity => bytes.take n :: entity.bytes.data.toList :: escapedSlices (bytes.drop (n + 1))
termination_by bytes.length
decreasing_by
  have hlt : n < bytes.length := by
    by_contra hge
    rw [List.getElem?_eq_none (Nat.le_of_not_lt hge)] at hn
    cases hn
  rw [List.length_drop]
  omega

/-! ### Reserved bytes -/

lemma entity?_eq_none_of_le {c : Char} (h : 128 ≤ c.toNat) : entity? c = none := by
  unfold entity?
  split
  case h_6 => rfl
  all_goals exact absurd h (by decide)

lemma isSome_entityOfByte? (byte : UInt8) :
    (entityOfByte? byte).isSome = ([38, 60, 62].contains byte || [34, 39].contains byte) := by
  have h : ∀ n : Fin 256, (entityOfByte? ⟨⟨n⟩⟩).isSome =
      (([38, 60, 62] : List UInt8).contains ⟨⟨n⟩⟩ || ([34, 39] : List UInt8).contains ⟨⟨n⟩⟩) := by
    decide +kernel
  exact h byte.toBitVec.toFin

lemma earliest_map_succ (a b : Option Nat) :
    earliest (a.map (· + 1)) (b.map (· + 1)) = (earliest a b).map (· + 1) := by
  rcases a with _ | m <;> rcases b with _ | n <;> simp [earliest]

lemma earliest_some_zero (a : Option Nat) :
    earliest (some 0) a = some 0 ∧ earliest a (some 0) = some 0 := by
  cases a <;> simp [earliest]

/-- Two searches find what one search for both does. -/
lemma earliest_findIdx? (p q : UInt8 → Bool) (bytes : List UInt8) :
    earliest (bytes.findIdx? p) (bytes.findIdx? q) =
      bytes.findIdx? fun byte => p byte || q byte := by
  induction bytes with
  | nil => rfl
  | cons byte bytes ih =>
    rw [List.findIdx?_cons, List.findIdx?_cons, List.findIdx?_cons, ← ih]
    by_cases hp : p byte = true
    · rw [if_pos hp, (earliest_some_zero _).1, if_pos (by simp [hp])]
    · by_cases hq : q byte = true
      · rw [if_pos hq, (earliest_some_zero _).2, if_pos (by simp [hq])]
      · rw [if_neg hp, if_neg hq, if_neg (by simp [hp, hq]), earliest_map_succ]

lemma nextReserved_eq (bytes : List UInt8) :
    nextReserved bytes = bytes.findIdx? fun byte => (entityOfByte? byte).isSome := by
  rw [nextReserved, earliest_findIdx?]
  exact congrArg (bytes.findIdx? ·) (funext fun byte => (isSome_entityOfByte? byte).symm)

lemma escapedSlices_of_nextReserved_eq_none {bytes : List UInt8} (h : nextReserved bytes = none) :
    escapedSlices bytes = [bytes] := by
  rw [escapedSlices, h]

section

variable {run bytes : List UInt8} {byte : UInt8} {entity : Text}
  (hrun : ∀ byte ∈ run, entityOfByte? byte = none) (hbyte : entityOfByte? byte = some entity)

include hrun hbyte

/-- Behind bytes that are not reserved the next reserved one is found. -/
lemma nextReserved_append_cons : nextReserved (run ++ byte :: bytes) = some run.length := by
  have hnone : run.findIdx? (fun byte => (entityOfByte? byte).isSome) = none := by
    rw [List.findIdx?_eq_none_iff]
    intro byte hmem
    rw [hrun byte hmem]
    rfl
  rw [nextReserved_eq, List.findIdx?_append, hnone, List.findIdx?_cons, hbyte]
  simp

/-- Bytes with a reserved one in them are cut there. -/
lemma escapedSlices_append_cons :
    escapedSlices (run ++ byte :: bytes) =
      run :: entity.bytes.data.toList :: escapedSlices bytes := by
  rw [escapedSlices, nextReserved_append_cons hrun hbyte]
  simp only
  have hget : (run ++ byte :: bytes)[run.length]?.bind entityOfByte? = some entity := by
    simp [hbyte]
  split
  · next h =>
    rw [hget] at h
    cases h
  · next h =>
    rw [hget] at h
    cases h
    simp

end

/-! ### Characters and their bytes -/

/-- The bytes of a text, in order. -/
def Text.byteList (text : Text) : List UInt8 := text.flatMap String.utf8EncodeChar

lemma Text.toList_data_bytes (text : Text) : text.bytes.data.toList = text.byteList := by
  rw [bytes_eq_utf8Encode, List.utf8Encode, List.toList_data_toByteArray, byteList]

@[simp] lemma Text.byteList_append (s t : Text) : (s ++ t).byteList = s.byteList ++ t.byteList := by
  simp [byteList]

lemma Text.byteList_cons (c : Char) (t : Text) :
    byteList (c :: t) = String.utf8EncodeChar c ++ t.byteList := by
  simp [byteList]

lemma Text.byteList_ne_nil {t : Text} (h : t ≠ []) : t.byteList ≠ [] := by
  obtain ⟨c, t, rfl⟩ := List.exists_cons_of_ne_nil h
  rw [byteList_cons]
  simp [String.utf8EncodeChar_ne_nil]

/-- Only the first half of all bytes stand for characters of their own. -/
lemma entityOfByte?_of_le {byte : UInt8} (h : 128 ≤ byte.toNat) : entityOfByte? byte = none :=
  entity?_eq_none_of_le h

lemma ofUInt8_ofNat {c : Char} (h : c.val.toNat ≤ 127) :
    Char.ofUInt8 (UInt8.ofNat c.val.toNat) = c := by
  apply Char.ext
  apply UInt32.toNat_inj.1
  show (UInt8.ofNat c.val.toNat).toUInt32.toNat = c.val.toNat
  rw [UInt8.toNat_toUInt32, UInt8.toNat_ofNat']
  omega

/-- A character that is not reserved has no reserved byte. -/
lemma entityOfByte?_of_mem {c : Char} (hc : entity? c = none) {byte : UInt8}
    (hbyte : byte ∈ String.utf8EncodeChar c) : entityOfByte? byte = none := by
  rw [String.utf8EncodeChar] at hbyte
  by_cases hle : c.val.toNat ≤ 127
  · rw [if_pos hle, List.mem_singleton] at hbyte
    rw [hbyte, entityOfByte?, ofUInt8_ofNat hle, hc]
  · apply entityOfByte?_of_le
    simp only [hle, if_false] at hbyte
    split at hbyte
    · simp only [List.mem_cons, List.not_mem_nil, or_false] at hbyte
      rcases hbyte with rfl | rfl <;> rw [UInt8.toNat_ofNat'] <;> omega
    · split at hbyte
      · simp only [List.mem_cons, List.not_mem_nil, or_false] at hbyte
        rcases hbyte with rfl | rfl | rfl <;> rw [UInt8.toNat_ofNat'] <;> omega
      · simp only [List.mem_cons, List.not_mem_nil, or_false] at hbyte
        rcases hbyte with rfl | rfl | rfl | rfl <;> rw [UInt8.toNat_ofNat'] <;> omega

lemma entityOfByte?_of_mem_byteList {t : Text} (ht : ∀ c ∈ t, entity? c = none) {byte : UInt8}
    (hbyte : byte ∈ t.byteList) : entityOfByte? byte = none := by
  obtain ⟨c, hc, hmem⟩ := List.mem_flatMap.1 hbyte
  exact entityOfByte?_of_mem (ht c hc) hmem

/-- A reserved character is one byte. -/
lemma utf8EncodeChar_of_entity? {c : Char} {entity : Text} (hc : entity? c = some entity) :
    ∃ byte, String.utf8EncodeChar c = [byte] ∧ entityOfByte? byte = some entity := by
  have hlt : ¬ 128 ≤ c.toNat := by
    intro hle
    rw [entity?_eq_none_of_le hle] at hc
    cases hc
  have hle : c.val.toNat ≤ 127 := Nat.le_of_not_lt hlt
  refine ⟨UInt8.ofNat c.val.toNat, ?_, ?_⟩
  · rw [String.utf8EncodeChar]
    exact if_pos hle
  · rw [entityOfByte?, ofUInt8_ofNat hle, hc]

/-! ### The slices of a text -/

lemma ne_nil_of_entity? {c : Char} {entity : Text} (h : entity? c = some entity) :
    entity ≠ [] := by
  rintro rfl
  have hnil := nil_notMem_escapedPieces [c]
  rw [escapedPieces, h] at hnil
  exact hnil List.mem_cons_self

lemma escapedSlices_byteList_append_cons {run ds : Text} {d : Char} {entity : Text}
    (hrun : ∀ c ∈ run, entity? c = none) (hd : entity? d = some entity) :
    escapedSlices (run ++ d :: ds : Text).byteList =
      run.byteList :: entity.byteList :: escapedSlices ds.byteList := by
  obtain ⟨byte, hbytes, hbyte⟩ := utf8EncodeChar_of_entity? hd
  rw [Text.byteList_append, Text.byteList_cons, hbytes, List.singleton_append,
    escapedSlices_append_cons (fun _ => entityOfByte?_of_mem_byteList hrun) hbyte,
    Text.toList_data_bytes]

/-- In front of a reserved character nothing is cut out. -/
lemma filter_escapedSlices_cons {c : Char} {cs entity : Text} (h : entity? c = some entity) :
    (escapedSlices (Text.byteList (c :: cs))).filter (· ≠ []) =
      entity.byteList :: (escapedSlices (Text.byteList cs)).filter (· ≠ []) := by
  have hslices : escapedSlices (Text.byteList ([] ++ c :: cs)) =
      Text.byteList [] :: entity.byteList :: escapedSlices (Text.byteList cs) :=
    escapedSlices_byteList_append_cons (by simp) h
  have hne := Text.byteList_ne_nil (ne_nil_of_entity? h)
  rw [List.nil_append] at hslices
  rw [hslices, List.filter_cons_of_neg (by simp [Text.byteList]),
    List.filter_cons_of_pos (by simpa using hne)]

lemma escapedSlices_byteList_of_forall {t : Text} (ht : ∀ c ∈ t, entity? c = none) :
    escapedSlices t.byteList = [t.byteList] := by
  apply escapedSlices_of_nextReserved_eq_none
  rw [nextReserved_eq, List.findIdx?_eq_none_iff]
  intro byte hbyte
  rw [entityOfByte?_of_mem_byteList ht hbyte]
  rfl

/-- The slices that are cut out of the bytes of a text, empty ones left out, are the bytes of the
pieces in which the escaped text is written. -/
theorem escapedSlices_byteList (text : Text) :
    (escapedSlices text.byteList).filter (· ≠ []) = (escapedPieces text).map Text.byteList := by
  fun_induction escapedPieces text with
  | case1 =>
    rw [Text.byteList, List.flatMap_nil, escapedSlices_of_nextReserved_eq_none rfl]
    rfl
  | case2 c cs entity he ih =>
    rw [filter_escapedSlices_cons he, ih, List.map_cons]
  | case3 c cs he ih =>
    generalize hrun : c :: cs.takeWhile (!isReserved ·) = run
    generalize hrest : cs.dropWhile (!isReserved ·) = rest at ih ⊢
    have hplain : ∀ d ∈ run, entity? d = none := by
      intro d hd
      rw [← hrun] at hd
      rcases List.mem_cons.1 hd with rfl | hd
      · exact he
      · simpa [isReserved] using List.all_eq_true.1 List.all_takeWhile d hd
    have htext : c :: cs = run ++ rest := by
      rw [← hrun, ← hrest, List.cons_append, List.takeWhile_append_dropWhile]
    have hne : Text.byteList run ≠ [] := by
      rw [← hrun]
      exact Text.byteList_ne_nil (List.cons_ne_nil _ _)
    rw [htext, List.map_cons, ← ih]
    cases rest with
    | nil =>
      rw [List.append_nil, escapedSlices_byteList_of_forall hplain,
        escapedSlices_byteList_of_forall (t := []) (by simp),
        List.filter_cons_of_pos (by simpa using hne),
        List.filter_cons_of_neg (by simp [Text.byteList])]
    | cons d ds =>
      -- the rest begins with the character at which the run has ended
      have hd : (entity? d).isSome := by
        have hhead := List.head?_dropWhile_not (!isReserved ·) cs
        rw [hrest] at hhead
        simpa [isReserved] using hhead
      obtain ⟨entity, hentity⟩ := Option.isSome_iff_exists.1 hd
      have hne' := Text.byteList_ne_nil (ne_nil_of_entity? hentity)
      rw [escapedSlices_byteList_append_cons hplain hentity, filter_escapedSlices_cons hentity,
        List.filter_cons_of_pos (by simpa using hne), List.filter_cons_of_pos (by simpa using hne')]

end Mustache
