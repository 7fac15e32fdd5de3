/-!
# Text measured in bytes

Template text is a list of characters, but offsets, lengths and columns count the bytes of its
UTF-8 encoding. This file holds the measure `Text.byteSize`, cutting a text at a byte offset
(possible only on a character boundary), and the searches and splittings that work on
characters. A cut and a search both lose nothing: what they return makes up the text again.
-/

namespace Mustache

/-- Text, one character after the other. -/
abbrev Text := List Char

namespace Text

/-! ### Size -/

/-- Number of bytes of the UTF-8 encoding. -/
def byteSize : Text → Nat
  | []      => 0
  | c :: cs => c.utf8Size + byteSize cs

@[simp] theorem byteSize_nil : byteSize [] = 0 := rfl

@[simp] theorem byteSize_cons (c : Char) (cs : Text) :
    byteSize (c :: cs) = c.utf8Size + byteSize cs := rfl

@[simp] theorem byteSize_append (s t : Text) :
    byteSize (s ++ t) = byteSize s + byteSize t := by
  induction s with
  | nil => simp
  | cons c s ih => simp [ih, Nat.add_assoc]

/-- The UTF-8 encoding. -/
def bytes (t : Text) : ByteArray := (String.ofList t).toUTF8

/-- Reads bytes as UTF-8; `none` if they are not the encoding of a text. -/
def ofBytes? (b : ByteArray) : Option Text := (String.fromUTF8? b).map String.toList

theorem ofBytes?_bytes (t : Text) : ofBytes? t.bytes = some t := by
  have h : t.bytes.IsValidUTF8 := (String.ofList t).isValidUTF8
  have e : String.fromUTF8 t.bytes h = String.ofList t := rfl
  simp [ofBytes?, String.fromUTF8?, h, e]

/-! ### Cutting at a byte offset -/

/-- What is left after the first `n` bytes; `none` if `n` is past the end or inside a character. -/
def dropBytes? : Nat → Text → Option Text
  | 0,     t       => some t
  | _ + 1, []      => none
  | n + 1, c :: cs => if c.utf8Size ≤ n + 1 then dropBytes? (n + 1 - c.utf8Size) cs else none

/-- The first `n` bytes; `none` if `n` is past the end or inside a character. -/
def takeBytes? : Nat → Text → Option Text
  | 0,     _       => some []
  | _ + 1, []      => none
  | n + 1, c :: cs =>
    if c.utf8Size ≤ n + 1 then (takeBytes? (n + 1 - c.utf8Size) cs).map (c :: ·) else none

/-- The text between two byte offsets; empty if they are out of order, past the end or inside a
character. -/
def slice (t : Text) (start stop : Nat) : Text :=
  if start ≤ stop then ((dropBytes? start t).bind (takeBytes? (stop - start))).getD [] else []

@[simp] theorem dropBytes?_zero (t : Text) : dropBytes? 0 t = some t := by
  cases t <;> rfl

@[simp] theorem takeBytes?_zero (t : Text) : takeBytes? 0 t = some [] := by
  cases t <;> rfl

theorem dropBytes?_cons (c : Char) (cs : Text) (n : Nat) :
    dropBytes? (c.utf8Size + n) (c :: cs) = dropBytes? n cs := by
  obtain ⟨k, hk⟩ := Nat.exists_eq_add_one.2 c.utf8Size_pos
  have e : c.utf8Size + n = (k + n) + 1 := by omega
  rw [e, dropBytes?, if_pos (by omega), hk]
  congr 1
  omega

theorem takeBytes?_cons (c : Char) (cs : Text) (n : Nat) :
    takeBytes? (c.utf8Size + n) (c :: cs) = (takeBytes? n cs).map (c :: ·) := by
  obtain ⟨k, hk⟩ := Nat.exists_eq_add_one.2 c.utf8Size_pos
  have e : c.utf8Size + n = (k + n) + 1 := by omega
  have e' : k + n + 1 - c.utf8Size = n := by omega
  rw [e, takeBytes?, if_pos (by omega), e']

/-- Dropping the bytes of the first part of a text leaves the second. -/
@[simp] theorem dropBytes?_append (s t : Text) : dropBytes? s.byteSize (s ++ t) = some t := by
  induction s with
  | nil => simp
  | cons c s ih => simp [dropBytes?_cons, ih]

/-- Taking the bytes of the first part of a text gives that part. -/
@[simp] theorem takeBytes?_append (s t : Text) : takeBytes? s.byteSize (s ++ t) = some s := by
  induction s with
  | nil => simp
  | cons c s ih => simp [takeBytes?_cons, ih]

/-- The slice over the bytes of a middle part is that part. -/
theorem slice_append (s t u : Text) :
    slice (s ++ t ++ u) s.byteSize (s.byteSize + t.byteSize) = t := by
  simp [slice, List.append_assoc]

/-! ### Searching -/

/-- What follows `needle` at the head of a text, if it is there. -/
def after? : (needle text : Text) → Option Text
  | [],      t       => some t
  | _ :: _,  []      => none
  | n :: ns, c :: cs => if n = c then after? ns cs else none

/-- Cuts a text at the first occurrence of `needle`, which belongs to neither part. -/
def cut? (needle : Text) : Text → Option (Text × Text)
  | []      => (after? needle []).map ([], ·)
  | c :: cs =>
    match after? needle (c :: cs) with
    | some rest => some ([], rest)
    | none      => (cut? needle cs).map fun (before, rest) => (c :: before, rest)

theorem after?_eq_some_iff {needle text rest : Text} :
    after? needle text = some rest ↔ text = needle ++ rest := by
  induction needle generalizing text with
  | nil => simp [after?]
  | cons n ns ih =>
    cases text with
    | nil => simp [after?]
    | cons c cs =>
      by_cases h : n = c
      · simp [after?, h, ih]
      · simp [after?, h, Ne.symm h]

/-- The parts around the first occurrence and the needle make up the text. -/
theorem eq_of_cut? {needle text before rest : Text}
    (h : cut? needle text = some (before, rest)) : text = before ++ needle ++ rest := by
  induction text generalizing before with
  | nil =>
    simp only [cut?, Option.map_eq_some_iff] at h
    obtain ⟨r, hr, he⟩ := h
    simp only [Prod.mk.injEq] at he
    obtain ⟨rfl, rfl⟩ := he
    simpa using after?_eq_some_iff.1 hr
  | cons c cs ih =>
    unfold cut? at h
    split at h
    · next r hr =>
      simp only [Option.some.injEq, Prod.mk.injEq] at h
      obtain ⟨rfl, rfl⟩ := h
      simpa using after?_eq_some_iff.1 hr
    · simp only [Option.map_eq_some_iff, Prod.exists, Prod.mk.injEq] at h
      obtain ⟨b, r, hr, rfl, rfl⟩ := h
      simp [ih hr]

/-! ### Splitting -/

/-- The pieces between the characters that satisfy `p`; there is always at least one. -/
def pieces (p : Char → Bool) : Text → List Text
  | []      => [[]]
  | c :: cs => if p c then [] :: pieces p cs else (pieces p cs).modifyHead (c :: ·)

theorem pieces_ne_nil (p : Char → Bool) (t : Text) : pieces p t ≠ [] := by
  induction t with
  | nil => simp [pieces]
  | cons c cs ih =>
    unfold pieces
    split
    · simp
    · cases h : pieces p cs with
      | nil => exact absurd h ih
      | cons s rest => simp

/-- The first piece ends in front of the first character that satisfies `p`. -/
theorem pieces_append_cons {p : Char → Bool} {c : Char} {t : Text} (ht : ∀ x ∈ t, p x = false)
    (hc : p c) (rest : Text) : pieces p (t ++ c :: rest) = t :: pieces p rest := by
  induction t with
  | nil => simp [pieces, hc]
  | cons x t ih =>
    have hx := ht x List.mem_cons_self
    simp [pieces, hx, ih fun y hy => ht y (List.mem_cons_of_mem x hy)]

theorem pieces_of_forall {p : Char → Bool} {t : Text} (ht : ∀ x ∈ t, p x = false) :
    pieces p t = [t] := by
  induction t with
  | nil => rfl
  | cons x t ih =>
    have hx := ht x List.mem_cons_self
    simp [pieces, hx, ih fun y hy => ht y (List.mem_cons_of_mem x hy)]

/-- The lines of a text, each with the line feed that ends it. -/
def lines : Text → List Text
  | []      => []
  | c :: cs =>
    if c = '\n' then [c] :: lines cs
    else match lines cs with
      | []      => [[c]]
      | l :: ls => (c :: l) :: ls

@[simp] theorem flatten_lines (t : Text) : (lines t).flatten = t := by
  induction t with
  | nil => rfl
  | cons c cs ih =>
    unfold lines
    split
    · simp [ih]
    · split
      · next h => simp [h] at ih; simp [ih]
      · next l ls h => rw [h] at ih; simpa using ih

/-- The part of a text after its last line feed. -/
def lastLine (t : Text) : Text := (t.reverse.takeWhile (· ≠ '\n')).reverse

/-- A text ends a line if its last character is a line feed. -/
def endsLine (t : Text) : Bool := t.getLast? = some '\n'

/-! ### Numbers -/

/-- A natural number in decimal digits. -/
def ofNat (n : Nat) : Text := Nat.toDigits 10 n

/-- An integer in decimal digits, with a minus sign if it is negative. -/
def ofInt : Int → Text
  | .ofNat n   => ofNat n
  | .negSucc n => '-' :: ofNat (n + 1)

end Text

end Mustache
