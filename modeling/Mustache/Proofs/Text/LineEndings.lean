import Mathlib.Data.List.Induction
import Mathlib.Order.Monotone.Basic
import Mustache.Proofs.Text.Offsets
import Mustache.Proofs.Text.Search

/-!
# Texts with other line endings

`Text.crlf` puts a carriage return in front of every line feed. Both are blank, so nothing that is
told by characters that are not blank changes: searches, words, and what is left when the blanks
around a text are set aside. Offsets move to the right, by one byte for each line feed in front of
them, and a slice between moved offsets is the slice between the old ones, changed in the same way.
-/

namespace Mustache

namespace Text

/-- The text with a carriage return in front of every line feed. -/
def crlf (t : Text) : Text := t.flatMap fun c => if c = '\n' then ['\r', '\n'] else [c]

variable {s t needle : Text} {c : Char}

@[simp] lemma crlf_nil : crlf [] = [] := rfl

@[simp] lemma crlf_cons_newline (cs : Text) : crlf ('\n' :: cs) = '\r' :: '\n' :: crlf cs := rfl

lemma crlf_cons_of_ne (h : c ≠ '\n') (cs : Text) : crlf (c :: cs) = c :: crlf cs := by
  simp [crlf, h]

lemma crlf_cons (c : Char) (cs : Text) : crlf (c :: cs) = crlf [c] ++ crlf cs := by simp [crlf]

@[simp] lemma crlf_append (s t : Text) : crlf (s ++ t) = crlf s ++ crlf t := List.flatMap_append

lemma crlf_of_notMem (h : '\n' ∉ t) : crlf t = t := by
  induction t with
  | nil => rfl
  | cons c cs ih =>
    rw [List.mem_cons, not_or] at h
    rw [crlf_cons_of_ne (Ne.symm h.1), ih h.2]

@[simp] lemma crlf_eq_nil_iff : crlf t = [] ↔ t = [] := by
  cases t with
  | nil => simp
  | cons c cs => by_cases h : c = '\n' <;> simp [h, crlf_cons_of_ne]

lemma newline_notMem_of_isBlank (h : ∀ c ∈ t, isBlank c = false) : '\n' ∉ t := by
  intro hmem
  exact absurd (h _ hmem) (by decide)

lemma crlf_of_isBlank_eq_false (h : ∀ c ∈ t, isBlank c = false) : crlf t = t :=
  crlf_of_notMem (newline_notMem_of_isBlank h)

lemma forall_isBlank_crlf_iff :
    (∀ c ∈ crlf t, isBlank c = false) ↔ ∀ c ∈ t, isBlank c = false := by
  induction t with
  | nil => rfl
  | cons c cs ih =>
    by_cases hc : c = '\n'
    · subst hc
      have hreturn : isBlank '\r' := by decide
      have hnewline : isBlank '\n' := by decide
      simp [hreturn, hnewline]
    · rw [crlf_cons_of_ne hc, List.forall_mem_cons, List.forall_mem_cons, ih]

/-! ### Searches -/

section

variable (hneedle : ∀ c ∈ needle, isBlank c = false)
include hneedle

lemma after?_crlf (t : Text) : after? needle (crlf t) = (after? needle t).map crlf := by
  induction needle generalizing t with
  | nil => rfl
  | cons n ns ih =>
    have hn : isBlank n = false := hneedle n List.mem_cons_self
    cases t with
    | nil => rfl
    | cons c cs =>
      by_cases hc : c = '\n'
      · have hreturn : n ≠ '\r' := by
          rintro rfl
          exact absurd hn (by decide)
        have hnewline : n ≠ '\n' := by
          rintro rfl
          exact absurd hn (by decide)
        rw [hc, crlf_cons_newline, after?, after?, if_neg hreturn, if_neg hnewline]
        rfl
      · rw [crlf_cons_of_ne hc, after?, after?]
        split
        · exact ih (fun d hd => hneedle d (List.mem_cons_of_mem n hd)) cs
        · rfl

/-- What a search finds stays where it was. -/
lemma cut?_crlf (hne : needle ≠ []) (t : Text) :
    cut? needle (crlf t) = (cut? needle t).map fun (before, rest) => (crlf before, crlf rest) := by
  obtain ⟨n, ns, rfl⟩ := List.exists_cons_of_ne_nil hne
  induction t with
  | nil => rfl
  | cons c cs ih =>
    by_cases hc : c = '\n'
    · subst hc
      have hskip (d : Char) (hd : isBlank d) (u : Text) : ¬ n :: ns <+: d :: u := by
        intro h
        obtain rfl := (List.cons_prefix_cons.1 h).1
        simp [hneedle n List.mem_cons_self] at hd
      rw [crlf_cons_newline, cut?_cons_of_not_isPrefix (hskip '\r' (by decide) _),
        cut?_cons_of_not_isPrefix (hskip '\n' (by decide) _),
        cut?_cons_of_not_isPrefix (hskip '\n' (by decide) _), ih]
      simp only [Option.map_map]
      rfl
    · have hafter := after?_crlf hneedle (c :: cs)
      rw [crlf_cons_of_ne hc] at hafter ⊢
      rw [cut?, cut?, hafter]
      cases after? (n :: ns) (c :: cs) with
      | some rest => rfl
      | none =>
        simp only [Option.map_none, ih, Option.map_map]
        refine congrArg (Option.map · _) (funext fun found => ?_)
        simp [crlf_cons_of_ne hc]

end

/-! ### Blanks -/

lemma takeWhile_isBlank_crlf (t : Text) :
    (crlf t).takeWhile isBlank = crlf (t.takeWhile isBlank) := by
  induction t with
  | nil => rfl
  | cons c cs ih =>
    by_cases hc : c = '\n'
    · subst hc
      have hreturn : isBlank '\r' := by decide
      have hnewline : isBlank '\n' := by decide
      simp [hreturn, hnewline, ih]
    · cases hblank : isBlank c with
      | true => simp [crlf_cons_of_ne hc, hblank, ih]
      | false => simp [crlf_cons_of_ne hc, hblank]

lemma trimStart_crlf (t : Text) : (crlf t).trimStart = crlf t.trimStart := by
  induction t with
  | nil => rfl
  | cons c cs ih =>
    rw [trimStart] at ih
    by_cases hc : c = '\n'
    · subst hc
      have hreturn : isBlank '\r' := by decide
      have hnewline : isBlank '\n' := by decide
      simp [trimStart, hreturn, hnewline, ih]
    · cases hblank : isBlank c with
      | true => simp [trimStart, crlf_cons_of_ne hc, hblank, ih]
      | false => simp [trimStart, crlf_cons_of_ne hc, hblank]

lemma trimEnd_concat (t : Text) (c : Char) :
    trimEnd (t ++ [c]) = if isBlank c then trimEnd t else t ++ [c] := by
  rw [trimEnd, List.reverse_append, List.reverse_singleton, List.singleton_append,
    List.dropWhile_cons]
  split
  · rfl
  · simp

lemma trimEnd_crlf (t : Text) : (crlf t).trimEnd = crlf t.trimEnd := by
  induction t using List.reverseRecOn with
  | nil => rfl
  | append_singleton t c ih =>
    rw [crlf_append, trimEnd_concat]
    by_cases hc : c = '\n'
    · subst hc
      have hboth : crlf ['\n'] = ['\r'] ++ ['\n'] := rfl
      have hreturn : isBlank '\r' := by decide
      have hnewline : isBlank '\n' := by decide
      rw [hboth, ← List.append_assoc, trimEnd_concat, trimEnd_concat, if_pos hreturn,
        if_pos hnewline, if_pos hnewline, ih]
    · have hsingle : crlf [c] = [c] := crlf_cons_of_ne hc []
      rw [hsingle, trimEnd_concat]
      split
      · exact ih
      · rw [crlf_append, hsingle]

lemma trim_crlf (t : Text) : (crlf t).trim = crlf t.trim := by
  rw [trim, trimStart_crlf, trimEnd_crlf, trim]

/-- The words are the same: a line ending that is one blank longer ends no other word. -/
lemma words_crlf (t : Text) : (crlf t).words = t.words := by
  have hpieces : ∃ first later later', t.pieces isBlank = first :: later ∧
      (crlf t).pieces isBlank = first :: later' ∧
      later'.filter (· ≠ []) = later.filter (· ≠ []) := by
    induction t with
    | nil => exact ⟨[], [], [], rfl, rfl, rfl⟩
    | cons c cs ih =>
      obtain ⟨first, later, later', hpieces, hpieces', hlater⟩ := ih
      by_cases hc : c = '\n'
      · subst hc
        have hreturn : isBlank '\r' := by decide
        have hnewline : isBlank '\n' := by decide
        refine ⟨[], first :: later, [] :: first :: later', ?_, ?_, ?_⟩
        · rw [pieces, if_pos hnewline, hpieces]
        · rw [crlf_cons_newline, pieces, if_pos hreturn, pieces, if_pos hnewline, hpieces']
        · rw [List.filter_cons_of_neg (by simp), List.filter_cons, List.filter_cons, hlater]
      · rw [crlf_cons_of_ne hc, pieces, pieces, hpieces, hpieces']
        split
        · refine ⟨[], first :: later, first :: later', rfl, rfl, ?_⟩
          rw [List.filter_cons, List.filter_cons, hlater]
        · exact ⟨c :: first, later, later', rfl, rfl, hlater⟩
  obtain ⟨first, later, later', hpieces, hpieces', hlater⟩ := hpieces
  rw [words, words, hpieces, hpieces', List.filter_cons, List.filter_cons, hlater]

/-- Pieces between characters that are not blank change like the text. -/
lemma pieces_crlf {p : Char → Bool} (hp : ∀ c, p c → isBlank c = false) (t : Text) :
    (crlf t).pieces p = (t.pieces p).map crlf := by
  have hblank {c : Char} (hc : isBlank c) : ¬ p c := by
    intro hpc
    simp [hp c hpc] at hc
  induction t with
  | nil => rfl
  | cons c cs ih =>
    obtain ⟨first, later, hpieces⟩ := List.exists_cons_of_ne_nil (pieces_ne_nil p cs)
    rw [hpieces] at ih
    by_cases hc : c = '\n'
    · subst hc
      have hreturn := hblank (c := '\r') (by decide)
      have hnewline := hblank (c := '\n') (by decide)
      rw [crlf_cons_newline, pieces, if_neg hreturn, pieces, if_neg hnewline, pieces,
        if_neg hnewline, hpieces, ih]
      rfl
    · rw [crlf_cons_of_ne hc, pieces, pieces, hpieces, ih]
      split
      · rfl
      · simp [crlf_cons_of_ne hc]

/-! ### Offsets -/

/-- Where an offset comes to stand when the line endings of a text are changed. -/
def crlfOffset : Text → Nat → Nat
  | [],      n => n
  | c :: cs, n =>
    if n < c.utf8Size then n else (crlf [c]).byteSize + crlfOffset cs (n - c.utf8Size)

lemma crlfOffset_cons_of_lt {n : Nat} (h : n < c.utf8Size) (cs : Text) :
    crlfOffset (c :: cs) n = n := if_pos h

lemma crlfOffset_cons_add (c : Char) (cs : Text) (n : Nat) :
    crlfOffset (c :: cs) (c.utf8Size + n) = (crlf [c]).byteSize + crlfOffset cs n := by
  rw [crlfOffset, if_neg (by omega), Nat.add_sub_cancel_left]

@[simp] lemma crlfOffset_zero (t : Text) : crlfOffset t 0 = 0 := by
  cases t with
  | nil => rfl
  | cons c cs => exact crlfOffset_cons_of_lt c.utf8Size_pos cs

/-- The offsets of a text behind another. -/
lemma crlfOffset_append (s t : Text) (n : Nat) :
    crlfOffset (s ++ t) (s.byteSize + n) = (crlf s).byteSize + crlfOffset t n := by
  induction s with
  | nil => simp
  | cons c s ih =>
    rw [List.cons_append, byteSize_cons, Nat.add_assoc, crlfOffset_cons_add, ih, crlf_cons c s,
      byteSize_append, Nat.add_assoc]

lemma crlfOffset_byteSize (s t : Text) : crlfOffset (s ++ t) s.byteSize = (crlf s).byteSize := by
  have h := crlfOffset_append s t 0
  rwa [crlfOffset_zero] at h

lemma utf8Size_le_byteSize_crlf (c : Char) : c.utf8Size ≤ (crlf [c]).byteSize := by
  by_cases hc : c = '\n'
  · subst hc
    decide
  · simp [crlf_cons_of_ne hc]

theorem strictMono_crlfOffset (t : Text) : StrictMono t.crlfOffset := by
  intro m n h
  induction t generalizing m n with
  | nil => exact h
  | cons c cs ih =>
    have hsize := utf8Size_le_byteSize_crlf c
    rcases Nat.lt_or_ge n c.utf8Size with hn | hn
    · rwa [crlfOffset_cons_of_lt hn, crlfOffset_cons_of_lt (h.trans hn)]
    · obtain ⟨k, rfl⟩ := Nat.exists_eq_add_of_le hn
      rw [crlfOffset_cons_add]
      rcases Nat.lt_or_ge m c.utf8Size with hm | hm
      · rw [crlfOffset_cons_of_lt hm]
        omega
      · obtain ⟨j, rfl⟩ := Nat.exists_eq_add_of_le hm
        rw [crlfOffset_cons_add]
        exact Nat.add_lt_add_left (ih (Nat.lt_of_add_lt_add_left h)) _

/-- Nothing gets shorter. -/
lemma byteSize_le_byteSize_crlf (t : Text) : t.byteSize ≤ (crlf t).byteSize := by
  induction t with
  | nil => exact Nat.le_refl 0
  | cons c cs ih =>
    have hsize := utf8Size_le_byteSize_crlf c
    rw [crlf_cons, byteSize_append, byteSize_cons]
    omega

/-! ### Cuts -/

lemma dropBytes?_of_lt {n : Nat} (hpos : 0 < n) (h : n < c.utf8Size) (cs : Text) :
    dropBytes? n (c :: cs) = none := by
  obtain ⟨k, rfl⟩ := Nat.exists_eq_add_one.2 hpos
  exact if_neg (by omega)

lemma takeBytes?_of_lt {n : Nat} (hpos : 0 < n) (h : n < c.utf8Size) (cs : Text) :
    takeBytes? n (c :: cs) = none := by
  obtain ⟨k, rfl⟩ := Nat.exists_eq_add_one.2 hpos
  exact if_neg (by omega)

lemma dropBytes?_append_add (s t : Text) (n : Nat) :
    dropBytes? (s.byteSize + n) (s ++ t) = dropBytes? n t := by
  induction s with
  | nil => simp
  | cons c s ih => rw [List.cons_append, byteSize_cons, Nat.add_assoc, dropBytes?_cons, ih]

lemma takeBytes?_append_add (s t : Text) (n : Nat) :
    takeBytes? (s.byteSize + n) (s ++ t) = (takeBytes? n t).map (s ++ ·) := by
  induction s with
  | nil => simp
  | cons c s ih =>
    rw [List.cons_append, byteSize_cons, Nat.add_assoc, takeBytes?_cons, ih, Option.map_map]
    rfl

/-- An offset of a text is at its start, inside of its first character, or behind it. -/
lemma offset_cases (c : Char) (n : Nat) :
    n = 0 ∨ 0 < n ∧ n < c.utf8Size ∧ c ≠ '\n' ∨ ∃ k, n = c.utf8Size + k := by
  rcases Nat.eq_zero_or_pos n with hn | hpos
  · exact .inl hn
  rcases Nat.lt_or_ge n c.utf8Size with hlt | hle
  · refine .inr (.inl ⟨hpos, hlt, ?_⟩)
    rintro rfl
    have hone : '\n'.utf8Size = 1 := rfl
    omega
  · exact .inr (.inr (Nat.exists_eq_add_of_le hle))

/-- What is behind an offset changes like the text; an offset inside of a character stays there. -/
lemma dropBytes?_crlf (t : Text) (n : Nat) :
    dropBytes? (t.crlfOffset n) (crlf t) = (dropBytes? n t).map crlf := by
  induction t generalizing n with
  | nil => cases n <;> rfl
  | cons c cs ih =>
    rcases offset_cases c n with rfl | ⟨hpos, hlt, hc⟩ | ⟨k, rfl⟩
    · simp
    · rw [crlfOffset_cons_of_lt hlt, crlf_cons_of_ne hc, dropBytes?_of_lt hpos hlt,
        dropBytes?_of_lt hpos hlt]
      rfl
    · rw [crlfOffset_cons_add, crlf_cons c cs, dropBytes?_append_add, dropBytes?_cons, ih]

/-- And so does what is in front of it. -/
lemma takeBytes?_crlf (t : Text) (n : Nat) :
    takeBytes? (t.crlfOffset n) (crlf t) = (takeBytes? n t).map crlf := by
  induction t generalizing n with
  | nil => cases n <;> rfl
  | cons c cs ih =>
    rcases offset_cases c n with rfl | ⟨hpos, hlt, hc⟩ | ⟨k, rfl⟩
    · simp
    · rw [crlfOffset_cons_of_lt hlt, crlf_cons_of_ne hc, takeBytes?_of_lt hpos hlt,
        takeBytes?_of_lt hpos hlt]
      rfl
    · rw [crlfOffset_cons_add, crlf_cons c cs, takeBytes?_append_add, takeBytes?_cons, ih,
        Option.map_map, Option.map_map]
      refine congrArg (Option.map · _) (funext fun u => ?_)
      exact (crlf_cons c u).symm

section

variable {n : Nat} {rest : Text} (h : dropBytes? n t = some rest)
include h

/-- Offsets behind an offset move like those of the text that is left. -/
lemma crlfOffset_add (k : Nat) :
    t.crlfOffset (n + k) = t.crlfOffset n + rest.crlfOffset k := by
  obtain ⟨before, rfl, rfl⟩ := exists_eq_append_of_dropBytes? h
  rw [crlfOffset_append, crlfOffset_byteSize]

/-- The offset behind some of the text that is left. -/
lemma crlfOffset_add_byteSize {read later : Text} (hrest : rest = read ++ later) :
    t.crlfOffset (n + read.byteSize) = t.crlfOffset n + (crlf read).byteSize := by
  rw [crlfOffset_add h, hrest, crlfOffset_byteSize]

lemma dropBytes?_add_byteSize {read later : Text} (hrest : rest = read ++ later) :
    dropBytes? (n + read.byteSize) t = some later := by
  obtain ⟨before, rfl, rfl⟩ := exists_eq_append_of_dropBytes? h
  rw [dropBytes?_append_add, hrest, dropBytes?_append]

end

/-- A slice changes like the text. -/
theorem slice_crlf (t : Text) (start stop : Nat) :
    (crlf t).slice (t.crlfOffset start) (t.crlfOffset stop) = crlf (t.slice start stop) := by
  have hmono := strictMono_crlfOffset t
  rcases Nat.lt_or_ge stop start with hlt | hle
  · rw [slice, slice, if_neg (Nat.not_le.2 (hmono hlt)), if_neg (Nat.not_le.2 hlt)]
    rfl
  · obtain ⟨k, rfl⟩ := Nat.exists_eq_add_of_le hle
    rw [slice, slice, if_pos (hmono.monotone hle), if_pos hle, dropBytes?_crlf]
    cases hdrop : dropBytes? start t with
    | none => rfl
    | some rest =>
      rw [crlfOffset_add hdrop, Nat.add_sub_cancel_left, Nat.add_sub_cancel_left]
      show (takeBytes? (rest.crlfOffset k) (crlf rest)).getD [] =
        crlf ((takeBytes? k rest).getD [])
      rw [takeBytes?_crlf]
      cases takeBytes? k rest <;> rfl

end Text

/-- Where a span of `source` comes to stand when the line endings of `source` are changed. -/
def Span.crlf (source : Text) (span : Span) : Span :=
  ⟨source.crlfOffset span.start, source.crlfOffset span.stop⟩

lemma Span.slice_crlf (source : Text) (span : Span) :
    (span.crlf source).slice source.crlf = (span.slice source).crlf :=
  Text.slice_crlf source span.start span.stop

end Mustache
