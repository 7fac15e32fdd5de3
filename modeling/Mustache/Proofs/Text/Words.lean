import Mathlib.Tactic.Common
import Mustache.Text.Blank

/-!
# Words

A text is split into words at its blanks. `Text.Spaced` tells which texts hold given words: those in
which the words stand in this order, apart from one another, with nothing but blanks around them.
Every text holds one sequence of words, and splitting finds it.
-/

namespace Mustache.Text

/-- There is nothing but blanks in the text, if anything. -/
def IsBlanks (t : Text) : Prop := ∀ c ∈ t, isBlank c

/-- A text that is not empty and has no blanks. -/
structure IsWord (t : Text) : Prop where
  ne_nil : t ≠ []
  not_isBlank : ∀ c ∈ t, isBlank c = false

/-- The text holds these words: each ends at a blank or at the end of the text. -/
inductive Spaced : Text → List Text → Prop
  | blanks {blanks : Text} (h : blanks.IsBlanks) : Spaced blanks []
  | word {blanks word rest : Text} {words : List Text} (hblanks : blanks.IsBlanks)
      (hword : word.IsWord) (hend : ∀ c ∈ rest.head?, isBlank c) (h : Spaced rest words) :
      Spaced (blanks ++ word ++ rest) (word :: words)

variable {t blanks word rest front gap back : Text} {ws : List Text}

lemma isBlanks_nil : IsBlanks [] := by simp [IsBlanks]

lemma IsBlanks.cons {c : Char} (hc : isBlank c) (h : t.IsBlanks) : IsBlanks (c :: t) :=
  List.forall_mem_cons.2 ⟨hc, h⟩

lemma isWord_singleton {c : Char} (hc : isBlank c = false) : IsWord [c] :=
  ⟨List.cons_ne_nil c [], List.forall_mem_singleton.2 hc⟩

/-! ### Splitting -/

@[simp] lemma words_nil : words [] = [] := by decide

lemma words_cons_of_isBlank {c : Char} (hc : isBlank c) (t : Text) : words (c :: t) = words t := by
  simp [words, pieces, hc]

lemma words_append_of_isBlanks (h : blanks.IsBlanks) (t : Text) :
    words (blanks ++ t) = words t := by
  induction blanks with
  | nil => rfl
  | cons c blanks ih =>
    obtain ⟨hc, hblanks⟩ := List.forall_mem_cons.1 h
    rw [List.cons_append, words_cons_of_isBlank hc, ih hblanks]

lemma words_append_of_isWord (hword : word.IsWord) (hend : ∀ c ∈ rest.head?, isBlank c) :
    words (word ++ rest) = word :: words rest := by
  cases rest with
  | nil => rw [List.append_nil, words, pieces_of_forall hword.not_isBlank, words_nil,
      List.filter_cons_of_pos (by simpa using hword.ne_nil), List.filter_nil]
  | cons c rest =>
    have hc : isBlank c := hend c rfl
    rw [words_cons_of_isBlank hc, words, pieces_append_cons hword.not_isBlank hc,
      List.filter_cons_of_pos (by simpa using hword.ne_nil)]
    rfl

lemma Spaced.words_eq (h : Spaced t ws) : t.words = ws := by
  induction h with
  | blanks h => simpa using words_append_of_isBlanks h []
  | word hblanks hword hend _ ih =>
    rw [List.append_assoc, words_append_of_isBlanks hblanks, words_append_of_isWord hword hend, ih]

/-! ### Every text holds words -/

lemma Spaced.cons_of_isBlank {c : Char} (hc : isBlank c) (h : Spaced t ws) :
    Spaced (c :: t) ws := by
  cases h with
  | blanks h => exact .blanks (h.cons hc)
  | word hblanks hword hend h => exact .word (hblanks.cons hc) hword hend h

/-- A character that is not blank begins a word, or is put in front of one. -/
lemma Spaced.exists_cons {c : Char} (hc : isBlank c = false) (h : Spaced t ws) :
    ∃ ws', Spaced (c :: t) ws' := by
  by_cases hend : ∀ b ∈ t.head?, isBlank b
  · exact ⟨_, .word isBlanks_nil (isWord_singleton hc) hend h⟩
  · cases h with
    | blanks h => exact absurd (fun b hb => h b (List.mem_of_mem_head? hb)) hend
    | @word blanks word rest words hblanks hword hend' h =>
      cases blanks with
      | cons b blanks =>
        have hb : isBlank b := hblanks b List.mem_cons_self
        exact absurd (by simpa using hb) hend
      | nil =>
        have hword' : IsWord (c :: word) :=
          ⟨by simp, List.forall_mem_cons.2 ⟨hc, hword.not_isBlank⟩⟩
        exact ⟨_, .word isBlanks_nil hword' hend' h⟩

lemma exists_spaced (t : Text) : ∃ ws, Spaced t ws := by
  induction t with
  | nil => exact ⟨[], .blanks isBlanks_nil⟩
  | cons c t ih =>
    obtain ⟨ws, h⟩ := ih
    cases hc : isBlank c with
    | true => exact ⟨ws, h.cons_of_isBlank hc⟩
    | false => exact h.exists_cons hc

/-- The words into which a text is split are those that it holds. -/
theorem words_eq_iff : t.words = ws ↔ Spaced t ws := by
  refine ⟨fun h => ?_, Spaced.words_eq⟩
  obtain ⟨ws', hspaced⟩ := exists_spaced t
  rwa [← h, hspaced.words_eq]

lemma Spaced.isWord (h : Spaced t ws) : ∀ w ∈ ws, w.IsWord := by
  induction h with
  | blanks h => simp
  | word _ hword _ _ ih => exact List.forall_mem_cons.2 ⟨hword, ih⟩

/-- Two words with blanks between them. -/
lemma spaced_pair {first second : Text} (hfirst : first.IsWord) (hsecond : second.IsWord)
    (hgap : gap.IsBlanks) (hne : gap ≠ []) : Spaced (first ++ gap ++ second) [first, second] := by
  have hlast : Spaced (gap ++ second ++ []) [second] :=
    .word hgap hsecond (by simp) (.blanks isBlanks_nil)
  have hend : ∀ c ∈ (gap ++ second ++ []).head?, isBlank c := by
    obtain ⟨c, cs, rfl⟩ := List.exists_cons_of_ne_nil hne
    intro b hb
    obtain rfl : c = b := Option.some.inj hb
    exact hgap c List.mem_cons_self
  have hboth := Spaced.word isBlanks_nil hfirst hend hlast
  rwa [List.nil_append, List.append_nil, ← List.append_assoc] at hboth

/-! ### Trimming -/

section
variable (hhead : ∀ c ∈ t.head?, isBlank c = false) (hfront : front.IsBlanks)

include hhead hfront

lemma takeWhile_isBlank_append : (front ++ t).takeWhile isBlank = front := by
  rw [List.takeWhile_append_of_pos hfront]
  cases t with
  | nil => simp
  | cons c t => simp [hhead c rfl]

lemma dropWhile_isBlank_append : (front ++ t).dropWhile isBlank = t := by
  rw [List.dropWhile_append_of_pos hfront]
  cases t with
  | nil => rfl
  | cons c t => simp [hhead c rfl]

/-- The blanks around a text are trimmed off if it neither begins nor ends with one. -/
lemma trim_append (hlast : ∀ c ∈ t.getLast?, isBlank c = false) (hback : back.IsBlanks) :
    trim (front ++ t ++ back) = t := by
  have hback' : IsBlanks back.reverse := fun c hc => hback c (List.mem_reverse.1 hc)
  cases t with
  | nil =>
    have hblanks : (front ++ back).IsBlanks := List.forall_mem_append.2 ⟨hfront, hback⟩
    have hnone : (front ++ back ++ []).dropWhile isBlank = [] :=
      dropWhile_isBlank_append hhead hblanks
    rw [List.append_nil] at hnone
    rw [trim, trimStart, List.append_nil, hnone]
    rfl
  | cons c t =>
    have hlast' : ∀ d ∈ (c :: t).reverse.head?, isBlank d = false := by rwa [List.head?_reverse]
    have hstart : (front ++ (c :: t ++ back)).dropWhile isBlank = c :: t ++ back :=
      dropWhile_isBlank_append hhead hfront
    rw [trim, trimStart, List.append_assoc, hstart, trimEnd, List.reverse_append,
      dropWhile_isBlank_append hlast' hback', List.reverse_reverse]

end

end Mustache.Text
