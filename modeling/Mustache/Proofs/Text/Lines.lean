import Mathlib.Tactic.Common
import Mustache.Text.Basic

/-!
# Texts with something in front of their lines

A text may be made of parts that begin or end in the middle of a line. What is put in front of the
lines of a part then depends on whether a line starts where the part does, and on nothing else in
front of it.
-/

namespace Mustache.Text

/-- Whether a line starts behind a text, when it is known whether one starts in front of it. -/
def startsLineAfter (starts : Bool) : Text → Bool
  | []      => starts
  | c :: cs => startsLineAfter (c = '\n') cs

/-- The text with `ind` in front of the first character of each line. Its own first character counts
if a line starts there. -/
def prefixLines (ind : Text) (starts : Bool) : Text → Text
  | []      => []
  | c :: cs => (if starts then ind else []) ++ c :: prefixLines ind (c = '\n') cs

@[simp] lemma startsLineAfter_nil (starts : Bool) : startsLineAfter starts [] = starts := rfl

@[simp] lemma startsLineAfter_cons (starts : Bool) (c : Char) (cs : Text) :
    startsLineAfter starts (c :: cs) = startsLineAfter (c = '\n') cs := rfl

@[simp] lemma startsLineAfter_append (starts : Bool) (s t : Text) :
    startsLineAfter starts (s ++ t) = startsLineAfter (startsLineAfter starts s) t := by
  induction s generalizing starts with
  | nil => rfl
  | cons c s ih => exact ih _

/-- Only the last character of a text matters, if it has one. -/
lemma startsLineAfter_of_ne_nil {t : Text} (h : t ≠ []) (starts : Bool) :
    startsLineAfter starts t = t.endsLine := by
  obtain ⟨init, c, rfl⟩ := (List.eq_nil_or_concat t).resolve_left h
  simp [endsLine]

@[simp] lemma prefixLines_nil (ind : Text) (starts : Bool) : prefixLines ind starts [] = [] := rfl

lemma prefixLines_cons (ind : Text) (starts : Bool) (c : Char) (cs : Text) :
    prefixLines ind starts (c :: cs) =
      (if starts then ind else []) ++ c :: prefixLines ind (c = '\n') cs := rfl

lemma prefixLines_append (ind : Text) (starts : Bool) (s t : Text) :
    prefixLines ind starts (s ++ t) =
      prefixLines ind starts s ++ prefixLines ind (startsLineAfter starts s) t := by
  induction s generalizing starts with
  | nil => rfl
  | cons c s ih =>
    rw [List.cons_append, prefixLines_cons, ih, prefixLines_cons, startsLineAfter_cons,
      List.append_assoc, List.cons_append]

@[simp] lemma nil_prefixLines (starts : Bool) (t : Text) : prefixLines [] starts t = t := by
  induction t generalizing starts with
  | nil => rfl
  | cons c t ih => rw [prefixLines_cons, ih, ite_self, List.nil_append]

/-! ### Texts of one line -/

/-- The text has no line feed but perhaps its last character. -/
def IsLine (t : Text) : Prop := '\n' ∉ t.dropLast

lemma isLine_of_notMem {t : Text} (h : '\n' ∉ t) : t.IsLine := fun hmem =>
  h ((List.dropLast_sublist t).subset hmem)

lemma IsLine.tail {c d : Char} {cs : Text} (h : IsLine (c :: d :: cs)) :
    c ≠ '\n' ∧ IsLine (d :: cs) := by
  rw [IsLine, List.dropLast_cons_cons, List.mem_cons, not_or] at h
  exact ⟨Ne.symm h.1, h.2⟩

lemma isLine_cons {c : Char} {cs : Text} (hc : c ≠ '\n') (h : IsLine cs) : IsLine (c :: cs) := by
  cases cs with
  | nil => simp [IsLine]
  | cons d cs =>
    rw [IsLine, List.dropLast_cons_cons, List.mem_cons, not_or]
    exact ⟨Ne.symm hc, h⟩

/-- Nothing is put inside a line. -/
lemma prefixLines_false {t : Text} (h : t.IsLine) (ind : Text) : prefixLines ind false t = t := by
  induction t with
  | nil => rfl
  | cons c cs ih =>
    cases cs with
    | nil => simp [prefixLines_cons]
    | cons d cs =>
      obtain ⟨hc, htail⟩ := h.tail
      rw [prefixLines_cons, decide_eq_false hc, ih htail]
      rfl

lemma prefixLines_of_isLine {t : Text} (h : t.IsLine) (hne : t ≠ []) (ind : Text) (starts : Bool) :
    prefixLines ind starts t = (if starts then ind else []) ++ t := by
  obtain ⟨c, cs, rfl⟩ := List.exists_cons_of_ne_nil hne
  have hrest := prefixLines_false h ind
  rw [prefixLines_cons] at hrest ⊢
  rw [List.cons.inj hrest |>.2]

/-- The lines of a text are not empty, and each is one line. -/
lemma isLine_of_mem_lines {t line : Text} (h : line ∈ t.lines) : line ≠ [] ∧ line.IsLine := by
  induction t generalizing line with
  | nil => simp [lines] at h
  | cons c cs ih =>
    rw [lines] at h
    split at h
    · rcases List.mem_cons.1 h with rfl | h
      · exact ⟨List.cons_ne_nil _ _, by simp [IsLine]⟩
      · exact ih h
    · next hc =>
      split at h
      · obtain rfl := List.mem_singleton.1 h
        exact ⟨List.cons_ne_nil _ _, by simp [IsLine]⟩
      · next l ls hlines =>
        rcases List.mem_cons.1 h with rfl | h
        · have hl := ih (hlines ▸ List.mem_cons_self)
          exact ⟨List.cons_ne_nil _ _, isLine_cons hc hl.2⟩
        · exact ih (hlines ▸ List.mem_cons_of_mem l h)

/-! ### Putting something in front twice -/

/-- What is put in front of lines changes neither where lines start nor where they end. -/
lemma startsLineAfter_prefixLines (ind : Text) (starts : Bool) (t : Text) :
    startsLineAfter starts (prefixLines ind starts t) = startsLineAfter starts t := by
  induction t generalizing starts with
  | nil => rfl
  | cons c cs ih =>
    rw [prefixLines_cons, startsLineAfter_append, startsLineAfter_cons, ih, startsLineAfter_cons]

/-- What is put in front of lines that have something in front of them comes first. -/
lemma prefixLines_prefixLines {inner : Text} (h : '\n' ∉ inner) (outer : Text) (starts : Bool)
    (t : Text) :
    prefixLines outer starts (prefixLines inner starts t) =
      prefixLines (outer ++ inner) starts t := by
  induction t generalizing starts with
  | nil => rfl
  | cons c cs ih =>
    rw [prefixLines_cons inner, prefixLines_cons (outer ++ inner)]
    cases starts with
    | false =>
      simp only [Bool.false_eq_true, if_false, List.nil_append]
      rw [prefixLines_cons, ih]
      rfl
    | true =>
      simp only [if_true]
      by_cases hinner : inner = []
      · subst hinner
        rw [List.nil_append, prefixLines_cons, ih, List.append_nil]
        rfl
      · have hends : inner.endsLine = false := by
          rw [endsLine, decide_eq_false_iff_not]
          exact fun hlast => h (List.mem_of_getLast? hlast)
        rw [prefixLines_append, prefixLines_of_isLine (isLine_of_notMem h) hinner,
          startsLineAfter_of_ne_nil hinner, hends, prefixLines_cons, ih]
        simp only [if_true, Bool.false_eq_true, if_false, List.nil_append]

example : prefixLines [' '] true (prefixLines ['>'] true "a\n\nb".toList) =
    " >a\n >\n >b".toList := by decide

end Mustache.Text
