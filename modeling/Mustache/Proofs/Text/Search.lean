import Mathlib.Tactic.Common
import Mustache.Text.Basic

/-!
# First occurrences

`Text.cut?` cuts a text at the first occurrence of a needle: the parts and the needle make up the
text, and no occurrence starts further left. Since an occurrence that starts further left ends
further left too, what is found does not depend on the text behind it.
-/

namespace Mustache.Text

variable {needle text before rest : Text}

lemma after?_eq_none_iff : after? needle text = none ↔ ¬ needle <+: text := by
  rw [← Option.not_isSome_iff_eq_none, Option.isSome_iff_exists, not_iff_not]
  constructor
  · rintro ⟨rest, h⟩
    exact ⟨rest, (after?_eq_some_iff.1 h).symm⟩
  · rintro ⟨rest, h⟩
    exact ⟨rest, after?_eq_some_iff.2 h.symm⟩

lemma cut?_cons_of_isPrefix (c : Char) (h : c :: text = needle ++ rest) :
    cut? needle (c :: text) = some ([], rest) := by
  rw [cut?, after?_eq_some_iff.2 h]

lemma cut?_cons_of_not_isPrefix {c : Char} (h : ¬ needle <+: c :: text) :
    cut? needle (c :: text) = (cut? needle text).map fun (a, b) => (c :: a, b) := by
  rw [cut?, after?_eq_none_iff.2 h]

/-- The head of a text is the first place where a needle can occur. -/
lemma cut?_append (rest : Text) : cut? needle (needle ++ rest) = some ([], rest) := by
  cases h : needle ++ rest with
  | nil =>
    obtain ⟨rfl, rfl⟩ := List.append_eq_nil_iff.1 h
    rfl
  | cons c cs => exact cut?_cons_of_isPrefix c h.symm

/-- What `cut?` finds is an occurrence, and none starts further left. -/
theorem cut?_eq_some_iff :
    cut? needle text = some (before, rest) ↔
      text = before ++ needle ++ rest ∧
        ∀ a b, text = a ++ needle ++ b → before.length ≤ a.length := by
  constructor
  · intro h
    refine ⟨eq_of_cut? h, ?_⟩
    induction text generalizing before with
    | nil =>
      intro a b hab
      have := congrArg List.length (eq_of_cut? h)
      simp only [List.length_nil, List.length_append] at this
      omega
    | cons c cs ih =>
      intro a b hab
      by_cases hp : needle <+: c :: cs
      · obtain ⟨r, hr⟩ := hp
        rw [cut?_cons_of_isPrefix c hr.symm] at h
        simp only [Option.some.injEq, Prod.mk.injEq] at h
        simp [← h.1]
      · rw [cut?_cons_of_not_isPrefix hp] at h
        simp only [Option.map_eq_some_iff, Prod.mk.injEq, Prod.exists] at h
        obtain ⟨before', rest', hcut, rfl, rfl⟩ := h
        cases a with
        | nil => exact absurd ⟨b, by simpa using hab.symm⟩ hp
        | cons a₀ a =>
          simp only [List.cons_append, List.cons.injEq] at hab
          simpa using ih hcut a b hab.2
  · rintro ⟨rfl, hmin⟩
    induction before with
    | nil => exact cut?_append rest
    | cons c before ih =>
      have hp : ¬ needle <+: c :: (before ++ needle ++ rest) := by
        rintro ⟨b, hb⟩
        have := hmin [] b (by simpa using hb.symm)
        simp at this
      have htail : ∀ a b, before ++ needle ++ rest = a ++ needle ++ b →
          before.length ≤ a.length := by
        intro a b hab
        have := hmin (c :: a) b (by simpa using hab)
        simpa using this
      rw [List.cons_append, List.cons_append, cut?_cons_of_not_isPrefix hp, ih htail]
      rfl

theorem cut?_eq_none_iff : cut? needle text = none ↔ ¬ needle <:+: text := by
  constructor
  · rintro h ⟨a, b, hab⟩
    induction text generalizing a with
    | nil =>
      obtain ⟨h', rfl⟩ := List.append_eq_nil_iff.1 hab
      obtain ⟨rfl, rfl⟩ := List.append_eq_nil_iff.1 h'
      simp [cut?, after?] at h
    | cons c cs ih =>
      by_cases hp : needle <+: c :: cs
      · obtain ⟨r, hr⟩ := hp
        rw [cut?_cons_of_isPrefix c hr.symm] at h
        simp at h
      · rw [cut?_cons_of_not_isPrefix hp, Option.map_eq_none_iff] at h
        cases a with
        | nil => exact hp ⟨b, by simpa using hab⟩
        | cons a₀ a =>
          simp only [List.cons_append, List.cons.injEq] at hab
          exact ih h a hab.2
  · intro h
    cases hcut : cut? needle text with
    | none => rfl
    | some found =>
      obtain ⟨before, rest⟩ := found
      exact absurd ⟨before, rest, (eq_of_cut? hcut).symm⟩ h

/-- What is found does not depend on what follows it. -/
lemma cut?_congr_rest {rest' : Text} (h : cut? needle (before ++ needle ++ rest) =
    some (before, rest)) : cut? needle (before ++ needle ++ rest') = some (before, rest') := by
  refine cut?_eq_some_iff.2 ⟨rfl, fun a b hab => ?_⟩
  by_contra hlt
  -- an occurrence further left lies in `before ++ needle`
  have hpre : a ++ needle <+: before ++ needle :=
    List.prefix_of_prefix_length_le ⟨b, hab.symm⟩ ⟨rest', rfl⟩ (by simp; omega)
  obtain ⟨u, hu⟩ := hpre
  have := (cut?_eq_some_iff.1 h).2 a (u ++ rest) (by rw [← hu]; simp)
  omega

/-- In front of what is found first, nothing is found. -/
lemma cut?_before_eq_none (hne : needle ≠ []) (h : cut? needle text = some (before, rest)) :
    cut? needle before = none := by
  obtain ⟨htext, hfirst⟩ := cut?_eq_some_iff.1 h
  rw [cut?_eq_none_iff]
  rintro ⟨a, b, hab⟩
  have hle := hfirst a (b ++ needle ++ rest) (by rw [htext, ← hab]; simp only [List.append_assoc])
  have hlen := congrArg List.length hab
  have hpos := List.length_pos_iff.2 hne
  simp only [List.length_append] at hlen
  omega

/-! ### Needles that cannot occur too early -/

/-- A needle does not start where its first character does not occur. -/
lemma cut?_append_of_notMem {c : Char} {cs : Text} (hc : c ∉ before) :
    cut? (c :: cs) (before ++ c :: cs ++ rest) = some (before, rest) := by
  induction before with
  | nil => exact cut?_append rest
  | cons d before ih =>
    rw [List.mem_cons, not_or] at hc
    have hp : ¬ c :: cs <+: d :: (before ++ c :: cs ++ rest) := fun h =>
      hc.1 (List.cons_prefix_cons.1 h).1
    rw [List.cons_append, List.cons_append, cut?_cons_of_not_isPrefix hp, ih hc.2]
    rfl

lemma cut?_eq_none_of_notMem {c : Char} {cs : Text} (hc : c ∉ text) :
    cut? (c :: cs) text = none :=
  cut?_eq_none_iff.2 fun h => hc (h.subset (by simp))

lemma cut?_singleton_eq_some_iff {c : Char} :
    cut? [c] text = some (before, rest) ↔ text = before ++ c :: rest ∧ c ∉ before := by
  constructor
  · intro h
    obtain ⟨heq, hmin⟩ := cut?_eq_some_iff.1 h
    refine ⟨by simpa using heq, ?_⟩
    intro hmem
    obtain ⟨a, b, rfl⟩ := List.append_of_mem hmem
    have := hmin a (b ++ [c] ++ rest) (by simpa using heq)
    simp only [List.length_append, List.length_cons] at this
    omega
  · rintro ⟨rfl, hc⟩
    have h : cut? [c] (before ++ [c] ++ rest) = some (before, rest) := cut?_append_of_notMem hc
    rwa [List.append_assoc, List.singleton_append] at h

lemma cut?_singleton_eq_none_iff {c : Char} : cut? [c] text = none ↔ c ∉ text := by
  rw [cut?_eq_none_iff, not_iff_not]
  constructor
  · intro h
    exact h.subset (by simp)
  · intro h
    obtain ⟨a, b, rfl⟩ := List.append_of_mem h
    exact ⟨a, b, by simp⟩

/-- A needle that starts in front of a character which is not in it ends in front of it. -/
lemma prefix_of_prefix_append_cons {last : Char} (h : needle <+: before ++ last :: rest)
    (hlast : last ∉ needle) : needle <+: before := by
  have hconcat : before ++ [last] <+: before ++ last :: rest := ⟨rest, by simp⟩
  rcases List.prefix_or_prefix_of_prefix h hconcat with h | h
  · rcases List.prefix_concat_iff.1 h with rfl | h
    · simp at hlast
    · exact h
  · exact absurd (h.subset (by simp)) hlast

/-- No occurrence of a needle reaches over a character that is not in the needle. -/
lemma cut?_append_cons {last : Char} (hlast : last ∉ needle) (hoccurs : ¬ needle <:+: before)
    (text : Text) :
    cut? needle (before ++ last :: text) =
      (cut? needle text).map fun (a, b) => (before ++ last :: a, b) := by
  induction before with
  | nil =>
    have hp : ¬ needle <+: last :: text := by
      intro h
      have h : needle <+: [] := prefix_of_prefix_append_cons h hlast
      exact hoccurs h.isInfix
    rw [List.nil_append, cut?_cons_of_not_isPrefix hp]
    rfl
  | cons c before ih =>
    have hp : ¬ needle <+: c :: (before ++ last :: text) := by
      intro h
      rw [← List.cons_append] at h
      exact hoccurs (prefix_of_prefix_append_cons h hlast).isInfix
    rw [List.cons_append, cut?_cons_of_not_isPrefix hp,
      ih fun h => hoccurs (h.trans (List.suffix_cons c before).isInfix), Option.map_map]
    rfl

/-- A needle that does not occur in a text is found behind it and a character that is not in the
needle. -/
lemma cut?_append_of_notMem_needle {last : Char} (hlast : last ∉ needle)
    (hoccurs : ¬ needle <:+: before) :
    cut? needle (before ++ last :: (needle ++ rest)) = some (before ++ [last], rest) := by
  rw [cut?_append_cons hlast hoccurs, cut?_append]
  rfl

end Mustache.Text
