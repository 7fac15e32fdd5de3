import Mustache.Text.Basic

/-!
# Escaping for HTML

Five characters are reserved in HTML, and each is replaced by its entity. Escaping is this
substitution, character by character, and loses nothing: put back, the entities give the text.
Writing escaped text comes in pieces: the longest runs without a reserved character, and the
entities between them. The pieces put together are the escaped text, and none of them is empty.
-/

namespace Mustache

/-- What escaping does to the values that tags write. -/
inductive Escaping
  /-- Reserved characters are replaced. -/
  | html
  /-- Everything is written as it is. -/
  | verbatim
  deriving DecidableEq, Repr

/-- The entity of a reserved character. -/
def entity? : Char → Option Text
  | '&'  => some ['&', 'a', 'm', 'p', ';']
  | '<'  => some ['&', 'l', 't', ';']
  | '>'  => some ['&', 'g', 't', ';']
  | '"'  => some ['&', 'q', 'u', 'o', 't', ';']
  | '\'' => some ['&', '#', '3', '9', ';']
  | _    => none

/-- Whether a character is reserved. -/
def isReserved (c : Char) : Bool := (entity? c).isSome

/-- What a character becomes. -/
def escapeChar (c : Char) : Text := (entity? c).getD [c]

/-- A text with its reserved characters replaced. -/
def escapeHtml (t : Text) : Text := t.flatMap escapeChar

/-- Whether escaping changes anything in a text. -/
def needsEscape (t : Text) : Bool := t.any isReserved

/-- The pieces in which an escaped text is written. -/
def escapedPieces : Text → List Text
  | []      => []
  | c :: cs =>
    match entity? c with
    | some entity => entity :: escapedPieces cs
    | none        =>
      (c :: cs.takeWhile (!isReserved ·)) :: escapedPieces (cs.dropWhile (!isReserved ·))
termination_by t => t.length
decreasing_by
  · simp
  · have := (List.dropWhile_suffix (!isReserved ·) (l := cs)).length_le
    simp only [List.length_cons]
    omega

@[simp] theorem escapeHtml_nil : escapeHtml [] = [] := rfl

@[simp] theorem escapeHtml_cons (c : Char) (cs : Text) :
    escapeHtml (c :: cs) = escapeChar c ++ escapeHtml cs := by
  simp [escapeHtml]

@[simp] theorem escapeHtml_append (s t : Text) :
    escapeHtml (s ++ t) = escapeHtml s ++ escapeHtml t := by
  simp [escapeHtml]

theorem escapeHtml_eq_self {t : Text} (h : ∀ c ∈ t, isReserved c = false) : escapeHtml t = t := by
  induction t with
  | nil => rfl
  | cons c cs ih =>
    have hc : entity? c = none := by simpa [isReserved] using h c (by simp)
    simp [escapeChar, hc, ih fun d hd => h d (List.mem_cons_of_mem _ hd)]

/-- The pieces put together are the escaped text. -/
theorem flatten_escapedPieces (t : Text) : (escapedPieces t).flatten = escapeHtml t := by
  fun_induction escapedPieces t with
  | case1 => rfl
  | case2 c cs entity he ih => simp [escapeChar, he, ih]
  | case3 c cs he ih =>
    have hrun : escapeHtml (cs.takeWhile (!isReserved ·)) = cs.takeWhile (!isReserved ·) :=
      escapeHtml_eq_self fun d hd => by
        simpa using List.all_eq_true.1 List.all_takeWhile d hd
    rw [List.flatten_cons, ih, escapeHtml_cons, escapeChar, he, Option.getD_none]
    conv =>
      rhs
      rw [← List.takeWhile_append_dropWhile (p := (!isReserved ·)) (l := cs)]
    rw [escapeHtml_append, hrun]
    simp

/-- Every piece holds some text. -/
theorem nil_notMem_escapedPieces (t : Text) : [] ∉ escapedPieces t := by
  fun_induction escapedPieces t with
  | case1 => simp
  | case2 c cs entity he ih =>
    rw [List.mem_cons, not_or]
    refine ⟨fun e => ?_, ih⟩
    rw [← e] at he
    unfold entity? at he
    split at he <;> simp at he
  | case3 c cs he ih => simp [ih]

/-! ### Reading escaped text -/

/-- A text with the entities replaced by their characters. -/
def unescapeHtml : Text → Text
  | '&' :: 'a' :: 'm' :: 'p' :: ';' :: rest         => '&' :: unescapeHtml rest
  | '&' :: 'l' :: 't' :: ';' :: rest                => '<' :: unescapeHtml rest
  | '&' :: 'g' :: 't' :: ';' :: rest                => '>' :: unescapeHtml rest
  | '&' :: 'q' :: 'u' :: 'o' :: 't' :: ';' :: rest  => '"' :: unescapeHtml rest
  | '&' :: '#' :: '3' :: '9' :: ';' :: rest         => '\'' :: unescapeHtml rest
  | c :: rest                                       => c :: unescapeHtml rest
  | []                                              => []

/-- Escaping loses nothing. -/
theorem unescapeHtml_escapeHtml (t : Text) : unescapeHtml (escapeHtml t) = t := by
  induction t with
  | nil => rfl
  | cons c cs ih =>
    rw [escapeHtml_cons, escapeChar]
    unfold entity?
    split
    · simp [unescapeHtml, ih]
    · simp [unescapeHtml, ih]
    · simp [unescapeHtml, ih]
    · simp [unescapeHtml, ih]
    · simp [unescapeHtml, ih]
    · next h _ _ _ _ =>
      rw [Option.getD_none, List.singleton_append, unescapeHtml]
      · rw [ih]
      all_goals exact fun _ e => (h e).elim

theorem escapeHtml_injective {s t : Text} (h : escapeHtml s = escapeHtml t) : s = t := by
  rw [← unescapeHtml_escapeHtml s, h, unescapeHtml_escapeHtml]

end Mustache
