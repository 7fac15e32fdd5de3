import Mustache.Proofs.Text.Offsets
import Mustache.Proofs.Text.Slices

/-!
# Entities in escaped text

An escaped text holds no reserved character but the ampersands with which its entities begin. It is
the same as the text just if there was nothing to replace. The text can also be escaped into one
buffer, by a search for the next reserved byte that goes on behind it; every cut that this makes
lies between two characters.
-/

namespace Mustache

open Text

/-- The entities of the reserved characters. -/
def entities : List Text :=
  ["&amp;".toList, "&lt;".toList, "&gt;".toList, "&quot;".toList, "&#39;".toList]

/-! ### Into one buffer -/

/-- What escaping returns: the text itself if there is nothing to replace, or else a new one. -/
inductive EscapedText
  | borrowed
  | owned (text : Text)
  deriving DecidableEq

lemma Text.length_lt_of_dropBytes? {n : Nat} {t rest : Text}
    (h : dropBytes? (n + 1) t = some rest) : rest.length < t.length := by
  obtain ⟨a, rfl, ha⟩ := exists_eq_append_of_dropBytes? h
  have hne : a ≠ [] := by
    rintro rfl
    cases ha
  have hpos := List.length_pos_iff.2 hne
  rw [List.length_append]
  omega

/-- What was done and the rest of a text, escaped; `none` if the rest is cut inside of a
character. -/
def escapeOnto (done rest : Text) : Option Text :=
  match nextReserved rest.byteList with
  | none   => some (done ++ rest)
  | some n =>
    match rest.byteList[n]?.bind entityOfByte? with
    | none        => some (done ++ rest)
    | some entity =>
      match _ : dropBytes? (n + 1) rest with
      | none       => none
      | some later =>
        (takeBytes? n rest).bind fun run => escapeOnto (done ++ run ++ entity) later
termination_by rest.length
decreasing_by exact length_lt_of_dropBytes? ‹_›

/-- A text escaped into a buffer; `none` if it is cut inside of a character. -/
def escapeByBytes (text : Text) : Option EscapedText :=
  if nextReserved text.byteList = none then some .borrowed
  else (escapeOnto [] text).map .owned

/-- A text has no reserved character, or a first one. -/
lemma forall_or_exists_entity? (t : Text) :
    (∀ c ∈ t, entity? c = none) ∨
      ∃ run d later entity, t = run ++ d :: later ∧ (∀ c ∈ run, entity? c = none) ∧
        entity? d = some entity := by
  induction t with
  | nil => exact .inl (by simp)
  | cons c cs ih =>
    cases hc : entity? c with
    | some entity => exact .inr ⟨[], c, cs, entity, rfl, by simp, hc⟩
    | none =>
      rcases ih with h | ⟨run, d, later, entity, rfl, hrun, hd⟩
      · exact .inl (by simpa [hc] using h)
      · exact .inr ⟨c :: run, d, later, entity, rfl, by simpa [hc] using hrun, hd⟩

lemma Text.length_byteList (t : Text) : t.byteList.length = t.byteSize := by
  induction t with
  | nil => rfl
  | cons c cs ih => rw [byteList_cons, List.length_append, ih, String.length_utf8EncodeChar,
      byteSize_cons]

lemma nextReserved_byteList_eq_none {t : Text} (h : ∀ c ∈ t, entity? c = none) :
    nextReserved t.byteList = none := by
  rw [nextReserved_eq, List.findIdx?_eq_none_iff]
  intro byte hbyte
  rw [entityOfByte?_of_mem_byteList h hbyte]
  rfl

lemma nextReserved_byteList_append_cons {run entity : Text} {d : Char}
    (hrun : ∀ c ∈ run, entity? c = none) (hd : entity? d = some entity) (later : Text) :
    nextReserved (run ++ d :: later : Text).byteList = some run.byteSize ∧
      (run ++ d :: later : Text).byteList[run.byteSize]?.bind entityOfByte? = some entity ∧
      d.utf8Size = 1 := by
  obtain ⟨byte, hbytes, hbyte⟩ := utf8EncodeChar_of_entity? hd
  have hsplit : (run ++ d :: later : Text).byteList = run.byteList ++ byte :: later.byteList := by
    rw [byteList_append, byteList_cons, hbytes, List.singleton_append]
  refine ⟨?_, ?_, ?_⟩
  · rw [hsplit, nextReserved_append_cons (fun _ => entityOfByte?_of_mem_byteList hrun) hbyte,
      length_byteList]
  · rw [hsplit, ← length_byteList]
    simpa using hbyte
  · rw [← String.length_utf8EncodeChar, hbytes]
    rfl

/-- Escaping into a buffer replaces the reserved characters, and cuts between characters only. -/
lemma escapeOnto_eq (done rest : Text) : escapeOnto done rest = some (done ++ escapeHtml rest) := by
  induction h : rest.length using Nat.strongRecOn generalizing done rest with
  | _ k ih =>
    subst h
    rcases forall_or_exists_entity? rest with hnone | ⟨run, d, later, entity, rfl, hrun, hd⟩
    · rw [escapeOnto, nextReserved_byteList_eq_none hnone]
      rw [escapeHtml_eq_self fun c hc => by simp [isReserved, hnone c hc]]
    · obtain ⟨hnext, hentity, hsize⟩ := nextReserved_byteList_append_cons hrun hd later
      have htake : takeBytes? (byteSize run) (run ++ d :: later) = some run := takeBytes?_append _ _
      have hdrop : dropBytes? (byteSize run + 1) (run ++ d :: later) = some later :=
        dropBytes?_of_eq (a := run ++ [d]) (by simp) (by simp [hsize])
      have hlt : later.length < (run ++ d :: later).length := by simp; omega
      rw [escapeOnto, hnext]
      simp only [hentity, htake, Option.bind_some]
      split
      · next h => rw [hdrop] at h; cases h
      · next h =>
        obtain rfl := Option.some.inj (hdrop.symm.trans h)
        rw [ih _ hlt _ _ rfl, escapeHtml_append, escapeHtml_cons, escapeChar, hd,
          escapeHtml_eq_self (t := run) fun c hc => by simp [isReserved, hrun c hc]]
        simp

/-- A text without a reserved character is not copied. -/
lemma escapeByBytes_eq (text : Text) :
    escapeByBytes text =
      some (if needsEscape text then .owned (escapeHtml text) else .borrowed) := by
  rw [escapeByBytes, escapeOnto_eq, needsEscape]
  rcases forall_or_exists_entity? text with hnone | ⟨run, d, later, entity, rfl, hrun, hd⟩
  · have hany : text.any isReserved = false := by
      simpa [isReserved] using hnone
    rw [if_pos (nextReserved_byteList_eq_none hnone), hany]
    rfl
  · have hnext := (nextReserved_byteList_append_cons hrun hd later).1
    have hany : (run ++ d :: later).any isReserved = true := by
      simp [isReserved, hd]
    rw [hnext, hany]
    rfl

/-! ### What is in escaped text -/

lemma isReserved_iff {c : Char} : isReserved c = true ↔ c ∈ ['&', '<', '>', '"', '\''] := by
  constructor
  · intro h
    unfold isReserved entity? at h
    split at h
    case h_6 => cases h
    all_goals decide
  · simp only [List.mem_cons, List.not_mem_nil, or_false]
    rintro (rfl | rfl | rfl | rfl | rfl) <;> rfl

lemma isReserved_eq_false_iff {c : Char} :
    isReserved c = false ↔ c ∉ ['&', '<', '>', '"', '\''] := by
  rw [← isReserved_iff, Bool.not_eq_true]

/-- The entities are all that reserved characters become. -/
lemma entity?_mem_entities {c : Char} {entity : Text} (h : entity? c = some entity) :
    entity ∈ entities := by
  unfold entity? at h
  split at h <;> cases h <;> simp [entities]

/-- In an entity nothing is reserved but the ampersand with which it begins. -/
lemma exists_eq_cons_of_mem_entities {entity : Text} (h : entity ∈ entities) :
    ∃ rest, entity = '&' :: rest ∧ ∀ c ∈ rest, isReserved c = false := by
  have hplain {rest : Text} (hall : rest.all fun c => !isReserved c) :
      ∀ c ∈ rest, isReserved c = false := by
    intro c hc
    simpa using List.all_eq_true.1 hall c hc
  simp only [entities, List.mem_cons, List.not_mem_nil, or_false] at h
  rcases h with rfl | rfl | rfl | rfl | rfl <;> exact ⟨_, rfl, hplain (by decide)⟩

/-- What a character becomes is one that is not reserved, or an entity. -/
lemma escapeChar_cases (c : Char) :
    (escapeChar c = [c] ∧ isReserved c = false) ∨ escapeChar c ∈ entities := by
  cases hc : entity? c with
  | none => exact .inl ⟨by simp [escapeChar, hc], by simp [isReserved, hc]⟩
  | some entity =>
    refine .inr ?_
    rw [escapeChar, hc]
    exact entity?_mem_entities hc

/-- Of the reserved characters only ampersands are left. -/
lemma eq_ampersand_of_mem_escapeHtml {t : Text} {c : Char} (hc : c ∈ escapeHtml t)
    (hreserved : isReserved c) : c = '&' := by
  obtain ⟨d, -, hmem⟩ := List.mem_flatMap.1 hc
  rcases escapeChar_cases d with ⟨hself, hd⟩ | hentity
  · rw [hself, List.mem_singleton] at hmem
    rw [hmem, hd] at hreserved
    cases hreserved
  · obtain ⟨rest, heq, hrest⟩ := exists_eq_cons_of_mem_entities hentity
    rw [heq] at hmem
    rcases List.mem_cons.1 hmem with rfl | hmem
    · rfl
    · rw [hrest c hmem] at hreserved
      cases hreserved

/-- Every ampersand that is left begins an entity. -/
lemma exists_entity_of_escapeHtml_eq {t before after : Text}
    (h : escapeHtml t = before ++ '&' :: after) : ∃ entity ∈ entities, entity <+: '&' :: after := by
  induction t generalizing before with
  | nil => simp at h
  | cons c cs ih =>
    rw [escapeHtml_cons] at h
    rcases List.append_eq_append_iff.1 h with ⟨later, rfl, hrest⟩ | ⟨part, hchar, hrest⟩
    · exact ih hrest
    · cases part with
      | nil =>
        have hnext : escapeHtml cs = [] ++ '&' :: after := hrest.symm
        exact ih hnext
      | cons d part =>
        obtain ⟨rfl, rfl⟩ := List.cons.inj hrest
        rcases escapeChar_cases c with ⟨hself, hc⟩ | hentity
        · have hmem : '&' ∈ [c] := by simp [← hself, hchar]
          rw [← List.mem_singleton.1 hmem] at hc
          cases hc
        · obtain ⟨rest, heq, hplain⟩ := exists_eq_cons_of_mem_entities hentity
          rw [hchar] at heq hentity
          cases before with
          | nil => exact ⟨_, hentity, List.prefix_append _ _⟩
          | cons b before =>
            obtain ⟨-, rfl⟩ := List.cons.inj heq
            cases hplain '&' (by simp)

/-- Escaping takes no character away, and adds to those that are reserved. -/
lemma length_escapeChar (c : Char) :
    1 ≤ (escapeChar c).length ∧ ((escapeChar c).length = 1 → isReserved c = false) := by
  rcases escapeChar_cases c with ⟨hself, hc⟩ | hentity
  · simp [hself, hc]
  · simp only [entities, List.mem_cons, List.not_mem_nil, or_false] at hentity
    rcases hentity with h | h | h | h | h <;> simp [h]

lemma length_le_escapeHtml (t : Text) : t.length ≤ (escapeHtml t).length := by
  induction t with
  | nil => simp
  | cons c cs ih =>
    have hc := (length_escapeChar c).1
    rw [escapeHtml_cons, List.length_append, List.length_cons]
    omega

/-- Escaping leaves a text as it is just if there is nothing to replace. -/
lemma escapeHtml_eq_self_iff {t : Text} :
    escapeHtml t = t ↔ ∀ c ∈ t, isReserved c = false := by
  refine ⟨fun h => ?_, escapeHtml_eq_self⟩
  induction t with
  | nil => simp
  | cons c cs ih =>
    have hlen := congrArg List.length h
    have hcs := length_le_escapeHtml cs
    have hc := length_escapeChar c
    rw [escapeHtml_cons, List.length_append, List.length_cons] at hlen
    have hplain := hc.2 (by omega)
    have hself : escapeHtml [c] = [c] := escapeHtml_eq_self (by simpa using hplain)
    rw [← List.singleton_append, escapeHtml_append, hself, List.append_cancel_left_eq] at h
    rw [List.forall_mem_cons]
    exact ⟨hplain, ih h⟩

lemma needsEscape_eq_false_iff {t : Text} : needsEscape t = false ↔ escapeHtml t = t := by
  rw [escapeHtml_eq_self_iff, needsEscape, List.any_eq_false]
  simp only [Bool.not_eq_true]

lemma Text.flatten_map_byteList (parts : List Text) :
    (parts.map byteList).flatten = byteList parts.flatten := by
  induction parts with
  | nil => rfl
  | cons part parts ih => rw [List.map_cons, List.flatten_cons, ih, List.flatten_cons,
      byteList_append]

/-- The slices put together are the bytes of the escaped text. -/
lemma flatten_escapedSlices (t : Text) :
    (escapedSlices t.byteList).flatten = (escapeHtml t).byteList := by
  rw [← List.flatten_filter_ne_nil, escapedSlices_byteList, flatten_map_byteList,
    flatten_escapedPieces]

end Mustache
