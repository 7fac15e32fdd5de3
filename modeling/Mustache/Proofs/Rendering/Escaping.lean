import Mustache.Proofs.Rendering.Cutting
import Mustache.Proofs.Text.Entities

/-!
# Writing escaped text

An escaped text is written in pieces, until all of them are written or the sink refuses one. Both
this and escaping into a buffer come to the same: each reserved character is replaced by its entity,
and every other character is left alone.
-/

namespace Mustache

variable {F σ τ : Type}

namespace Sink

variable (sink : Sink τ)

/-- A write is taken or refused. -/
lemma put_cases {s : RenderState F σ τ} (hs : s.output.scratch = none) (text : Text) :
    (∃ s₁, sink.put text s = .ok () s₁ ∧ s₁.output = s.output ∧
        s₁.events = s.events ++ [.wrote text]) ∨
      ∃ e s₁, sink.put text s = .error e s₁ ∧ s₁.events = s.events ++ [.refused e] := by
  rw [put, hs]
  cases hwrite : sink.write text.bytes s.sink with
  | mk result after =>
    cases result with
    | ok _ => exact .inl ⟨_, rfl, rfl, RenderState.events_record _ _⟩
    | error e => exact .inr ⟨e, _, rfl, RenderState.events_record _ _⟩

/-- Parts are written until one is refused. -/
lemma forM_put_cases {s : RenderState F σ τ} (hs : s.output.scratch = none) (parts : List Text) :
    (∃ s₁, parts.forM sink.put s = .ok () s₁ ∧
        s₁.events = s.events ++ parts.map .wrote) ∨
      ∃ taken part rest e s₁, parts = taken ++ part :: rest ∧
        parts.forM sink.put s = .error e s₁ ∧
        s₁.events = s.events ++ taken.map .wrote ++ [.refused e] := by
  induction parts generalizing s with
  | nil => exact .inl ⟨s, rfl, by simp⟩
  | cons part parts ih =>
    rcases sink.put_cases hs part with ⟨s₁, hput, houtput, h₁⟩ | ⟨e, s₁, hput, h₁⟩
    · rcases ih (houtput ▸ hs) with ⟨s₂, hrest, h₂⟩ | ⟨taken, next, rest, e, s₂, rfl, hrest, h₂⟩
      · refine .inl ⟨s₂, (bind_apply_of_ok hput).trans hrest, ?_⟩
        rw [h₂, h₁, List.append_assoc]
        rfl
      · refine .inr ⟨part :: taken, next, rest, e, s₂, rfl,
          (bind_apply_of_ok hput).trans hrest, ?_⟩
        rw [h₂, h₁]
        simp
    · exact .inr ⟨[], part, parts, e, s₁, rfl, bind_apply_of_error hput, by simpa using h₁⟩

variable {sink}

/-- Once an escaped text is written, all of its pieces are. -/
lemma events_of_emitEscaped_eq_ok {s s₁ : RenderState F σ τ} (hs : s.output.scratch = none)
    {text : Text} (h : sink.emitEscaped text s = .ok () s₁) :
    s₁.events = s.events ++ (escapedPieces text).map .wrote := by
  rcases sink.forM_put_cases hs (escapedPieces text) with
    ⟨s₂, hparts, h₂⟩ | ⟨taken, part, rest, e, s₂, -, hparts, -⟩
  · rw [emitEscaped, bind_apply_of_ok hparts] at h
    cases h
    exact h₂
  · rw [emitEscaped, bind_apply_of_error hparts] at h
    cases h

/-- If a piece of it is refused, those in front of it have been written, and no other was tried. -/
lemma exists_of_emitEscaped_eq_error {s s₁ : RenderState F σ τ} (hs : s.output.scratch = none)
    {text : Text} {e : SinkError} (h : sink.emitEscaped text s = .error e s₁) :
    ∃ taken refused rest, escapedPieces text = taken ++ refused :: rest ∧
      s₁.events = s.events ++ taken.map .wrote ++ [.refused e] := by
  rcases sink.forM_put_cases hs (escapedPieces text) with
    ⟨s₂, hparts, -⟩ | ⟨taken, part, rest, e', s₂, hpieces, hparts, h₂⟩
  · rw [emitEscaped, bind_apply_of_ok hparts] at h
    cases h
  · rw [emitEscaped, bind_apply_of_error hparts] at h
    cases h
    exact ⟨taken, part, rest, hpieces, h₂⟩

end Sink

/-- The characters are replaced one by one. -/
lemma escapeChar_eq (c : Char) :
    escapeChar c =
      if c = '&' then "&amp;".toList else if c = '<' then "&lt;".toList
      else if c = '>' then "&gt;".toList else if c = '"' then "&quot;".toList
      else if c = '\'' then "&#39;".toList else [c] := by
  unfold escapeChar entity?
  split
  case h_6 h₁ h₂ h₃ h₄ h₅ =>
    rw [if_neg h₁, if_neg h₂, if_neg h₃, if_neg h₄, if_neg h₅]
    rfl
  all_goals rfl

lemma writes_map_wrote (texts : List Text) :
    writes (texts.map .wrote : List (Event F)) = texts := by
  rw [writes, List.filterMap_map]
  exact List.filterMap_some

/-- Escaping into a buffer and escaping piece by piece both replace each reserved character by its
entity and leave every other character alone: into a buffer a text is copied just if it has a
reserved character, and what the sink is given are the slices that are cut out of the bytes, as far
as they are not empty. Of the reserved characters only ampersands are left, each at the head of an
entity, and the text can be read off again. A sink that refuses a write has been given a beginning
of the escaped text, and is given nothing more. -/
theorem escapeByBytes_and_emitEscaped (text : Text) :
    (escapeHtml text = text.flatMap fun c =>
      if c = '&' then "&amp;".toList else if c = '<' then "&lt;".toList
      else if c = '>' then "&gt;".toList else if c = '"' then "&quot;".toList
      else if c = '\'' then "&#39;".toList else [c]) ∧
    escapeByBytes text =
      some (if needsEscape text then .owned (escapeHtml text) else .borrowed) ∧
    (needsEscape text = false ↔ ∀ c ∈ text, c ∉ ['&', '<', '>', '"', '\'']) ∧
    (escapeHtml text = text ↔ ∀ c ∈ text, c ∉ ['&', '<', '>', '"', '\'']) ∧
    (∀ c ∈ escapeHtml text, c ∉ ['<', '>', '"', '\'']) ∧
    (∀ before after, escapeHtml text = before ++ '&' :: after →
      ∃ entity ∈ entities, entity <+: '&' :: after) ∧
    unescapeHtml (escapeHtml text) = text ∧
    (∀ other, escapeHtml other = escapeHtml text → other = text) ∧
    (∀ more, escapeHtml (text ++ more) = escapeHtml text ++ escapeHtml more) ∧
    (escapedSlices text.byteList).flatten = (escapeHtml text).byteList ∧
    ∀ {F σ τ : Type} (sink : Sink τ) (s : RenderState F σ τ), s.output.scratch = none →
      (sink.TakesAll → outcome (sink.emitEscaped text s) = .ok ()) ∧
      (∀ s₁, sink.emitEscaped text s = .ok () s₁ → ∃ pieces : List Text,
        s₁.events = s.events ++ pieces.map .wrote ∧ pieces.flatten = escapeHtml text ∧
        pieces.map Text.byteList = (escapedSlices text.byteList).filter (· ≠ [])) ∧
      ∀ e s₁, sink.emitEscaped text s = .error e s₁ → ∃ pieces : List Text,
        s₁.events = s.events ++ pieces.map .wrote ++ [.refused e] ∧
        pieces.flatten <+: escapeHtml text := by
  have hself : escapeHtml text = text ↔ ∀ c ∈ text, c ∉ ['&', '<', '>', '"', '\''] := by
    simp only [escapeHtml_eq_self_iff, isReserved_eq_false_iff]
  refine ⟨congrArg (text.flatMap ·) (funext escapeChar_eq), escapeByBytes_eq text,
    needsEscape_eq_false_iff.trans hself, hself, ?_, fun _ _ => exists_entity_of_escapeHtml_eq,
    unescapeHtml_escapeHtml text, fun _ => escapeHtml_injective, escapeHtml_append text,
    flatten_escapedSlices text, ?_⟩
  · intro c hc hmem
    have hreserved : isReserved c = true := isReserved_iff.2 (List.mem_cons_of_mem _ hmem)
    rw [eq_ampersand_of_mem_escapeHtml hc hreserved] at hmem
    simp at hmem
  · intro F σ τ sink s hs
    refine ⟨?_, ?_, ?_⟩
    · intro htakes
      obtain ⟨s₁, hemit, -⟩ := Sink.exists_emitData htakes text true s
      rw [if_pos rfl] at hemit
      rw [hemit, outcome_ok]
    · intro s₁ hemit
      exact ⟨escapedPieces text, Sink.events_of_emitEscaped_eq_ok hs hemit,
        flatten_escapedPieces text, (escapedSlices_byteList text).symm⟩
    · intro e s₁ hemit
      obtain ⟨taken, refused, rest, hpieces, hevents⟩ :=
        Sink.exists_of_emitEscaped_eq_error hs hemit
      refine ⟨taken, hevents, ?_⟩
      rw [← flatten_escapedPieces, hpieces, List.flatten_append]
      exact List.prefix_append _ _

/-- Five bytes are taken of this text: a character and an entity. -/
def tightRun : EStateM.Result SinkError (RenderState Unit Unit ByteArray) Unit :=
  (Sink.limited ⟨some 5, ⟨.full, []⟩, false⟩).emitEscaped "a<é&".toList (.start () .empty)

/-- What the sink has taken then is a beginning of the escaped text. -/
theorem exists_tightRun :
    escapeHtml "a<é&".toList = "a&lt;é&amp;".toList ∧
    escapeByBytes "a<é&".toList = some (.owned "a&lt;é&amp;".toList) ∧
    ∃ s₁ : RenderState Unit Unit ByteArray, ∃ pieces : List Text,
      tightRun = .error ⟨.full, []⟩ s₁ ∧ s₁.events = pieces.map .wrote ++ [.refused ⟨.full, []⟩] ∧
        pieces.flatten <+: "a&lt;é&amp;".toList ∧ pieces = ["a".toList, "&lt;".toList] := by
  have h := escapeByBytes_and_emitEscaped "a<é&".toList
  have hescaped : escapeHtml "a<é&".toList = "a&lt;é&amp;".toList := by decide +kernel
  have hbuffer : escapeByBytes "a<é&".toList = some (.owned "a&lt;é&amp;".toList) := by
    rw [h.2.1, hescaped]
    rfl
  have houtcome : outcome tightRun = .error ⟨.full, []⟩ := by decide +kernel
  have hwrites : writes (reached tightRun).events = ["a".toList, "&lt;".toList] := by
    decide +kernel
  cases hrun : tightRun with
  | ok u s₁ =>
    rw [hrun] at houtcome
    cases houtcome
  | error e s₁ =>
    rw [hrun] at houtcome hwrites
    obtain rfl : e = ⟨.full, []⟩ := Except.error.inj houtcome
    obtain ⟨pieces, hevents, hprefix⟩ := (h.2.2.2.2.2.2.2.2.2.2 _ _ rfl).2.2 _ _ hrun
    rw [reached_error, hevents, writes_append, writes_append, writes_map_wrote] at hwrites
    have hpieces : [] ++ pieces ++ [] = ["a".toList, "&lt;".toList] := hwrites
    rw [List.nil_append, List.append_nil] at hpieces
    exact ⟨hescaped, hbuffer, s₁, pieces, rfl, hevents, hescaped ▸ hprefix, hpieces⟩

end Mustache
