import Mustache.Proofs.Rendering.Steps
import Mustache.Proofs.Text.Bytes
import Mustache.Proofs.Text.Lines

/-!
# Writing lines

Where output goes to a buffer, literal text and data of one line are written alike: the buffer gets
the text, escaped or not, with the indentation in front of its lines. Only what the last write was
tells whether a line starts in front of the next one.
-/

namespace Mustache

variable {F σ : Type}

/-! ### Escaped lines -/

lemma newline_mem_escapeChar {c : Char} (h : '\n' ∈ escapeChar c) : c = '\n' := by
  rw [escapeChar] at h
  cases he : entity? c with
  | none => exact (by simpa [he] using h : '\n' = c).symm
  | some entity =>
    rw [he, Option.getD_some] at h
    unfold entity? at he
    split at he <;> simp at he <;> simp [← he] at h

lemma newline_mem_escapeHtml {t : Text} (h : '\n' ∈ escapeHtml t) : '\n' ∈ t := by
  obtain ⟨c, hc, hmem⟩ := List.mem_flatMap.1 h
  exact newline_mem_escapeChar hmem ▸ hc

/-- A line feed stays what it is, and no other character becomes one. -/
lemma isLine_escapeHtml {t : Text} (h : t.IsLine) (hne : t ≠ []) :
    (escapeHtml t).IsLine ∧ escapeHtml t ≠ [] ∧ t.endsLine = (escapeHtml t).endsLine := by
  obtain ⟨init, c, rfl⟩ := (List.eq_nil_or_concat t).resolve_left hne
  have hinit : '\n' ∉ escapeHtml init := fun hmem =>
    h (by simpa using newline_mem_escapeHtml hmem)
  have hchar : escapeHtml [c] = escapeChar c := by simp
  rw [List.concat_eq_append, escapeHtml_append, hchar]
  by_cases hc : c = '\n'
  · subst hc
    have hself : escapeChar '\n' = ['\n'] := rfl
    rw [hself]
    exact ⟨by simpa [Text.IsLine] using hinit, by simp, by simp [Text.endsLine]⟩
  · have hnone : '\n' ∉ escapeHtml init ++ escapeChar c := by
      rw [List.mem_append, not_or]
      exact ⟨hinit, fun hmem => hc (newline_mem_escapeChar hmem)⟩
    refine ⟨Text.isLine_of_notMem hnone, ?_, ?_⟩
    · rw [← hchar]
      intro hnil
      have hchar : escapeHtml [c] = escapeHtml [] := (List.append_eq_nil_iff.1 hnil).2
      exact List.cons_ne_nil c [] (escapeHtml_injective hchar)
    · have hlast : (escapeHtml init ++ escapeChar c).endsLine = false := by
        rw [Text.endsLine, decide_eq_false_iff_not]
        exact fun hmem => hnone (List.mem_of_getLast? hmem)
      rw [hlast]
      simp [Text.endsLine, hc]

/-! ### Writing -/

/-- From one state to the other, this text and nothing else has been written to the sink. -/
structure Wrote (text : Text) (s s₁ : RenderState F σ ByteArray) : Prop where
  host_eq : s₁.host = s.host
  output_eq : s₁.output = s.output
  sink_eq : s₁.sink = s.sink ++ text.bytes

/-- From one state to the other, this text has been written with the indentation in front of its
lines. -/
structure Laid (text : Text) (s s₁ : RenderState F σ ByteArray) : Prop where
  host_eq : s₁.host = s.host
  output_eq : s₁.output =
    { s.output with atLineStart := Text.startsLineAfter s.output.atLineStart text }
  sink_eq : s₁.sink =
    s.sink ++ (Text.prefixLines s.output.indent s.output.atLineStart text).bytes

section

variable {text more : Text} {s s₁ s₂ : RenderState F σ ByteArray}

lemma Wrote.trans (h : Wrote text s s₁) (h' : Wrote more s₁ s₂) : Wrote (text ++ more) s s₂ where
  host_eq := h'.host_eq.trans h.host_eq
  output_eq := h'.output_eq.trans h.output_eq
  sink_eq := by rw [h'.sink_eq, h.sink_eq, Text.bytes_append, ByteArray.append_assoc]

lemma Laid.nil (s : RenderState F σ ByteArray) : Laid [] s s := ⟨rfl, rfl, by simp⟩

lemma Laid.trans (h : Laid text s s₁) (h' : Laid more s₁ s₂) : Laid (text ++ more) s s₂ where
  host_eq := h'.host_eq.trans h.host_eq
  output_eq := by rw [h'.output_eq, h.output_eq, Text.startsLineAfter_append]
  sink_eq := by
    rw [h'.sink_eq, h.sink_eq, h.output_eq, Text.prefixLines_append, Text.bytes_append,
      ByteArray.append_assoc]

end

namespace Sink

variable {text : Text} {s : RenderState F σ ByteArray}

lemma exists_put_buffer (hs : s.output.scratch = none) (text : Text) :
    ∃ s₁, buffer.put text s = .ok () s₁ ∧ Wrote text s s₁ := by
  refine ⟨{ s with sink := s.sink ++ text.bytes }.record (.wrote text), ?_, rfl, rfl, rfl⟩
  simp only [put, hs, buffer]

/-- Pieces are written one after the other. -/
lemma exists_put_forM (hs : s.output.scratch = none) (pieces : List Text) :
    ∃ s₁, pieces.forM buffer.put s = .ok () s₁ ∧ Wrote pieces.flatten s s₁ := by
  induction pieces generalizing s with
  | nil => exact ⟨s, rfl, rfl, rfl, by simp⟩
  | cons piece pieces ih =>
    obtain ⟨s₁, hput, h⟩ := exists_put_buffer hs piece
    obtain ⟨s₂, hrest, h'⟩ := ih (s := s₁) (h.output_eq ▸ hs)
    exact ⟨s₂, (bind_apply_of_ok hput).trans hrest, h.trans h'⟩

lemma exists_indent_buffer (hs : s.output.scratch = none) :
    ∃ s₁, buffer.indent s = .ok () s₁ ∧
      Wrote (if s.output.atLineStart then s.output.indent else []) s s₁ := by
  have hindent : buffer.indent s =
      (if s.output.atLineStart && s.output.indent ≠ [] then buffer.put s.output.indent
        else pure ()) s := rfl
  by_cases hstart : s.output.atLineStart = true
  · by_cases hnil : s.output.indent = []
    · refine ⟨s, ?_, rfl, rfl, by simp [hstart, hnil]⟩
      rw [hindent, if_neg (by simp [hnil])]
      rfl
    · rw [hindent, if_pos (by simp [hstart, hnil]), if_pos hstart]
      exact exists_put_buffer hs _
  · refine ⟨s, ?_, rfl, rfl, by simp [hstart]⟩
    rw [hindent, if_neg (by simp [hstart])]
    rfl

/-- The indentation, one line, and a note of how it ends. -/
lemma exists_laid_of_isLine {act : WriteM F σ ByteArray Unit} (hs : s.output.scratch = none)
    (hline : text.IsLine) (hne : text ≠ [])
    (hact : ∀ s : RenderState F σ ByteArray, s.output.scratch = none →
      ∃ s₁, act s = .ok () s₁ ∧ Wrote text s s₁) (ended : Text)
    (hended : ended.endsLine = text.endsLine) :
    ∃ s₁, (do buffer.indent; act; endText ended : WriteM F σ ByteArray Unit) s = .ok () s₁ ∧
      Laid text s s₁ := by
  obtain ⟨s₁, hindent, h₁⟩ := exists_indent_buffer hs
  obtain ⟨s₂, hact, h₂⟩ := hact s₁ (h₁.output_eq ▸ hs)
  have h := h₁.trans h₂
  refine ⟨{ s₂ with output := { s₂.output with atLineStart := ended.endsLine } }, ?_,
    h.host_eq, ?_, ?_⟩
  · rw [bind_apply_of_ok hindent, bind_apply_of_ok hact]
    rfl
  · rw [h.output_eq, Text.startsLineAfter_of_ne_nil hne, hended]
  · rw [Text.prefixLines_of_isLine hline hne]
    exact h.sink_eq

/-- Lines are laid one after the other. -/
lemma exists_lines_buffer (hs : s.output.scratch = none) (lines : List Text)
    (h : ∀ line ∈ lines, line ≠ [] ∧ line.IsLine) :
    ∃ s₁, (lines.forM fun line => do buffer.indent; buffer.emit line) s = .ok () s₁ ∧
      Laid lines.flatten s s₁ := by
  induction lines generalizing s with
  | nil => exact ⟨s, rfl, .nil s⟩
  | cons line lines ih =>
    obtain ⟨hne, hline⟩ := h line List.mem_cons_self
    obtain ⟨s₁, hfirst, h₁⟩ := exists_laid_of_isLine hs hline hne
      (fun _ hs => exists_put_buffer hs line) line rfl
    have hs₁ : s₁.output.scratch = none := by rw [h₁.output_eq, hs]
    obtain ⟨s₂, hrest, h₂⟩ := ih hs₁ fun l hl => h l (List.mem_cons_of_mem line hl)
    exact ⟨s₂, (bind_apply_of_ok hfirst).trans hrest, h₁.trans h₂⟩

lemma noteOutput_apply (s : RenderState F σ ByteArray) :
    (noteOutput : WriteM F σ ByteArray Unit) s = .ok () (s.record (.writing s.output)) := rfl

/-- What is written of a text that is not empty. -/
lemma exists_laid_of_noteOutput {act : WriteM F σ ByteArray Unit}
    (h : ∃ s₁, act (s.record (.writing s.output)) = .ok () s₁ ∧
      Laid text (s.record (.writing s.output)) s₁) :
    ∃ s₁, (do noteOutput; act) s = .ok () s₁ ∧ Laid text s s₁ := by
  obtain ⟨s₁, hact, h₁⟩ := h
  exact ⟨s₁, (bind_apply_of_ok (noteOutput_apply s)).trans hact, h₁.host_eq, h₁.output_eq,
    h₁.sink_eq⟩

/-- Literal text is written with the indentation in front of its lines. -/
lemma exists_writeText_buffer (hs : s.output.scratch = none) (text : Text) :
    ∃ s₁, buffer.writeText text s = .ok () s₁ ∧ Laid text s s₁ := by
  apply exists_laid_of_noteOutput
  by_cases hnil : text = []
  · subst hnil
    exact ⟨_, rfl, .nil _⟩
  · rw [if_neg hnil]
    generalize hnoted : s.record (.writing s.output) = noted
    have hs' : noted.output.scratch = none := hnoted ▸ hs
    by_cases hindent : noted.output.indent = []
    · obtain ⟨s₁, hput, h₁⟩ := exists_put_buffer hs' text
      refine ⟨{ s₁ with output := { s₁.output with atLineStart := text.endsLine } }, ?_,
        h₁.host_eq, ?_, ?_⟩
      · show (if noted.output.indent = [] then buffer.emit text else _) noted = _
        rw [if_pos hindent]
        exact bind_apply_of_ok hput
      · rw [h₁.output_eq, Text.startsLineAfter_of_ne_nil hnil]
      · rw [hindent, Text.nil_prefixLines]
        exact h₁.sink_eq
    · show ∃ s₁, (if noted.output.indent = [] then buffer.emit text else _) noted = _ ∧ _
      rw [if_neg hindent]
      have hlines := exists_lines_buffer hs' text.lines fun _ => Text.isLine_of_mem_lines
      rwa [Text.flatten_lines] at hlines

/-- Data of one line is written with the indentation in front of it. -/
lemma exists_writeData_buffer (hs : s.output.scratch = none) (hline : text.IsLine)
    (escaped : Bool) :
    ∃ s₁, buffer.writeData text escaped s = .ok () s₁ ∧
      Laid (if escaped then escapeHtml text else text) s s₁ := by
  apply exists_laid_of_noteOutput
  by_cases hnil : text = []
  · subst hnil
    rw [escapeHtml_nil, ite_self]
    exact ⟨_, rfl, .nil _⟩
  · rw [if_neg hnil]
    have hs' : (s.record (.writing s.output)).output.scratch = none := hs
    cases escaped with
    | false =>
      simp only [Bool.false_eq_true, if_false]
      exact exists_laid_of_isLine hs' hline hnil (fun _ hs => exists_put_buffer hs text) text rfl
    | true =>
      obtain ⟨hline', hnil', hends⟩ := isLine_escapeHtml hline hnil
      simp only [if_true]
      refine exists_laid_of_isLine hs' hline' hnil' (fun _ hs => ?_) text hends
      rw [← flatten_escapedPieces]
      exact exists_put_forM hs (escapedPieces text)

end Sink

end Mustache
