import Mathlib.Tactic.Common
import Mustache.Proofs.Rendering.Steps
import Mustache.Proofs.Text.Bytes

/-!
# Appending to a buffer

An action that appends a text succeeds whenever the output goes straight to the buffer, and adds
just this text there. Such actions compose as their texts do, so that what a rendering writes can
be read off its parts without a look at its state.
-/

namespace Mustache

variable {F σ α β ε : Type}

/-- Text that is written now goes to the sink as it is. -/
def Output.IsDirect (o : Output) : Prop := o.indent = [] ∧ o.scratch = none

/-- Whenever the output is direct, the action succeeds, leaves it direct, appends the text to the
buffer, and returns something as described. -/
def Appends (act : EStateM ε (RenderState F σ ByteArray) α) (text : Text) (Returned : α → Prop) :
    Prop :=
  ∀ s : RenderState F σ ByteArray, s.output.IsDirect →
    ∃ a s', act s = .ok a s' ∧ Returned a ∧ s'.output.IsDirect ∧ s'.sink = s.sink ++ text.bytes

namespace Appends

variable {act : EStateM ε (RenderState F σ ByteArray) α} {text more : Text} {P : α → Prop}
  {Q : β → Prop}

lemma pure {a : α} (h : P a) :
    Appends (pure a : EStateM ε (RenderState F σ ByteArray) α) [] P := by
  intro s hs
  exact ⟨a, s, rfl, h, hs, by simp⟩

lemma bind {next : α → EStateM ε (RenderState F σ ByteArray) β} (h : Appends act text P)
    (hnext : ∀ a, P a → Appends (next a) more Q) : Appends (act >>= next) (text ++ more) Q := by
  intro s hs
  obtain ⟨a, s₁, hact, ha, hs₁, hsink₁⟩ := h s hs
  obtain ⟨b, s₂, hnext, hb, hs₂, hsink₂⟩ := hnext a ha s₁ hs₁
  refine ⟨b, s₂, ?_, hb, hs₂, ?_⟩
  · rw [bind_apply_of_ok hact]
    exact hnext
  · rw [hsink₂, hsink₁, Text.bytes_append, ByteArray.append_assoc]

/-- An action that appends nothing may come first. -/
lemma bind_nil {next : α → EStateM ε (RenderState F σ ByteArray) β} (h : Appends act [] P)
    (hnext : ∀ a, P a → Appends (next a) text Q) : Appends (act >>= next) text Q :=
  h.bind hnext

lemma mono {P' : α → Prop} (h : Appends act text P) (hP : ∀ a, P a → P' a) :
    Appends act text P' := by
  intro s hs
  obtain ⟨a, s', hact, ha, hs', hsink⟩ := h s hs
  exact ⟨a, s', hact, hP a ha, hs', hsink⟩

lemma of_eq (h : Appends act text P) (htext : text = more) : Appends act more P := htext ▸ h

/-- The state may be read first; all that is known of it is that the output is direct. -/
lemma get_bind {next : RenderState F σ ByteArray → EStateM ε (RenderState F σ ByteArray) α}
    (h : ∀ s, s.output.IsDirect → Appends (next s) text P) : Appends (get >>= next) text P := by
  intro s hs
  exact h s hs s hs

lemma modify {f : RenderState F σ ByteArray → RenderState F σ ByteArray}
    (houtput : ∀ s, s.output.IsDirect → (f s).output.IsDirect) (hsink : ∀ s, (f s).sink = s.sink) :
    Appends (modify f : EStateM ε (RenderState F σ ByteArray) Unit) [] fun _ => True := by
  intro s hs
  exact ⟨(), f s, rfl, trivial, houtput s hs, by simp [hsink]⟩

lemma forM {γ : Type} {step : γ → EStateM ε (RenderState F σ ByteArray) Unit} {written : γ → Text}
    {xs : List γ} (h : ∀ x ∈ xs, Appends (step x) (written x) fun _ => True) :
    Appends (xs.forM step) (xs.flatMap written) fun _ => True := by
  induction xs with
  | nil => exact pure trivial
  | cons x xs ih =>
    rw [List.flatMap_cons]
    exact (h x List.mem_cons_self).bind fun _ _ => ih fun y hy => h y (List.mem_cons_of_mem x hy)

lemma record (e : Event F) :
    Appends (RenderM.record e : RenderM F σ ByteArray Unit) [] fun _ => True :=
  modify (fun _ hs => hs) fun _ => rfl

lemma ofWrite {act : WriteM F σ ByteArray α} (h : Appends act text P) :
    Appends (RenderM.ofWrite act) text P := by
  intro s hs
  obtain ⟨a, s', hact, ha, hs', hsink⟩ := h s hs
  refine ⟨a, s', ?_, ha, hs', hsink⟩
  simp only [RenderM.ofWrite, EStateM.adaptExcept, hact]

end Appends

/-! ### Writing to the buffer -/

namespace Sink

lemma appends_put (text : Text) :
    Appends (buffer.put text : WriteM F σ ByteArray Unit) text fun _ => True := by
  intro s hs
  simp only [put, hs.2, buffer]
  exact ⟨(), _, rfl, trivial, hs, rfl⟩

lemma appends_endText (text : Text) :
    Appends (endText text : WriteM F σ ByteArray Unit) [] fun _ => True :=
  .modify (fun _ hs => hs) fun _ => rfl

lemma appends_noteOutput :
    Appends (noteOutput : WriteM F σ ByteArray Unit) [] fun _ => True :=
  .modify (fun _ hs => hs) fun _ => rfl

lemma appends_emit (text : Text) :
    Appends (buffer.emit text : WriteM F σ ByteArray Unit) text fun _ => True :=
  ((appends_put text).bind fun _ _ => appends_endText text).of_eq (List.append_nil text)

lemma appends_emitEscaped (text : Text) :
    Appends (buffer.emitEscaped text : WriteM F σ ByteArray Unit) (escapeHtml text)
      fun _ => True := by
  have hpieces : Appends ((escapedPieces text).forM buffer.put : WriteM F σ ByteArray Unit)
      ((escapedPieces text).flatMap id) fun _ => True := .forM fun piece _ => appends_put piece
  rw [List.flatMap_id, flatten_escapedPieces] at hpieces
  exact (hpieces.bind fun _ _ => appends_endText text).of_eq (List.append_nil _)

lemma appends_indent :
    Appends (buffer.indent : WriteM F σ ByteArray Unit) [] fun _ => True := by
  refine .get_bind ?_
  intro s hs
  simp only [hs.1, ne_eq, not_true_eq_false, decide_false, Bool.and_false, Bool.false_eq_true,
    if_false]
  exact .pure trivial

/-- Literal text is appended as it is. -/
lemma appends_writeText (text : Text) :
    Appends (buffer.writeText text : WriteM F σ ByteArray Unit) text fun _ => True := by
  apply appends_noteOutput.bind_nil
  intro _ _
  by_cases h : text = []
  · subst h
    exact .pure trivial
  · rw [if_neg h]
    refine .get_bind ?_
    intro s hs
    rw [if_pos hs.1]
    exact appends_emit text

/-- Data is appended escaped or as it is. -/
lemma appends_writeData (text : Text) (escaped : Bool) :
    Appends (buffer.writeData text escaped : WriteM F σ ByteArray Unit)
      (if escaped then escapeHtml text else text) fun _ => True := by
  apply appends_noteOutput.bind_nil
  intro _ _
  by_cases h : text = []
  · subst h
    rw [escapeHtml_nil, ite_self]
    exact .pure trivial
  · rw [if_neg h]
    apply appends_indent.bind_nil
    intro _ _
    cases escaped with
    | true => exact appends_emitEscaped text
    | false => exact appends_emit text

lemma appends_finish :
    Appends (buffer.finish : WriteM F σ ByteArray Unit) [] fun _ => True := by
  intro s hs
  exact ⟨(), _, rfl, trivial, hs, by simp [RenderState.record]⟩

end Sink

end Mustache
