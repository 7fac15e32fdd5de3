import Mustache.Proofs.Rendering.FirstFailure
import Mustache.Proofs.Text.Bytes

/-!
# What an output receives

The output of a rendering goes to the sink, or aside and to the sink later. Where nothing is
indented, a text is received as it is, or escaped, wherever it goes and wherever it stands on its
line; and what goes aside is never refused.
-/

namespace Mustache

variable {F σ τ : Type}

/-- What the output has received: the bytes written aside, or else those that the sink has taken. -/
def RenderState.received (s : RenderState F σ τ) : ByteArray :=
  s.output.scratch.getD (Text.bytes (writes s.events).flatten)

lemma RenderState.writes_record (s : RenderState F σ τ) {e : Event F} (he : e.written? = none) :
    writes (s.record e).events = writes s.events := by
  rw [events_record, writes_append]
  simp [writes, he]

/-- From the one state to the other, the output has received this text; its indentation is what it
was. If it goes aside, the sink has taken nothing. -/
structure Received (text : Text) (s s₁ : RenderState F σ τ) : Prop where
  indent_eq : s₁.output.indent = s.output.indent
  scratch_eq : s₁.output.scratch = s.output.scratch.map (· ++ text.bytes)
  writes_eq : (writes s₁.events).flatten =
    (writes s.events).flatten ++ if s.output.scratch.isSome then [] else text

namespace Received

variable {text more : Text} {s s₁ s₂ : RenderState F σ τ}

lemma nil (houtput : s₁.output = s.output)
    (hwrites : (writes s₁.events).flatten = (writes s.events).flatten) : Received [] s s₁ where
  indent_eq := by rw [houtput]
  scratch_eq := by
    rw [houtput]
    cases s.output.scratch <;> simp
  writes_eq := by simp [hwrites]

lemma record (s : RenderState F σ τ) {e : Event F} (he : e.written? = none) :
    Received [] s (s.record e) :=
  nil rfl (congrArg List.flatten (s.writes_record he))

lemma trans (h : Received text s s₁) (h₁ : Received more s₁ s₂) :
    Received (text ++ more) s s₂ where
  indent_eq := h₁.indent_eq.trans h.indent_eq
  scratch_eq := by
    rw [h₁.scratch_eq, h.scratch_eq]
    cases s.output.scratch <;> simp [ByteArray.append_assoc]
  writes_eq := by
    rw [h₁.writes_eq, h.writes_eq, h.scratch_eq]
    cases s.output.scratch <;> simp

lemma isSome_eq (h : Received text s s₁) : s₁.output.scratch.isSome = s.output.scratch.isSome := by
  rw [h.scratch_eq, Option.isSome_map]

lemma received_eq (h : Received text s s₁) : s₁.received = s.received ++ text.bytes := by
  rw [RenderState.received, RenderState.received, h.scratch_eq, h.writes_eq]
  cases s.output.scratch <;> simp

end Received

/-- From the one state to the other, this text and nothing else has been written. -/
structure Took (text : Text) (s s₁ : RenderState F σ τ) : Prop extends Received text s s₁ where
  host_eq : s₁.host = s.host

lemma Took.trans {text more : Text} {s s₁ s₂ : RenderState F σ τ} (h : Took text s s₁)
    (h₁ : Took more s₁ s₂) : Took (text ++ more) s s₂ where
  toReceived := h.toReceived.trans h₁.toReceived
  host_eq := h₁.host_eq.trans h.host_eq

/-- Where nothing is indented, the action writes this text or fails, and it does not fail aside. -/
structure Takes (text : Text) (act : WriteM F σ τ Unit) : Prop where
  took : ∀ s s₁, s.output.indent = [] → act s = .ok () s₁ → Took text s s₁
  exists_ok : ∀ s, s.output.indent = [] → s.output.scratch.isSome → ∃ s₁, act s = .ok () s₁

namespace Takes

variable {text more : Text} {act : WriteM F σ τ Unit}

lemma pure : Takes [] (pure () : WriteM F σ τ Unit) where
  took := by
    rintro s _ - ⟨⟩
    exact ⟨.nil rfl rfl, rfl⟩
  exists_ok s _ _ := ⟨s, rfl⟩

lemma bind {next : Unit → WriteM F σ τ Unit} (h : Takes text act)
    (hnext : ∀ u, Takes more (next u)) : Takes (text ++ more) (act >>= next) where
  took s s₂ hs hok := by
    rcases bind_eq_iff.1 hok with ⟨u, s₁, hact, hrest⟩ | ⟨e, s₁, -, h⟩
    · have htook := h.took s s₁ hs hact
      exact htook.trans ((hnext u).took s₁ s₂ (htook.indent_eq.trans hs) hrest)
    · cases h
  exists_ok s hs haside := by
    obtain ⟨s₁, hact⟩ := h.exists_ok s hs haside
    have htook := h.took s s₁ hs hact
    rw [bind_apply_of_ok hact]
    exact (hnext ()).exists_ok s₁ (htook.indent_eq.trans hs) (htook.isSome_eq ▸ haside)

lemma get_bind {next : RenderState F σ τ → WriteM F σ τ Unit}
    (h : ∀ s, s.output.indent = [] → Takes text (next s)) : Takes text (get >>= next) where
  took s s₁ hs hok := (h s hs).took s s₁ hs hok
  exists_ok s hs haside := (h s hs).exists_ok s hs haside

lemma forM {γ : Type} {step : γ → WriteM F σ τ Unit} {part : γ → Text} (xs : List γ)
    (h : ∀ x, Takes (part x) (step x)) : Takes (xs.flatMap part) (xs.forM step) := by
  induction xs with
  | nil => exact pure
  | cons x xs ih => exact (h x).bind fun _ => ih

/-- A change of the state that leaves alone what an output receives. -/
lemma modify {f : RenderState F σ τ → RenderState F σ τ} (h : ∀ s, Took [] s (f s)) :
    Takes [] (modify f : WriteM F σ τ PUnit) where
  took := by
    rintro s _ - ⟨⟩
    exact h s
  exists_ok s _ _ := ⟨f s, rfl⟩

end Takes

namespace Sink

variable (sink : Sink τ)

lemma takes_put (text : Text) : Takes text (sink.put text : WriteM F σ τ Unit) where
  took s s₁ _ hok := by
    rw [put] at hok
    cases hscratch : s.output.scratch with
    | some kept =>
      rw [hscratch] at hok
      cases hok
      refine ⟨⟨rfl, ?_, ?_⟩, rfl⟩
      · simp [hscratch]
      · simp [hscratch, RenderState.events]
    | none =>
      rw [hscratch] at hok
      cases hwrite : sink.write text.bytes s.sink with
      | mk result after =>
        rw [hwrite] at hok
        cases result with
        | error e => cases hok
        | ok _ =>
          cases hok
          refine ⟨⟨rfl, ?_, ?_⟩, rfl⟩
          · show s.output.scratch = _
            rw [hscratch]
            rfl
          · rw [RenderState.events_record, writes_append, List.flatten_append, hscratch]
            exact congrArg (_ ++ ·) (List.append_nil text)
  exists_ok s _ haside := by
    obtain ⟨kept, hkept⟩ := Option.isSome_iff_exists.1 haside
    exact ⟨_, by simp only [put, hkept]; rfl⟩

lemma takes_endText (text : Text) : Takes [] (endText text : WriteM F σ τ Unit) :=
  .modify fun s => ⟨⟨rfl, by cases s.output.scratch <;> simp,
    by simp [RenderState.events]⟩, rfl⟩

lemma takes_noteOutput : Takes [] (noteOutput : WriteM F σ τ Unit) :=
  .modify fun s => ⟨.record s rfl, rfl⟩

lemma takes_emit (text : Text) : Takes text (sink.emit text : WriteM F σ τ Unit) := by
  have h : Takes (text ++ []) (sink.emit text : WriteM F σ τ Unit) :=
    (sink.takes_put text).bind fun _ => takes_endText text
  rwa [List.append_nil] at h

lemma takes_emitEscaped (text : Text) :
    Takes (escapeHtml text) (sink.emitEscaped text : WriteM F σ τ Unit) := by
  have h : Takes ((escapedPieces text).flatMap id ++ [])
      (sink.emitEscaped text : WriteM F σ τ Unit) :=
    (Takes.forM (escapedPieces text) sink.takes_put).bind fun _ => takes_endText text
  rwa [List.flatMap_id, flatten_escapedPieces, List.append_nil] at h

lemma takes_indent : Takes [] (sink.indent : WriteM F σ τ Unit) := by
  refine .get_bind fun s hs => ?_
  dsimp only
  rw [if_neg (by simp [hs])]
  exact .pure

lemma takes_writeText (text : Text) : Takes text (sink.writeText text : WriteM F σ τ Unit) := by
  refine takes_noteOutput.bind fun _ => ?_
  split
  · next h =>
    rw [h]
    exact .pure
  · refine .get_bind fun s hs => ?_
    rw [if_pos hs]
    exact sink.takes_emit text

lemma takes_writeData (text : Text) (escaped : Bool) :
    Takes (if escaped then escapeHtml text else text)
      (sink.writeData text escaped : WriteM F σ τ Unit) := by
  refine takes_noteOutput.bind fun _ => ?_
  split
  · next h =>
    subst h
    cases escaped <;> exact .pure
  · refine sink.takes_indent.bind fun _ => ?_
    cases escaped with
    | true => exact sink.takes_emitEscaped text
    | false => exact sink.takes_emit text

end Sink

end Mustache
