import Mustache.Proofs.Rendering.Cutting
import Mustache.Proofs.Rendering.Simulation

/-!
# Literal text as a stream

Literal text may be cut anywhere. What is received of it has the indentation in front of its lines,
and the output remembers whether it stands at the start of one; so a part goes on where the part in
front of it has stopped. Two renderings that cut the same text in different places are abreast: they
stand at the same point, and the same bytes have been written.
-/

namespace Mustache

open Text

variable {F σ τ ε α β : Type}

/-! ### What is received of literal text -/

namespace Sink

variable {sink : Sink τ} (hsink : sink.TakesAll)

include hsink

/-- A text of one line, or any text where nothing is indented, is emitted in one write. -/
lemma exists_emit {text : Text} (hne : text ≠ []) (s : RenderState F σ τ) :
    ∃ s₁, sink.emit text s = .ok () s₁ ∧
      ReceivedTo text (startsLineAfter s.output.atLineStart text) s s₁ := by
  obtain ⟨s₁, hput, h₁⟩ := exists_put hsink text s
  obtain ⟨s₂, hend, h₂⟩ := exists_endText text s₁
  refine ⟨s₂, (bind_apply_of_ok hput).trans hend, ?_⟩
  rw [startsLineAfter_of_ne_nil hne]
  simpa using h₁.trans h₂

/-- Induction on the lines: each finds out from the one in front of it whether to be indented. -/
lemma exists_emitLines (lines : List Text) (h : ∀ line ∈ lines, line ≠ [] ∧ line.IsLine)
    (s : RenderState F σ τ) :
    ∃ s₁, (lines.forM fun line => do sink.indent; sink.emit line) s = .ok () s₁ ∧
      ReceivedTo (prefixLines s.output.indent s.output.atLineStart lines.flatten)
        (startsLineAfter s.output.atLineStart lines.flatten) s s₁ := by
  induction lines generalizing s with
  | nil => exact ⟨s, rfl, .nil rfl rfl, rfl⟩
  | cons line lines ih =>
    obtain ⟨hne, hline⟩ := h line List.mem_cons_self
    obtain ⟨s₁, hindent, h₁⟩ := exists_indent hsink s
    obtain ⟨s₂, hemit, h₂⟩ := exists_emit hsink hne s₁
    obtain ⟨s₃, hrest, h₃⟩ := ih (fun l hl => h l (List.mem_cons_of_mem line hl)) s₂
    rw [h₁.atLineStart_eq] at h₂
    rw [h₂.atLineStart_eq, h₂.indent_eq, h₁.indent_eq] at h₃
    refine ⟨s₃, ?_, ?_⟩
    · have hfirst : (do sink.indent; sink.emit line : WriteM F σ τ Unit) s = .ok () s₂ :=
        (bind_apply_of_ok hindent).trans hemit
      exact (bind_apply_of_ok hfirst).trans hrest
    · rw [List.flatten_cons, prefixLines_append, startsLineAfter_append,
        prefixLines_of_isLine hline hne]
      exact (h₁.trans h₂).trans h₃

/-- Literal text is received with the indentation in front of its lines, of the first one if the
output stands at its start. -/
lemma exists_writeText (text : Text) (s : RenderState F σ τ) :
    ∃ s₁, sink.writeText text s = .ok () s₁ ∧
      ReceivedTo (prefixLines s.output.indent s.output.atLineStart text)
        (startsLineAfter s.output.atLineStart text) s s₁ := by
  have hnoted : ReceivedTo [] s.output.atLineStart s (s.record (.writing s.output)) :=
    .record s rfl
  show ∃ s₁, (if text = [] then pure () else get >>= fun now : RenderState F σ τ =>
    if now.output.indent = [] then sink.emit text
    else text.lines.forM fun line => do sink.indent; sink.emit line)
      (s.record (.writing s.output)) = _ ∧ _
  by_cases hnil : text = []
  · subst hnil
    exact ⟨_, rfl, hnoted⟩
  · rw [if_neg hnil]
    show ∃ s₁, (if s.output.indent = [] then sink.emit text else _)
      (s.record (.writing s.output)) = _ ∧ _
    by_cases hindent : s.output.indent = []
    · obtain ⟨s₁, hemit, h₁⟩ := exists_emit hsink hnil (s.record (.writing s.output))
      rw [if_pos hindent, hindent, nil_prefixLines]
      exact ⟨s₁, hemit, hnoted.trans h₁⟩
    · obtain ⟨s₁, hlines, h₁⟩ := exists_emitLines hsink text.lines
        (fun _ => isLine_of_mem_lines) (s.record (.writing s.output))
      rw [flatten_lines] at h₁
      rw [if_neg hindent]
      exact ⟨s₁, hlines, hnoted.trans h₁⟩

/-- Texts written one after the other are received as one. -/
lemma exists_forM_writeText (texts : List Text) (s : RenderState F σ τ) :
    ∃ s₁, texts.forM sink.writeText s = .ok () s₁ ∧
      ReceivedTo (prefixLines s.output.indent s.output.atLineStart texts.flatten)
        (startsLineAfter s.output.atLineStart texts.flatten) s s₁ := by
  induction texts generalizing s with
  | nil => exact ⟨s, rfl, .nil rfl rfl, rfl⟩
  | cons text texts ih =>
    obtain ⟨s₁, hwrite, h₁⟩ := exists_writeText hsink text s
    obtain ⟨s₂, hrest, h₂⟩ := ih s₁
    rw [h₁.indent_eq, h₁.atLineStart_eq] at h₂
    refine ⟨s₂, (bind_apply_of_ok hwrite).trans hrest, ?_⟩
    rw [List.flatten_cons, prefixLines_append, startsLineAfter_append]
    exact h₁.trans h₂

end Sink

/-! ### Renderings abreast -/

/-- Two renderings stand at the same point and have had the same written, perhaps cut in different
places. -/
structure Abreast (s s' : RenderState F σ τ) : Prop
    extends InStep (· = ·) (fun _ _ => True) s s' where
  writes_eq : (writes s'.events).flatten = (writes s.events).flatten

/-- Two actions have ended alike, with renderings that are abreast. -/
inductive EndAbreast : EStateM.Result ε (RenderState F σ τ) α →
    EStateM.Result ε (RenderState F σ τ) α → Prop
  | ok {a : α} {s s' : RenderState F σ τ} (h : Abreast s s') : EndAbreast (.ok a s) (.ok a s')
  | error {e : ε} {s s' : RenderState F σ τ} (h : Abreast s s') :
      EndAbreast (.error e s) (.error e s')

/-- Begun abreast, the two actions end so. -/
def RunAbreast (act act' : EStateM ε (RenderState F σ τ) α) : Prop :=
  ∀ s s', Abreast s s' → EndAbreast (act s) (act' s')

/-- Outputs that stood at the same point and have received the same do so again. -/
lemma ReceivedTo.output_eq {s s' s₁ s₁' : RenderState F σ τ} {text : Text} {starts : Bool}
    (h : ReceivedTo text starts s s₁) (h' : ReceivedTo text starts s' s₁')
    (hs : s.output = s'.output) : s₁.output = s₁'.output := by
  have hindent := h.indent_eq.trans ((congrArg Output.indent hs).trans h'.indent_eq.symm)
  have hstarts := h.atLineStart_eq.trans h'.atLineStart_eq.symm
  have hscratch : s₁.output.scratch = s₁'.output.scratch := by
    rw [h.scratch_eq, h'.scratch_eq, hs]
  exact (Output.mk.injEq ..).mpr ⟨hindent, hstarts, hscratch⟩

/-- Two texts of which the same is received leave two outputs that are abreast so. -/
lemma Abreast.received {s s' s₁ s₁' : RenderState F σ τ} {text : Text} {starts : Bool}
    (h : Abreast s s') (h₁ : ReceivedTo text starts s s₁) (h₁' : ReceivedTo text starts s' s₁')
    (hhost : s₁.host = s.host) (hhost' : s₁'.host = s'.host)
    (hvalid : ∀ kept, s₁.output.scratch = some kept → kept.IsValidUTF8) : Abreast s₁ s₁' where
  host := by rw [hhost, hhost', h.host]
  sink := trivial
  output_eq := h₁'.output_eq h₁ h.output_eq
  isValid := hvalid
  writes_eq := by rw [h₁'.writes_eq, h₁.writes_eq, h.writes_eq, h.output_eq]

namespace RunAbreast

variable {act act' : EStateM ε (RenderState F σ τ) α}

/-- Renderings that go through the same steps stay abreast. -/
lemma of_runInStep (h : RunInStep (· = ·) (fun _ _ => True) act act') : RunAbreast act act' := by
  intro s s' hs
  have habreast {s₁ s₁' : RenderState F σ τ}
      (h₁ : Advanced (· = ·) (fun _ _ => True) s s' s₁ s₁') : Abreast s₁ s₁' := by
    obtain ⟨hstep, -, new, hnew, hnew'⟩ := h₁
    refine ⟨hstep, ?_⟩
    have hwrites := hs.writes_eq
    simp only [RenderState.events, hnew, hnew', List.reverse_append, writes_append,
      List.flatten_append] at hwrites ⊢
    rw [hwrites]
  have hend := h s s' hs.toInStep
  generalize act s = one, act' s' = other at hend
  cases hend with
  | ok h₁ => exact .ok (habreast h₁)
  | error h₁ => exact .error (habreast h₁)

lemma pure (a : α) : RunAbreast (pure a : EStateM ε (RenderState F σ τ) α) (pure a) := by
  intro s s' hs
  exact .ok hs

lemma bind {next next' : α → EStateM ε (RenderState F σ τ) β} (h : RunAbreast act act')
    (hnext : ∀ a s s₁, act s = .ok a s₁ → RunAbreast (next a) (next' a)) :
    RunAbreast (act >>= next) (act' >>= next') := by
  intro s s' hs
  have hact := h s s' hs
  generalize hone : act s = one, hother : act' s' = other at hact
  cases hact with
  | ok h₁ =>
    rw [bind_apply_of_ok hone, bind_apply_of_ok hother]
    exact hnext _ _ _ hone _ _ h₁
  | error h₁ =>
    rw [bind_apply_of_error hone, bind_apply_of_error hother]
    exact .error h₁

/-- The states may be read first. -/
lemma get_bind {next next' : RenderState F σ τ → EStateM ε (RenderState F σ τ) α}
    (h : ∀ s s', Abreast s s' → RunAbreast (next s) (next' s')) :
    RunAbreast (get >>= next) (get >>= next') := fun s s' hs => h s s' hs s s' hs

lemma bracket {enter : RenderState F σ τ → RenderState F σ τ} {value : α → RenderState F σ τ → β}
    {leave : RenderState F σ τ → RenderState F σ τ → RenderState F σ τ} (h : RunAbreast act act')
    (henter : ∀ s s', Abreast s s' → Abreast (enter s) (enter s'))
    (hvalue : ∀ a s s', Abreast s s' → value a s' = value a s)
    (hleave : ∀ s s' s₁ s₁', Abreast s s' → Abreast s₁ s₁' → Abreast (leave s s₁) (leave s' s₁')) :
    RunAbreast (bracket enter value leave act) (bracket enter value leave act') := by
  intro s s' hs
  have hact := h _ _ (henter s s' hs)
  rw [Mustache.bracket, Mustache.bracket]
  generalize act (enter s) = one, act' (enter s') = other at hact
  cases hact with
  | ok h₁ =>
    simp only
    rw [hvalue _ _ _ h₁]
    exact .ok (hleave _ _ _ _ hs h₁)
  | error h₁ => exact .error (hleave _ _ _ _ hs h₁)

end RunAbreast

lemma Abreast.record {s s' : RenderState F σ τ} (h : Abreast s s') {e : Event F}
    (he : e.written? = none) : Abreast (s.record e) (s'.record e) where
  toInStep := h.toInStep.record e
  writes_eq := by rw [RenderState.writes_record _ he, RenderState.writes_record _ he, h.writes_eq]

namespace Sink

/-- A sink that neither refuses a write nor fails to be flushed takes the same of whatever it is
given, whatever it was given before. -/
lemma TakesAll.matches {sink : Sink τ} (h : sink.TakesAll)
    (hflush : ∀ taken, (sink.flush taken).1 = .ok ()) : sink.Matches sink fun _ _ => True where
  write _ _ := ⟨(h _ _).trans (h _ _).symm, trivial⟩
  flush _ := ⟨(hflush _).trans (hflush _).symm, trivial⟩

/-- However a text is cut, the two renderings stay abreast. -/
lemma runAbreast_writeTexts {sink : Sink τ} (hsink : sink.TakesAll) {texts texts' : List Text}
    (h : texts'.flatten = texts.flatten) :
    RunAbreast (texts.forM sink.writeText : WriteM F σ τ Unit) (texts'.forM sink.writeText) := by
  -- Writing asks the host for nothing, so it keeps any relation of its states.
  have hinStep (texts : List Text) {s s₁ : RenderState F σ τ}
      (hs : ∀ kept, s.output.scratch = some kept → kept.IsValidUTF8)
      (hact : texts.forM sink.writeText s = .ok () s₁) :
      InStep (fun host _ => host = s.host) (· = ·) s₁ s₁ := by
    have hrun := RunInStep.forM texts (runInStep_writeText (R := fun host _ => host = s.host)
      sink.matches_self) s s ⟨rfl, rfl, rfl, hs⟩
    rw [hact] at hrun
    exact hrun.advanced.inStep
  intro s s' hs
  obtain ⟨s₁, hact, h₁⟩ := exists_forM_writeText hsink texts s
  obtain ⟨s₁', hact', h₁'⟩ := exists_forM_writeText hsink texts' s'
  have hstep := hinStep texts hs.isValid hact
  have hstep' := hinStep texts' (by rw [hs.output_eq]; exact hs.isValid) hact'
  rw [hact, hact']
  rw [h, hs.output_eq] at h₁'
  exact .ok (hs.received h₁ h₁' hstep.host hstep'.host hstep.isValid)

end Sink

namespace RunAbreast

lemma composes : ActionRel.Composes fun α (act act' : RenderM F σ τ α) => RunAbreast act act' where
  pure := pure
  bind h hnext := h.bind fun a _ _ _ => hnext a

lemma forM_append {γ : Type} {step step' : γ → RenderM F σ τ PUnit} {xs xs' ys ys' : List γ}
    (h : RunAbreast (xs.forM step) (xs'.forM step'))
    (hrest : RunAbreast (ys.forM step) (ys'.forM step')) :
    RunAbreast ((xs ++ ys).forM step) ((xs' ++ ys').forM step') := by
  rw [List.forM_eq_forM] at h hrest ⊢
  rw [List.forM_append, List.forM_append]
  exact h.bind fun _ _ _ _ => hrest

lemma record {e : Event F} (he : e.written? = none) :
    RunAbreast (RenderM.record e : RenderM F σ τ Unit) (RenderM.record e) := by
  intro s s' hs
  exact .ok (hs.record he)

lemma fail (e : RenderError) : RunAbreast (RenderM.fail e : RenderM F σ τ α) (RenderM.fail e) := by
  intro s s' hs
  exact .error hs

lemma ofWrite {act act' : WriteM F σ τ α} (h : RunAbreast act act') :
    RunAbreast (RenderM.ofWrite act) (RenderM.ofWrite act') := by
  intro s s' hs
  have hact := h s s' hs
  generalize hone : act s = one, hother : act' s' = other at hact
  cases hact with
  | ok h₁ =>
    rw [RenderM.ofWrite_of_ok hone, RenderM.ofWrite_of_ok hother]
    exact .ok h₁
  | error h₁ =>
    rw [RenderM.ofWrite_of_error hone, RenderM.ofWrite_of_error hother]
    exact .error h₁

lemma enclosed {act act' : RenderM F σ τ Unit} (h : RunAbreast act act') (name indent : Text) :
    RunAbreast (Renderer.enclosed name indent act) (Renderer.enclosed name indent act') := by
  rw [Renderer.enclosed_eq_bracket, Renderer.enclosed_eq_bracket]
  apply h.bracket
  · exact fun s s' hs => hs.record rfl
  · exact fun _ _ _ _ => rfl
  · exact fun _ _ s₁ s₁' _ h₁ => h₁.record rfl

lemma indented {act act' : RenderM F σ τ Unit} (h : RunAbreast act act') (indent : Text) :
    RunAbreast (Renderer.indented indent act) (Renderer.indented indent act') := by
  rw [Renderer.indented_eq_bracket, Renderer.indented_eq_bracket]
  apply h.bracket
  · intro s s' hs
    exact ⟨⟨hs.host, hs.sink, by rw [hs.output_eq], hs.isValid⟩, hs.writes_eq⟩
  · exact fun _ _ _ _ => rfl
  · intro s s' s₁ s₁' hs h₁
    exact ⟨⟨h₁.host, h₁.sink, by rw [h₁.output_eq, hs.output_eq], h₁.isValid⟩, h₁.writes_eq⟩

lemma onAside {act act' : RenderM F σ τ Unit} (h : RunAbreast act act') :
    RunAbreast (Renderer.onAside act) (Renderer.onAside act') := by
  rw [Renderer.onAside_eq_bracket, Renderer.onAside_eq_bracket]
  apply h.bracket
  · intro s s' hs
    refine ⟨⟨hs.host, hs.sink, rfl, ?_⟩, hs.writes_eq⟩
    rintro _ ⟨⟩
    exact ByteArray.isValidUTF8_empty
  · intro _ s s' hs
    rw [hs.output_eq]
  · intro s s' s₁ s₁' hs h₁
    exact ⟨⟨h₁.host, h₁.sink, hs.output_eq, hs.isValid⟩, h₁.writes_eq⟩

end RunAbreast

end Mustache
