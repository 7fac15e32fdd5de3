import Mustache.Proofs.Rendering.FirstFailure
import Mustache.Proofs.Text.Bytes

/-!
# Renderings in step

Two renderings go through the same steps if in both of them the host gives the same answers and the
sink takes the same writes. What hosts and sinks remember may differ: it stays related, as long as
each answer and each write keeps the relation. Only writes of valid UTF-8 need to keep it, as there
are no others; nor do other bytes ever stand in what is written aside.
-/

namespace Mustache

variable {F σ τ τ' ε α β : Type}

/-! ### Hosts that answer alike -/

/-- The same requests to write a value, and the same answer, with related states. -/
inductive Interpolation.Alike (R : σ → σ → Prop) : Interpolation σ → Interpolation σ → Prop
  | answer (result : HostResult) {host host' : σ} (h : R host host') :
      Alike R (.answer result host) (.answer result host')
  | write (raw : Bool) (text : Text) {next next' : Except SinkErrorKind Unit → Interpolation σ}
      (h : ∀ heard, Alike R (next heard) (next' heard)) :
      Alike R (.write raw text next) (.write raw text next')
  | remark (remark : Remark) {next next' : Interpolation σ} (h : Alike R next next') :
      Alike R (.remark remark next) (.remark remark next')

/-- The same requests to expand a lambda, and the same answer, with related states. -/
inductive Expansion.Alike (R : σ → σ → Prop) : Expansion σ → Expansion σ → Prop
  | answer (result : HostResult) {host host' : σ} (h : R host host') :
      Alike R (.answer result host) (.answer result host')
  | write (text : Text) {next next' : Bool → Expansion σ}
      (h : ∀ heard, Alike R (next heard) (next' heard)) :
      Alike R (.write text next) (.write text next')
  | render (text : Text) {host host' : σ} {next next' : Bool → σ → Expansion σ}
      (hhost : R host host')
      (h : ∀ heard after after', R after after' → Alike R (next heard after) (next' heard after')) :
      Alike R (.render text host next) (.render text host' next')
  | remark (remark : Remark) {next next' : Expansion σ} (h : Alike R next next') :
      Alike R (.remark remark next) (.remark remark next')

/-- In related states the host answers alike, and the states stay related. -/
structure Host.Respects (host : Host F σ) (R : σ → σ → Prop) : Prop where
  get : ∀ frame path index {s s'}, R s s' →
    (host.get frame path index s').1 = (host.get frame path index s).1 ∧
      R (host.get frame path index s).2 (host.get frame path index s').2
  interpolate : ∀ frame path escaped {s s'}, R s s' →
    (host.interpolate frame path escaped s).Alike R (host.interpolate frame path escaped s')
  expand : ∀ frame path view {s s'}, R s s' →
    (host.expand frame path view s).Alike R (host.expand frame path view s')

lemma Interpolation.alike_self (call : Interpolation σ) : call.Alike (· = ·) call := by
  induction call with
  | answer result host => exact .answer result rfl
  | write raw text next ih => exact .write raw text ih
  | remark remark next ih => exact .remark remark ih

lemma Expansion.alike_self (call : Expansion σ) : call.Alike (· = ·) call := by
  induction call with
  | answer result host => exact .answer result rfl
  | write text next ih => exact .write text ih
  | render text host next ih =>
    refine .render text rfl ?_
    rintro heard after _ rfl
    exact ih heard after
  | remark remark next ih => exact .remark remark ih

/-- In the same state every host answers alike. -/
lemma Host.respects_eq (host : Host F σ) : host.Respects (· = ·) where
  get _ _ _ _ _ h := by
    subst h
    exact ⟨rfl, rfl⟩
  interpolate _ _ _ _ _ h := by
    subst h
    exact Interpolation.alike_self _
  expand _ _ _ _ _ h := by
    subst h
    exact Expansion.alike_self _

/-! ### Sinks that take the same -/

/-- In related states the sinks take and refuse the same writes of valid UTF-8, with the same
errors, and the states stay related. -/
structure Sink.Matches (sink : Sink τ) (sink' : Sink τ') (Q : τ → τ' → Prop) : Prop where
  write : ∀ {bytes kept kept'}, bytes.IsValidUTF8 → Q kept kept' →
    (sink'.write bytes kept').1 = (sink.write bytes kept).1 ∧
      Q (sink.write bytes kept).2 (sink'.write bytes kept').2
  flush : ∀ {kept kept'}, Q kept kept' →
    (sink'.flush kept').1 = (sink.flush kept).1 ∧ Q (sink.flush kept).2 (sink'.flush kept').2

lemma Sink.matches_self (sink : Sink τ) : sink.Matches sink (· = ·) where
  write := by
    rintro bytes kept _ - rfl
    exact ⟨rfl, rfl⟩
  flush := by
    rintro kept _ rfl
    exact ⟨rfl, rfl⟩

lemma Text.isValidUTF8_bytes (text : Text) : text.bytes.IsValidUTF8 :=
  (String.ofList text).isValidUTF8

/-! ### States in step -/

variable {R : σ → σ → Prop} {Q : τ → τ' → Prop}

/-- Two renderings stand at the same point, and what they have written aside is valid UTF-8. -/
structure InStep (R : σ → σ → Prop) (Q : τ → τ' → Prop) (s : RenderState F σ τ)
    (s' : RenderState F σ τ') : Prop where
  host : R s.host s'.host
  sink : Q s.sink s'.sink
  output_eq : s'.output = s.output
  isValid : ∀ kept, s.output.scratch = some kept → kept.IsValidUTF8

/-- From two states two renderings have come to two others by the same steps. -/
structure Advanced (R : σ → σ → Prop) (Q : τ → τ' → Prop) (s : RenderState F σ τ)
    (s' : RenderState F σ τ') (s₁ : RenderState F σ τ) (s₁' : RenderState F σ τ') : Prop where
  inStep : InStep R Q s₁ s₁'
  isSome_eq : s₁.output.scratch.isSome = s.output.scratch.isSome
  exists_history_eq : ∃ new, s₁.history = new ++ s.history ∧ s₁'.history = new ++ s'.history

section

variable {s s₁ s₂ : RenderState F σ τ} {s' s₁' s₂' : RenderState F σ τ'}

lemma InStep.record (h : InStep R Q s s') (e : Event F) : InStep R Q (s.record e) (s'.record e) :=
  ⟨h.host, h.sink, h.output_eq, h.isValid⟩

namespace Advanced

lemma of_history_eq (h : InStep R Q s₁ s₁')
    (hsome : s₁.output.scratch.isSome = s.output.scratch.isSome) (hs : s₁.history = s.history)
    (hs' : s₁'.history = s'.history) : Advanced R Q s s' s₁ s₁' := ⟨h, hsome, [], hs, hs'⟩

lemma refl (h : InStep R Q s s') : Advanced R Q s s' s s' := of_history_eq h rfl rfl rfl

lemma record (h : InStep R Q s s') (e : Event F) :
    Advanced R Q s s' (s.record e) (s'.record e) := ⟨h.record e, rfl, [e], rfl, rfl⟩

lemma trans (h : Advanced R Q s s' s₁ s₁') (h₁ : Advanced R Q s₁ s₁' s₂ s₂') :
    Advanced R Q s s' s₂ s₂' := by
  obtain ⟨-, hsome, new, hnew, hnew'⟩ := h
  obtain ⟨hstep, hsome₁, more, hmore, hmore'⟩ := h₁
  refine ⟨hstep, hsome₁.trans hsome, more ++ new, ?_, ?_⟩
  · rw [hmore, hnew, List.append_assoc]
  · rw [hmore', hnew', List.append_assoc]

end Advanced

end

/-- Two actions have ended alike. -/
inductive EndInStep (R : σ → σ → Prop) (Q : τ → τ' → Prop) (s : RenderState F σ τ)
    (s' : RenderState F σ τ') :
    EStateM.Result ε (RenderState F σ τ) α → EStateM.Result ε (RenderState F σ τ') α → Prop
  | ok {a : α} {s₁ : RenderState F σ τ} {s₁' : RenderState F σ τ'}
      (h : Advanced R Q s s' s₁ s₁') : EndInStep R Q s s' (.ok a s₁) (.ok a s₁')
  | error {e : ε} {s₁ : RenderState F σ τ} {s₁' : RenderState F σ τ'}
      (h : Advanced R Q s s' s₁ s₁') : EndInStep R Q s s' (.error e s₁) (.error e s₁')

section

variable {s s₁ : RenderState F σ τ} {s' s₁' : RenderState F σ τ'}
  {one : EStateM.Result ε (RenderState F σ τ) α} {other : EStateM.Result ε (RenderState F σ τ') α}

lemma EndInStep.after (h : Advanced R Q s s' s₁ s₁') (hlater : EndInStep R Q s₁ s₁' one other) :
    EndInStep R Q s s' one other := by
  cases hlater with
  | ok h₁ => exact .ok (h.trans h₁)
  | error h₁ => exact .error (h.trans h₁)

lemma EndInStep.outcome_eq (h : EndInStep R Q s s' one other) : outcome other = outcome one := by
  cases h <;> rfl

lemma EndInStep.advanced (h : EndInStep R Q s s' one other) :
    Advanced R Q s s' (reached one) (reached other) := by
  cases h with
  | ok h => exact h
  | error h => exact h

end

/-- Begun in step, the two actions end alike. -/
def RunInStep (R : σ → σ → Prop) (Q : τ → τ' → Prop) (act : EStateM ε (RenderState F σ τ) α)
    (act' : EStateM ε (RenderState F σ τ') α) : Prop :=
  ∀ s s', InStep R Q s s' → EndInStep R Q s s' (act s) (act' s')

namespace RunInStep

variable {act : EStateM ε (RenderState F σ τ) α} {act' : EStateM ε (RenderState F σ τ') α}

lemma pure (a : α) : RunInStep R Q (pure a : EStateM ε (RenderState F σ τ) α)
    (pure a : EStateM ε (RenderState F σ τ') α) := by
  intro s s' hs
  exact .ok (.refl hs)

lemma throw (e : ε) : RunInStep R Q (throw e : EStateM ε (RenderState F σ τ) α)
    (throw e : EStateM ε (RenderState F σ τ') α) := by
  intro s s' hs
  exact .error (.refl hs)

lemma bind {next : α → EStateM ε (RenderState F σ τ) β}
    {next' : α → EStateM ε (RenderState F σ τ') β}
    (h : RunInStep R Q act act') (hnext : ∀ a, RunInStep R Q (next a) (next' a)) :
    RunInStep R Q (act >>= next) (act' >>= next') := by
  intro s s' hs
  have hact := h s s' hs
  generalize hone : act s = one, hother : act' s' = other at hact
  cases hact with
  | ok h₁ =>
    rw [bind_apply_of_ok hone, bind_apply_of_ok hother]
    exact .after h₁ (hnext _ _ _ h₁.inStep)
  | error h₁ =>
    rw [bind_apply_of_error hone, bind_apply_of_error hother]
    exact .error h₁

lemma composes : ActionRel.Composes fun α (act : RenderM F σ τ α) (act' : RenderM F σ τ' α) =>
    RunInStep R Q act act' where
  pure := pure
  bind := bind

lemma forM {γ : Type} {step : γ → EStateM ε (RenderState F σ τ) PUnit}
    {step' : γ → EStateM ε (RenderState F σ τ') PUnit} (xs : List γ)
    (h : ∀ x, RunInStep R Q (step x) (step' x)) :
    RunInStep R Q (xs.forM step) (xs.forM step') := by
  induction xs with
  | nil => exact pure _
  | cons x xs ih => exact (h x).bind fun _ => ih

lemma modify {f : RenderState F σ τ → RenderState F σ τ}
    {f' : RenderState F σ τ' → RenderState F σ τ'}
    (h : ∀ s s', InStep R Q s s' → Advanced R Q s s' (f s) (f' s')) :
    RunInStep R Q (modify f : EStateM ε (RenderState F σ τ) PUnit)
      (modify f' : EStateM ε (RenderState F σ τ') PUnit) := by
  intro s s' hs
  exact .ok (h s s' hs)

lemma record (e : Event F) : RunInStep R Q (RenderM.record e : RenderM F σ τ Unit)
    (RenderM.record e : RenderM F σ τ' Unit) := modify fun _ _ hs => .record hs e

lemma ofWrite {act : WriteM F σ τ α} {act' : WriteM F σ τ' α} (h : RunInStep R Q act act') :
    RunInStep R Q (RenderM.ofWrite act) (RenderM.ofWrite act') := by
  intro s s' hs
  have hact := h s s' hs
  generalize hone : act s = one, hother : act' s' = other at hact
  cases hact with
  | ok h₁ =>
    rw [RenderM.ofWrite_of_ok hone, RenderM.ofWrite_of_ok hother]
    exact .ok h₁
  | error h₁ =>
    rw [RenderM.ofWrite_of_error hone, RenderM.ofWrite_of_error hother]
    exact .error h₁

lemma bracket {enter : RenderState F σ τ → RenderState F σ τ}
    {enter' : RenderState F σ τ' → RenderState F σ τ'} {value : α → RenderState F σ τ → β}
    {value' : α → RenderState F σ τ' → β}
    {leave : RenderState F σ τ → RenderState F σ τ → RenderState F σ τ}
    {leave' : RenderState F σ τ' → RenderState F σ τ' → RenderState F σ τ'}
    (h : RunInStep R Q act act')
    (henter : ∀ s s', InStep R Q s s' → InStep R Q (enter s) (enter' s'))
    (hvalue : ∀ a s₁ s₁', InStep R Q s₁ s₁' → value' a s₁' = value a s₁)
    (hleave : ∀ s s' s₁ s₁', InStep R Q s s' → Advanced R Q (enter s) (enter' s') s₁ s₁' →
      Advanced R Q s s' (leave s s₁) (leave' s' s₁')) :
    RunInStep R Q (bracket enter value leave act) (bracket enter' value' leave' act') := by
  intro s s' hs
  have hact := h _ _ (henter s s' hs)
  rw [Mustache.bracket, Mustache.bracket]
  generalize act (enter s) = one, act' (enter' s') = other at hact
  cases hact with
  | ok h₁ =>
    simp only
    rw [hvalue _ _ _ h₁.inStep]
    exact .ok (hleave _ _ _ _ hs h₁)
  | error h₁ => exact .error (hleave _ _ _ _ hs h₁)

end RunInStep

/-! ### Writing -/

namespace Sink

variable {sink : Sink τ} {sink' : Sink τ'} (hsink : sink.Matches sink' Q)

lemma runInStep_endText (text : Text) :
    RunInStep R Q (endText text : WriteM F σ τ Unit) (endText text : WriteM F σ τ' Unit) :=
  .modify fun s s' hs => .of_history_eq
    ⟨hs.host, hs.sink, by rw [hs.output_eq], hs.isValid⟩ rfl rfl rfl

lemma runInStep_noteOutput :
    RunInStep R Q (noteOutput : WriteM F σ τ Unit) (noteOutput : WriteM F σ τ' Unit) := by
  refine .modify fun s s' hs => ?_
  rw [hs.output_eq]
  exact .record hs _

include hsink

/-- The one point at which bytes are written. -/
lemma runInStep_put (text : Text) :
    RunInStep R Q (sink.put text : WriteM F σ τ Unit) (sink'.put text : WriteM F σ τ' Unit) := by
  intro s s' hs
  rw [put, put, hs.output_eq]
  cases hscratch : s.output.scratch with
  | some kept =>
    refine .ok (.of_history_eq ⟨hs.host, hs.sink, rfl, ?_⟩ ?_ rfl rfl)
    · rintro _ ⟨⟩
      exact (hs.isValid kept hscratch).append text.isValidUTF8_bytes
    · rw [hscratch]
      rfl
  | none =>
    obtain ⟨hresult, hafter⟩ := hsink.write text.isValidUTF8_bytes hs.sink
    simp only
    generalize sink.write text.bytes s.sink = one, sink'.write text.bytes s'.sink = other at *
    obtain ⟨result, after⟩ := one
    obtain ⟨result', after'⟩ := other
    obtain rfl : result = result' := hresult.symm
    have hstep : InStep R Q { s with sink := after }
        { s' with sink := after', output := s.output } := ⟨hs.host, hafter, rfl, hs.isValid⟩
    cases result with
    | ok _ => exact .ok (.trans (.of_history_eq hstep rfl rfl rfl) (.record hstep _))
    | error e => exact .error (.trans (.of_history_eq hstep rfl rfl rfl) (.record hstep _))

lemma runInStep_emit (text : Text) :
    RunInStep R Q (sink.emit text : WriteM F σ τ Unit) (sink'.emit text : WriteM F σ τ' Unit) :=
  (runInStep_put hsink text).bind fun _ => runInStep_endText text

lemma runInStep_emitEscaped (text : Text) :
    RunInStep R Q (sink.emitEscaped text : WriteM F σ τ Unit)
      (sink'.emitEscaped text : WriteM F σ τ' Unit) :=
  (RunInStep.forM _ (runInStep_put hsink)).bind fun _ => runInStep_endText text

lemma runInStep_indent :
    RunInStep R Q (sink.indent : WriteM F σ τ Unit) (sink'.indent : WriteM F σ τ' Unit) := by
  intro s s' hs
  show EndInStep R Q s s'
    ((if s.output.atLineStart && s.output.indent ≠ [] then sink.put s.output.indent else pure ()) s)
    ((if s'.output.atLineStart && s'.output.indent ≠ [] then sink'.put s'.output.indent
      else pure ()) s')
  rw [hs.output_eq]
  split
  · exact runInStep_put hsink _ s s' hs
  · exact RunInStep.pure () s s' hs

lemma runInStep_writeText (text : Text) :
    RunInStep R Q (sink.writeText text : WriteM F σ τ Unit)
      (sink'.writeText text : WriteM F σ τ' Unit) := by
  refine runInStep_noteOutput.bind fun _ => ?_
  split
  · exact .pure ()
  · intro s s' hs
    show EndInStep R Q s s'
      ((if s.output.indent = [] then sink.emit text
        else text.lines.forM fun line => sink.indent >>= fun _ => sink.emit line) s)
      ((if s'.output.indent = [] then sink'.emit text
        else text.lines.forM fun line => sink'.indent >>= fun _ => sink'.emit line) s')
    rw [hs.output_eq]
    split
    · exact runInStep_emit hsink text s s' hs
    · have hline (line : Text) := (runInStep_indent (F := F) (R := R) hsink).bind fun _ =>
        runInStep_emit hsink line
      exact RunInStep.forM _ hline s s' hs

lemma runInStep_writeData (text : Text) (escaped : Bool) :
    RunInStep R Q (sink.writeData text escaped : WriteM F σ τ Unit)
      (sink'.writeData text escaped : WriteM F σ τ' Unit) := by
  refine runInStep_noteOutput.bind fun _ => ?_
  split
  · exact .pure ()
  · refine (runInStep_indent hsink).bind fun _ => ?_
    cases escaped with
    | true => exact runInStep_emitEscaped hsink text
    | false => exact runInStep_emit hsink text

lemma runInStep_finish :
    RunInStep R Q (sink.finish : WriteM F σ τ Unit) (sink'.finish : WriteM F σ τ' Unit) := by
  intro s s' hs
  rw [finish, finish]
  obtain ⟨hresult, hafter⟩ := hsink.flush hs.sink
  generalize sink.flush s.sink = one, sink'.flush s'.sink = other at *
  obtain ⟨result, after⟩ := one
  obtain ⟨result', after'⟩ := other
  obtain rfl : result = result' := hresult.symm
  have hstep : InStep R Q { s with sink := after } { s' with sink := after' } :=
    ⟨hs.host, hafter, hs.output_eq, hs.isValid⟩
  cases result with
  | ok _ => exact .ok (.trans (.of_history_eq hstep rfl rfl rfl) (.record hstep _))
  | error e => exact .error (.trans (.of_history_eq hstep rfl rfl rfl) (.record hstep _))

end Sink

/-! ### Asking the host -/

lemma runInStep_settle {report : ε → RenderError} {path : Path} {done : HostResult → Event F}
    {next : Resolution → RenderM F σ τ α} {next' : Resolution → RenderM F σ τ' α}
    (hnext : ∀ answer, RunInStep R Q (next answer) (next' answer))
    (answer : Option ε × HostResult) :
    RunInStep R Q (settle report path done next answer) (settle report path done next' answer) := by
  refine (RunInStep.record (done answer.2)).bind fun _ => ?_
  rcases answer with ⟨_ | e, _ | a⟩
  · exact .throw _
  · exact hnext a
  · exact .throw _
  · exact .throw _

/-- The two renderers ask hosts that answer alike, write to sinks that take the same, and have the
same partials; whether they ask for sizes does not matter. -/
structure Renderer.InStep (R : σ → σ → Prop) (Q : τ → τ' → Prop) (r : Renderer F σ τ)
    (r' : Renderer F σ τ') : Prop where
  host_eq : r'.host = r.host
  respects : r.host.Respects R
  sink : r.sink.Matches r'.sink Q
  escaping_eq : r'.options.escaping = r.options.escaping
  maxDepth_eq : r'.options.maxDepth = r.options.maxDepth
  partials_eq : r'.partials = r.partials

namespace Renderer

variable {r : Renderer F σ τ} {r' : Renderer F σ τ'} (h : InStep R Q r r')

include h

lemma runInStep_lookUp (frame : F) (path : Path) (index : Nat) :
    RunInStep R Q (r.lookUp frame path index) (r'.lookUp frame path index) := by
  intro s s' hs
  obtain ⟨hanswer, hafter⟩ := h.respects.get frame path index hs.host
  rw [lookUp, lookUp, h.host_eq]
  simp only [hanswer]
  have hstep : Mustache.InStep R Q { s with host := (r.host.get frame path index s.host).2 }
      { s' with host := (r.host.get frame path index s'.host).2 } :=
    ⟨hafter, hs.sink, hs.output_eq, hs.isValid⟩
  exact .ok (.trans (.of_history_eq hstep rfl rfl rfl) (.record hstep _))

lemma runInStep_serve (escaped : Bool) (failure : Option SinkError) {call call' : Interpolation σ}
    (hcall : call.Alike R call') :
    RunInStep R Q (r.serve escaped failure call) (r'.serve escaped failure call') := by
  induction hcall generalizing failure with
  | answer result hhost =>
    intro s s' hs
    exact .ok (.of_history_eq ⟨hhost, hs.sink, hs.output_eq, hs.isValid⟩ rfl rfl rfl)
  | remark remark _ ih =>
    intro s s' hs
    exact .after (.record hs _) (ih failure _ _ (hs.record _))
  | write raw text _ ih =>
    intro s s' hs
    cases failure with
    | some e => exact ih (.error e.kind) (some e) s s' hs
    | none =>
      have hwrite := Sink.runInStep_writeData h.sink text (escaped && !raw) s s' hs
      generalize hone : r.sink.writeData text (escaped && !raw) s = one,
        hother : r'.sink.writeData text (escaped && !raw) s' = other at hwrite
      cases hwrite with
      | ok h₁ =>
        rw [r.serve_write_of_ok hone, r'.serve_write_of_ok hother]
        exact .after h₁ (ih (.ok ()) none _ _ h₁.inStep)
      | error h₁ =>
        rw [r.serve_write_of_error hone, r'.serve_write_of_error hother]
        exact .after h₁ (ih _ (some _) _ _ h₁.inStep)

lemma runInStep_interpolate (frame : F) (path : Path) (escaped : Bool) :
    RunInStep R Q (r.interpolate frame path escaped) (r'.interpolate frame path escaped) := by
  rw [interpolate_eq_settle, interpolate_eq_settle, h.host_eq]
  intro s s' hs
  have hcall := h.respects.interpolate frame path escaped hs.host
  exact (runInStep_serve h escaped none hcall).bind (runInStep_settle RunInStep.pure) s s' hs

lemma relates_runInStep : Relates (fun _ => RunInStep R Q) r r' where
  toComposes := RunInStep.composes
  escaping_eq := h.escaping_eq
  unfinished := .throw _
  lookUp_bind := RunInStep.composes.keptByLookUp r r' (fun _ _ => .throw _) (runInStep_lookUp h)
  interpolate := runInStep_interpolate h
  writeText _ := .ofWrite (Sink.runInStep_writeText h.sink _)

/-! ### Nested renderings -/

lemma runInStep_checkDepth (depth : Nat) (name : Text) :
    RunInStep R Q (r.checkDepth depth name) (r'.checkDepth depth name) := by
  rw [checkDepth, checkDepth, h.maxDepth_eq]
  split
  · exact (RunInStep.record _).bind fun _ => .throw _
  · exact .pure ()

omit h in
lemma runInStep_enclosed {act : RenderM F σ τ Unit} {act' : RenderM F σ τ' Unit}
    (hact : RunInStep R Q act act') (name indent : Text) :
    RunInStep R Q (enclosed name indent act) (enclosed name indent act') := by
  rw [enclosed_eq_bracket, enclosed_eq_bracket]
  refine hact.bracket (fun s s' hs => hs.record _) (fun _ _ _ _ => rfl) ?_
  intro s s' s₁ s₁' hs h₁
  have hentered := Advanced.record hs (.entered name indent)
  exact (hentered.trans h₁).trans (.record h₁.inStep _)

omit h in
lemma runInStep_indented {act : RenderM F σ τ Unit} {act' : RenderM F σ τ' Unit}
    (hact : RunInStep R Q act act') (indent : Text) :
    RunInStep R Q (indented indent act) (indented indent act') := by
  rw [indented_eq_bracket, indented_eq_bracket]
  refine hact.bracket ?_ (fun _ _ _ _ => rfl) ?_
  · intro s s' hs
    exact ⟨hs.host, hs.sink, by rw [hs.output_eq], hs.isValid⟩
  · rintro s s' s₁ s₁' hs ⟨h₁, hsome, hhistory⟩
    refine ⟨⟨h₁.host, h₁.sink, ?_, h₁.isValid⟩, hsome, hhistory⟩
    rw [h₁.output_eq, hs.output_eq]

omit h in
/-- What is written aside begins with no bytes, and is left alone afterwards. -/
lemma runInStep_onAside {act : RenderM F σ τ Unit} {act' : RenderM F σ τ' Unit}
    (hact : RunInStep R Q act act') : RunInStep R Q (onAside act) (onAside act') := by
  rw [onAside_eq_bracket, onAside_eq_bracket]
  refine hact.bracket ?_ (fun _ s₁ s₁' h₁ => by rw [h₁.output_eq]) ?_
  · intro s s' hs
    refine ⟨hs.host, hs.sink, rfl, ?_⟩
    rintro _ ⟨⟩
    exact ByteArray.isValidUTF8_empty
  · rintro s s' s₁ s₁' hs ⟨h₁, -, hhistory⟩
    exact ⟨⟨h₁.host, h₁.sink, hs.output_eq, hs.isValid⟩, rfl, hhistory⟩

lemma relatesNested_runInStep : RelatesNested (fun _ => RunInStep R Q) r r' where
  toComposes := RunInStep.composes
  partials_eq := h.partials_eq
  checkDepth_bind depth name _ _ hnext := (runInStep_checkDepth h depth name).bind fun _ => hnext
  reject _ := (RunInStep.record _).bind fun _ => .throw _
  enclosed name indent _ _ hact := runInStep_enclosed hact name indent
  indented indent _ _ hact := runInStep_indented hact indent
  onAside hact := runInStep_onAside hact
  writeData _ _ := .ofWrite (Sink.runInStep_writeData h.sink _ _)

/-! ### Lambdas and nodes -/

section

variable {below : Nested F σ τ} {below' : Nested F σ τ'}
  (hbelow : ∀ here range, RunInStep R Q (below here range) (below' here range))

include hbelow

lemma runInStep_attend (here : Setting F) (tag : LambdaTag) (failure : Option RenderError)
    {call call' : Expansion σ} (hcall : call.Alike R call') :
    RunInStep R Q (r.attend below here tag failure call)
      (r'.attend below' here tag failure call') := by
  induction hcall generalizing failure with
  | answer result hhost =>
    intro s s' hs
    exact .ok (.of_history_eq ⟨hhost, hs.sink, hs.output_eq, hs.isValid⟩ rfl rfl rfl)
  | remark remark _ ih =>
    intro s s' hs
    exact .after (.record hs _) (ih failure _ _ (hs.record _))
  | write text _ ih =>
    intro s s' hs
    have hwrite := Sink.runInStep_writeData h.sink text tag.escapes s s' hs
    generalize hone : r.sink.writeData text tag.escapes s = one,
      hother : r'.sink.writeData text tag.escapes s' = other at hwrite
    cases hwrite with
    | ok h₁ =>
      rw [r.attend_write_of_ok hone, r'.attend_write_of_ok hother]
      exact .after h₁ (ih true failure _ _ h₁.inStep)
    | error h₁ =>
      rw [r.attend_write_of_error hone, r'.attend_write_of_error hother]
      exact .after h₁ (ih false _ _ _ h₁.inStep)
  | @render text host host' next next' hhost _ ih =>
    intro s s' hs
    have hstep : Mustache.InStep R Q { s with host } { s' with host := host' } :=
      ⟨hhost, hs.sink, hs.output_eq, hs.isValid⟩
    have hrender := (relatesNested_runInStep h).renderLambdaText below below'
      (fun template => hbelow (here.nested template)) tag text _ _ hstep
    generalize hone : r.renderLambdaText below here tag text { s with host } = one,
      hother : r'.renderLambdaText below' here tag text { s' with host := host' } = other at hrender
    have hnested : Advanced R Q s s' { s with host } { s' with host := host' } :=
      .of_history_eq hstep rfl rfl rfl
    cases hrender with
    | ok h₁ =>
      rw [r.attend_render_of_ok hone, r'.attend_render_of_ok hother]
      exact .after (hnested.trans h₁) (ih true _ _ h₁.inStep.host failure _ _ h₁.inStep)
    | @error halt _ _ h₁ =>
      cases halt with
      | unfinished =>
        rw [r.attend_render_of_unfinished hone, r'.attend_render_of_unfinished hother]
        exact .error (hnested.trans h₁)
      | failed e =>
        rw [r.attend_render_of_failed hone, r'.attend_render_of_failed hother]
        exact .after (hnested.trans h₁) (ih false _ _ h₁.inStep.host _ _ _ h₁.inStep)

lemma runInStep_expandLambda (here : Setting F) (frame : F) (path : Path) (tag : LambdaTag) :
    RunInStep R Q (r.expandLambda below here frame path tag)
      (r'.expandLambda below' here frame path tag) := by
  rw [expandLambda_eq_settle, expandLambda_eq_settle, h.host_eq]
  refine (RunInStep.record _).bind fun _ => ?_
  intro s s' hs
  have hcall := h.respects.expand frame path tag.view hs.host
  exact (runInStep_attend h hbelow here tag none hcall).bind
    (runInStep_settle fun _ => .pure ()) s s' hs

lemma runInStep_renderNode (fuel : Nat) (here : Setting F) (node : Node) :
    RunInStep R Q (r.renderNode below fuel here node) (r'.renderNode below' fuel here node) := by
  have hnode := relates_runInStep h
  have hpartial := (relatesNested_runInStep h).renderPartial below below'
    fun template => hbelow (here.nested template)
  exact hnode.renderNode below below' (hbelow here) (runInStep_expandLambda h hbelow here) fuel fuel
    (fun elem => hbelow (here.inside elem)) (hnode.renderElements fuel) hpartial node

end

lemma runInStep_renderNodes (fuel : Nat) (here : Setting F) (range : NodeRange) :
    RunInStep R Q (r.renderNodes fuel here range) (r'.renderNodes fuel here range) :=
  (relates_runInStep h).renderNodes
    (fun fuel here node hbelow => runInStep_renderNode h hbelow fuel here node) fuel here range

/-- Whole renderings go through the same steps. -/
theorem runInStep_render (fuel : Nat) (template : Template) (root : F) :
    RunInStep R Q (r.render fuel template root) (r'.render fuel template root) :=
  (runInStep_renderNodes h fuel _ _).bind fun _ => .ofWrite (Sink.runInStep_finish h.sink)

end Renderer

end Mustache
