import Mustache.Proofs.Rendering.Plain
import Mustache.Proofs.Rendering.Simulation
import Mustache.Proofs.Text.Slices

/-!
# Hints and bytes

What a host says about sizes is used for nothing but the room that is set aside. So unless the host
itself minds being asked, rendering into a text comes to the same with hints and without, and to
what rendering into a buffer comes to. That the bytes in the buffer are a text is no matter of luck:
every write is valid UTF-8, to whatever sink and also aside.
-/

namespace Mustache

variable {F σ τ α β : Type}

/-! ### Hints -/

/-- Being asked for sizes does not change what the host answers later: some relation between its
states is kept by all answers, whether or not it has been asked for sizes in between. -/
def Host.IgnoresHints (host : Host F σ) : Prop :=
  ∃ R : σ → σ → Prop, (∀ s, R s s) ∧
    (∀ frame path s s', R s s' → R s (host.hint frame path s').2) ∧ host.Respects R

/-- The action only asks the host for sizes, if at all. -/
def Estimates (host : Host F σ) (act : RenderM F σ τ α) : Prop :=
  ∀ R : σ → σ → Prop, (∀ frame path s s', R s s' → R s (host.hint frame path s').2) →
    ∀ (before : σ) (s : RenderState F σ τ), R before s.host →
      ∃ a s₁, act s = .ok a s₁ ∧ R before s₁.host ∧ s₁.sink = s.sink ∧ s₁.output = s.output

namespace Estimates

variable {host : Host F σ} {act : RenderM F σ τ α}

lemma pure (a : α) : Estimates host (pure a : RenderM F σ τ α) :=
  fun _ _ _ s hs => ⟨a, s, rfl, hs, rfl, rfl⟩

lemma bind {next : α → RenderM F σ τ β} (h : Estimates host act)
    (hnext : ∀ a, Estimates host (next a)) : Estimates host (act >>= next) := by
  intro R hR before s hs
  obtain ⟨a, s₁, hact, hs₁, hsink, houtput⟩ := h R hR before s hs
  obtain ⟨b, s₂, hrest, hs₂, hsink₂, houtput₂⟩ := hnext a R hR before s₁ hs₁
  exact ⟨b, s₂, (bind_apply_of_ok hact).trans hrest, hs₂, hsink₂.trans hsink,
    houtput₂.trans houtput⟩

lemma foldlM {γ : Type} {step : α → γ → RenderM F σ τ α}
    (h : ∀ a x, Estimates host (step a x)) (xs : List γ) (a : α) :
    Estimates host (xs.foldlM step a) := by
  induction xs generalizing a with
  | nil => exact pure a
  | cons x xs ih =>
    rw [List.foldlM_cons]
    exact (h a x).bind ih

end Estimates

namespace Renderer

variable (r : Renderer F σ τ)

lemma estimates_askSize (root : F) (path : Path) :
    Estimates r.host (r.askSize root path : RenderM F σ τ Nat) := by
  intro R hR before s hs
  exact ⟨_, _, rfl, hR root path before s.host hs, rfl, rfl⟩

lemma estimates_estimate (template : Template) (root : F) :
    Estimates r.host (r.estimate template root : RenderM F σ τ Nat) := by
  refine (Estimates.foldlM (fun sum node => ?_) _ _).bind fun sum => .pure _
  refine Estimates.bind ?_ fun size => .pure _
  cases node with
  | variableTag tag => exact r.estimates_askSize root tag.path
  | text span | sectionTag tag | partialTag tag => exact .pure _

/-- Whatever the host says, the estimate is a number within the limit. -/
lemma exists_estimate (template : Template) (root : F) {R : σ → σ → Prop}
    (hR : ∀ frame path s s', R s s' → R s (r.host.hint frame path s').2) {before : σ}
    {s : RenderState F σ τ} (hs : R before s.host) :
    ∃ size s₁, r.estimate template root s = .ok size s₁ ∧ size ≤ maxReserve ∧ R before s₁.host ∧
      s₁.sink = s.sink ∧ s₁.output = s.output := by
  obtain ⟨size, s₁, hestimate, h⟩ := r.estimates_estimate template root R hR before s hs
  refine ⟨size, s₁, hestimate, ?_, h⟩
  rcases bind_eq_iff.1 hestimate with ⟨sum, s₂, -, hsum⟩ | ⟨e, s₂, -, he⟩
  · cases hsum
    exact Nat.min_le_right _ _
  · cases he

end Renderer

/-! ### Texts in buffers -/

/-- A buffer stays one that holds valid UTF-8. -/
lemma Sink.matches_buffer :
    Sink.buffer.Matches Sink.buffer fun kept kept' => kept' = kept ∧ kept.IsValidUTF8 where
  write := by
    rintro bytes kept _ hbytes ⟨rfl, hkept⟩
    exact ⟨rfl, rfl, hkept.append hbytes⟩
  flush := by
    rintro kept _ ⟨rfl, hkept⟩
    exact ⟨rfl, rfl, hkept⟩

lemma Text.exists_eq_bytes {bytes : ByteArray} (h : bytes.IsValidUTF8) :
    ∃ text : Text, bytes = text.bytes := by
  obtain ⟨text, rfl⟩ := h
  exact ⟨text, (Text.bytes_eq_utf8Encode text).symm⟩

/-- Rendering into a text has come to what rendering into a buffer has come to: to the text whose
bytes the buffer holds, or to the same error, with the same bytes written. -/
inductive ReadsBuffer {ε : Type} : EStateM.Result ε (RenderState F σ ByteArray) Text →
    EStateM.Result ε (RenderState F σ ByteArray) Unit → Prop
  | ok {text : Text} {s s' : RenderState F σ ByteArray} (h : s'.sink = text.bytes)
      (hsame : s.sink = s'.sink) : ReadsBuffer (.ok text s) (.ok () s')
  | error {e : ε} {s s' : RenderState F σ ByteArray} (hsame : s.sink = s'.sink) :
      ReadsBuffer (.error e s) (.error e s')

namespace Renderer

/-- What a rendering goes through does not depend on whether the host is asked for sizes. -/
lemma inStep_hints {host : Host F σ} {R : σ → σ → Prop} (hrespects : host.Respects R)
    (options : RenderOptions) (hints : Bool) (partials : Text → Option Template) :
    InStep R (fun kept kept' => kept' = kept ∧ kept.IsValidUTF8)
      (⟨host, .buffer, options, partials⟩ : Renderer F σ ByteArray)
      ⟨host, .buffer, { options with hints }, partials⟩ where
  host_eq := rfl
  respects := hrespects
  sink := Sink.matches_buffer
  escaping_eq := rfl
  maxDepth_eq := rfl
  partials_eq := rfl

/-- When rendering is done, the buffer can be read. -/
lemma readsBuffer_of_endInStep {R : σ → σ → Prop} {s s' : RenderState F σ ByteArray}
    {plain : EStateM.Result Halt (RenderState F σ ByteArray) Unit}
    {act : RenderM F σ ByteArray Unit}
    (h : EndInStep R (fun kept kept' => kept' = kept ∧ kept.IsValidUTF8) s s' plain (act s')) :
    ReadsBuffer ((act >>= fun _ => readBuffer) s') plain := by
  generalize hact : act s' = told at h
  cases h with
  | @ok _ s₁ s₁' h =>
    obtain ⟨hsame, hvalid⟩ := h.inStep.sink
    obtain ⟨text, htext⟩ := Text.exists_eq_bytes hvalid
    rw [bind_apply_of_ok hact, readBuffer_apply (hsame.trans htext)]
    exact .ok htext hsame
  | @error _ s₁ s₁' h =>
    rw [bind_apply_of_error hact]
    exact .error h.inStep.sink.1

lemma readsBuffer_renderToText {host : Host F σ} (hhints : host.IgnoresHints)
    (options : RenderOptions) (hints : Bool) (partials : Text → Option Template) (fuel : Nat)
    (template : Template) (root : F) (h : σ) :
    ReadsBuffer
      (renderToText ⟨host, .buffer, { options with hints }, partials⟩ fuel template root
        (.start h .empty))
      (render ⟨host, .buffer, options, partials⟩ fuel template root (.start h .empty)) := by
  obtain ⟨R, hrefl, hhint, hrespects⟩ := hhints
  have hstep := inStep_hints hrespects options hints partials
  have hrun := runInStep_render hstep fuel template root
  have hempty : (RenderState.start h .empty : RenderState F σ ByteArray).sink.IsValidUTF8 :=
    ByteArray.isValidUTF8_empty
  rw [renderToText_eq]
  cases hints with
  | false => exact readsBuffer_of_endInStep (hrun _ _ ⟨hrefl h, ⟨rfl, hempty⟩, rfl, nofun⟩)
  | true =>
    let r : Renderer F σ ByteArray := ⟨host, .buffer, { options with hints := true }, partials⟩
    obtain ⟨size, s₁, hestimate, -, hhost, hsink, houtput⟩ :=
      r.exists_estimate template root hhint (s := .start h .empty) (hrefl h)
    rw [if_pos rfl, bind_apply_of_ok hestimate]
    have hreserved := hrun (.start h .empty) (s₁.record (.reserved size))
      ⟨hhost, ⟨hsink, hempty⟩, houtput, nofun⟩
    exact readsBuffer_of_endInStep hreserved

end Renderer

/-! ### Every write -/

/-- The sink that also keeps the bytes of every write it is asked for, newest first. -/
def Sink.spied (sink : Sink τ) : Sink (List ByteArray × τ) where
  write bytes kept := ((sink.write bytes kept.2).1, bytes :: kept.1, (sink.write bytes kept.2).2)
  flush kept := ((sink.flush kept.2).1, kept.1, (sink.flush kept.2).2)

lemma Sink.matches_spied (sink : Sink τ) :
    sink.Matches sink.spied fun kept spied =>
      spied.2 = kept ∧ ∀ bytes ∈ spied.1, bytes.IsValidUTF8 where
  write := by
    rintro bytes kept ⟨seen, _⟩ hbytes ⟨rfl, hseen⟩
    exact ⟨rfl, rfl, List.forall_mem_cons.2 ⟨hbytes, hseen⟩⟩
  flush := by
    rintro kept ⟨seen, _⟩ ⟨rfl, hseen⟩
    exact ⟨rfl, rfl, hseen⟩

namespace Renderer

/-- A rendering does not notice that its writes are kept, and these are valid UTF-8. -/
lemma endInStep_spied (host : Host F σ) (sink : Sink τ) (options : RenderOptions)
    (partials : Text → Option Template) (fuel : Nat) (template : Template) (root : F) (h : σ)
    (kept : τ) :
    EndInStep (· = ·) (fun kept spied => spied.2 = kept ∧ ∀ bytes ∈ spied.1, bytes.IsValidUTF8)
      (.start h kept) (.start h ([], kept))
      (render ⟨host, sink, options, partials⟩ fuel template root (.start h kept))
      (render ⟨host, sink.spied, options, partials⟩ fuel template root (.start h ([], kept))) := by
  have hstep : InStep (· = ·)
      (fun kept spied => spied.2 = kept ∧ ∀ bytes ∈ spied.1, bytes.IsValidUTF8)
      (⟨host, sink, options, partials⟩ : Renderer F σ τ) ⟨host, sink.spied, options, partials⟩ :=
    ⟨rfl, host.respects_eq, sink.matches_spied, rfl, rfl, rfl⟩
  refine runInStep_render hstep fuel template root _ _ ⟨rfl, ⟨rfl, ?_⟩, rfl, ?_⟩
  · simp [RenderState.start]
  · simp [RenderState.start, Output.fresh]

/-- The bytes that are written aside for a lambda are those of the text that is read from them. -/
lemma exists_scratch_eq (r : Renderer F σ τ) (fuel : Nat) (here : Setting F) (range : NodeRange)
    (name : Text) (s : RenderState F σ τ) :
    ∃ kept, (reached (enclosed name [] (r.renderNodes fuel here range)
        { s with output := .aside })).output.scratch = some kept ∧ kept.IsValidUTF8 ∧
      (readScratch (reached (enclosed name [] (r.renderNodes fuel here range)
        { s with output := .aside })).output).bytes = kept := by
  have hstep : InStep (· = ·) (· = ·) r r :=
    ⟨rfl, r.host.respects_eq, r.sink.matches_self, rfl, rfl, rfl⟩
  have haside : Mustache.InStep (· = ·) (· = ·) { s with output := .aside }
      { s with output := .aside } := by
    refine ⟨rfl, rfl, rfl, ?_⟩
    rintro _ ⟨⟩
    exact ByteArray.isValidUTF8_empty
  have hend := runInStep_enclosed (runInStep_renderNodes hstep fuel here range) name [] _ _ haside
  obtain ⟨hreached, hsome, -⟩ := hend.advanced
  obtain ⟨kept, hkept⟩ := Option.isSome_iff_exists.1 hsome
  obtain ⟨text, htext⟩ := Text.exists_eq_bytes (hreached.isValid kept hkept)
  refine ⟨kept, hkept, hreached.isValid kept hkept, ?_⟩
  rw [readScratch, hkept, Option.getD_some, htext, Text.ofBytes?_bytes, Option.getD_some]

/-- Hints are advisory, and all bytes are text. If the host does not mind being asked for sizes,
rendering into a text, with hints or without, comes to what rendering into a buffer comes to, which
always holds a text then; the room set aside is within the limit, whatever the host says. For every
host and every sink, each write that is asked for is valid UTF-8, and so are the bytes written aside
for a lambda, which are read as they are. The slices that are cut out of the bytes of a text to
escape it are the pieces that are written. -/
theorem readsBuffer_and_isValidUTF8 :
    (∀ (host : Host F σ) (options : RenderOptions) (partials : Text → Option Template) (fuel : Nat)
      (template : Template) (root : F) (h : σ), host.IgnoresHints → ∀ hints,
        ReadsBuffer
          (renderToText ⟨host, .buffer, { options with hints }, partials⟩ fuel template root
            (.start h .empty))
          (render ⟨host, .buffer, options, partials⟩ fuel template root (.start h .empty))) ∧
    (∀ (r : Renderer F σ τ) (template : Template) (root : F) (s : RenderState F σ τ),
      ∃ size s₁, r.estimate template root s = .ok size s₁ ∧ size ≤ maxReserve) ∧
    (∀ (host : Host F σ) (sink : Sink τ) (options : RenderOptions)
      (partials : Text → Option Template) (fuel : Nat) (template : Template) (root : F) (h : σ)
      (kept : τ),
        let plain := render ⟨host, sink, options, partials⟩ fuel template root (.start h kept)
        let spied :=
          render ⟨host, sink.spied, options, partials⟩ fuel template root (.start h ([], kept))
        outcome spied = outcome plain ∧ (reached spied).sink.2 = (reached plain).sink ∧
          ∀ bytes ∈ (reached spied).sink.1, bytes.IsValidUTF8) ∧
    (∀ (r : Renderer F σ τ) (fuel : Nat) (here : Setting F) (range : NodeRange)
      (s : RenderState F σ τ),
        let after := reached (enclosed LambdaTag.lambdaName [] (r.renderNodes fuel here range)
          { s with output := .aside })
        ∃ kept, after.output.scratch = some kept ∧ kept.IsValidUTF8 ∧
          (readScratch after.output).bytes = kept) ∧
    ∀ text : Text, (escapedSlices text.bytes.data.toList).filter (· ≠ []) =
      (escapedPieces text).map fun piece => piece.bytes.data.toList := by
  refine ⟨?_, ?_, ?_, ?_, ?_⟩
  · intro host options partials fuel template root h hhints hints
    exact readsBuffer_renderToText hhints options hints partials fuel template root h
  · intro r template root s
    let R (_ _ : σ) : Prop := True
    have hR : R s.host s.host := trivial
    obtain ⟨size, s₁, hestimate, hsize, -⟩ :=
      r.exists_estimate template root (fun _ _ _ _ _ => trivial) hR
    exact ⟨size, s₁, hestimate, hsize⟩
  · intro host sink options partials fuel template root h kept
    have hend := endInStep_spied host sink options partials fuel template root h kept
    exact ⟨hend.outcome_eq, hend.advanced.inStep.sink.1, hend.advanced.inStep.sink.2⟩
  · intro r fuel here range s
    exact r.exists_scratch_eq fuel here range LambdaTag.lambdaName s
  · intro text
    simp only [Text.toList_data_bytes]
    exact escapedSlices_byteList text

/-- A host that counts how often it is asked for sizes, and tells the largest there are. -/
def counting : Host Unit Nat where
  get _ _ index s := (.ok (if index < 2 then .field () else .consumed), s)
  interpolate _ _ _ s := .write false ['<', 'é'] fun _ => .answer (.ok .field) s
  expand _ _ _ s := .answer (.ok .notFound) s
  hint _ _ s := ((.field, maxSize), s + 1)

/-- It answers the same whatever it has counted. -/
lemma ignoresHints_counting : counting.IgnoresHints := by
  refine ⟨fun _ _ => True, fun _ => trivial, fun _ _ _ _ _ => trivial, ?_, ?_, ?_⟩
  · intro frame path index s s' _
    exact ⟨rfl, trivial⟩
  · intro frame path escaped s s' _
    exact .write _ _ fun _ => .answer _ trivial
  · intro frame path view s s' _
    exact .answer _ trivial

/-- The largest size is told of the one value outside the section, and the limit is set aside. -/
theorem readsBuffer_counting :
    counting.IgnoresHints ∧
      ∃ t, Template.compile "é{{x}}{{#x}}{{y}}{{/x}}".toList .standard = .ok t ∧
      outcome (estimate ⟨counting, .buffer, .standard, fun _ => none⟩ t () (.start 0 .empty)) =
        .ok maxReserve ∧
      (reached
        (estimate ⟨counting, .buffer, .standard, fun _ => none⟩ t () (.start 0 .empty))).host = 1 ∧
      ∀ fuel hints, ReadsBuffer
        (renderToText ⟨counting, .buffer, { RenderOptions.standard with hints }, fun _ => none⟩ fuel
          t () (.start 0 .empty))
        (render ⟨counting, .buffer, .standard, fun _ => none⟩ fuel t () (.start 0 .empty)) := by
  let r : Renderer Unit Nat ByteArray := ⟨counting, .buffer, .standard, fun _ => none⟩
  have hrun : (Template.compile "é{{x}}{{#x}}{{y}}{{/x}}".toList .standard).map (fun t =>
      ((outcome (r.estimate t () (.start 0 .empty))).toOption,
        (reached (r.estimate t () (.start 0 .empty))).host)) = .ok (some maxReserve, 1) := by
    decide +kernel
  obtain ⟨t, hcompile, hrun⟩ := exists_eq_ok_of_map_eq_ok hrun
  rw [Prod.mk.injEq] at hrun
  refine ⟨ignoresHints_counting, t, hcompile, ?_, hrun.2, fun fuel hints => ?_⟩
  · cases hsize : outcome (r.estimate t () (.start 0 .empty)) with
    | error e =>
      rw [hsize] at hrun
      exact nomatch hrun.1
    | ok size =>
      rw [hsize] at hrun
      exact congrArg Except.ok (Option.some.inj hrun.1)
  · exact (@readsBuffer_and_isValidUTF8 _ _ ByteArray).1 counting .standard _ fuel t () 0
      ignoresHints_counting hints

end Renderer

end Mustache
