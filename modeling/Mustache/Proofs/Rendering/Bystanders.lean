import Mustache.Proofs.Rendering.Simulation

/-!
# Contexts that know nothing

A frame that knows no name and has nothing written may stand anywhere in the context stack: it is
asked and passed over. Two renderings, one with such frames in its stack and one without, do the
same to the sink and to the output, make the same calls of all other frames, and come to the same
end.
What the host remembers of the calls of these frames may differ, as long as no other call depends on
it.
-/

namespace Mustache

variable {F σ τ ε α β γ : Type}

/-! ### Elements in between -/

/-- The second list is the first one with elements in between that satisfy `P`. -/
inductive Interspersed (P : γ → Prop) : List γ → List γ → Prop
  | nil : Interspersed P [] []
  | cons (a : γ) {as bs : List γ} (h : Interspersed P as bs) : Interspersed P (a :: as) (a :: bs)
  | extra {a : γ} (ha : P a) {as bs : List γ} (h : Interspersed P as bs) :
      Interspersed P as (a :: bs)

namespace Interspersed

variable {P : γ → Prop} {as bs as' bs' : List γ}

lemma refl (as : List γ) : Interspersed P as as := by
  induction as with
  | nil => exact .nil
  | cons a as ih => exact .cons a ih

lemma append (h : Interspersed P as bs) (h' : Interspersed P as' bs') :
    Interspersed P (as ++ as') (bs ++ bs') := by
  induction h with
  | nil => exact h'
  | cons a _ ih => exact .cons a ih
  | extra ha _ ih => exact .extra ha ih

lemma append_extra (h : Interspersed P as bs) {a : γ} (ha : P a) :
    Interspersed P as (bs ++ [a]) := by
  have happend := h.append (.extra ha .nil)
  rwa [List.append_nil] at happend

end Interspersed

/-! ### Frames that know nothing -/

/-- The call has nothing written and answers that the name is not known here; the state that it
leaves satisfies `S`. -/
inductive Interpolation.Declines (S : σ → Prop) : Interpolation σ → Prop
  | answer {host : σ} (h : S host) : Declines S (.answer (.ok .notFound) host)
  | write {raw : Bool} {next : Except SinkErrorKind Unit → Interpolation σ}
      (h : Declines S (next (.ok ()))) : Declines S (.write raw [] next)
  | remark {remark : Remark} {next : Interpolation σ} (h : Declines S next) :
      Declines S (.remark remark next)

/-- The frame knows no name and has nothing written, and what the host remembers of its calls makes
no difference. -/
structure Host.KnowsNothing (host : Host F σ) (R : σ → σ → Prop) (frame : F) : Prop where
  get : ∀ path index {s s'}, R s s' → (host.get frame path index s').1 = .ok .notFound ∧
    R s (host.get frame path index s').2
  interpolate : ∀ path escaped {s s'}, R s s' →
    (host.interpolate frame path escaped s').Declines (R s)

/-- The frames in `K` know nothing. Whether or not they were asked, the host answers alike to the
calls of all frames, and no other frame's lambda depends on it. -/
structure Host.Bystanders (host : Host F σ) (R : σ → σ → Prop) (K : F → Prop) : Prop where
  knowsNothing : ∀ frame, K frame → host.KnowsNothing R frame
  get : ∀ frame path index {s s'}, R s s' →
    (host.get frame path index s').1 = (host.get frame path index s).1 ∧
      R (host.get frame path index s).2 (host.get frame path index s').2
  interpolate : ∀ frame path escaped {s s'}, R s s' →
    (host.interpolate frame path escaped s).Alike R (host.interpolate frame path escaped s')
  expand : ∀ frame, ¬ K frame → ∀ path view {s s'}, R s s' →
    (host.expand frame path view s).Alike R (host.expand frame path view s')

/-- A frame that knows nothing and leaves the host's state alone is one of them, whatever the
host. -/
lemma Host.bystanders_eq {host : Host F σ} {unknowing : F}
    (h : host.KnowsNothing (· = ·) unknowing) : host.Bystanders (· = ·) (· = unknowing) where
  knowsNothing := by
    rintro _ rfl
    exact h
  get := host.respects_eq.get
  interpolate := host.respects_eq.interpolate
  expand frame _ := host.respects_eq.expand frame

/-- What the history has of the calls of such frames. -/
inductive Event.PassedOver (K : F → Prop) : Event F → Prop
  | got {frame : F} (h : K frame) (query : Query) : PassedOver K (.got frame query (.ok .notFound))
  | interpolated {frame : F} (h : K frame) (path : Path) :
      PassedOver K (.interpolated frame path (.ok .notFound))
  | writing (output : Output) : PassedOver K (.writing output)
  | remarked (remark : Remark) : PassedOver K (.remarked remark)

/-! ### Renderings side by side -/

/-- Two renderings stand at the same point, but in the second one frames were asked that know
nothing. -/
structure Alongside (R : σ → σ → Prop) (K : F → Prop) (s s' : RenderState F σ τ) : Prop where
  host : R s.host s'.host
  sink_eq : s'.sink = s.sink
  output_eq : s'.output = s.output
  events : Interspersed (Event.PassedOver K) s.events s'.events

/-- Two actions have ended in the same way, at the same point. -/
inductive EndAlongside (R : σ → σ → Prop) (K : F → Prop) :
    EStateM.Result ε (RenderState F σ τ) α → EStateM.Result ε (RenderState F σ τ) α → Prop
  | ok {a : α} {s s' : RenderState F σ τ} (h : Alongside R K s s') :
      EndAlongside R K (.ok a s) (.ok a s')
  | error {e : ε} {s s' : RenderState F σ τ} (h : Alongside R K s s') :
      EndAlongside R K (.error e s) (.error e s')

/-- Begun at the same point, the two actions end in the same way and at the same point. -/
def RunAlongside (R : σ → σ → Prop) (K : F → Prop)
    (act act' : EStateM ε (RenderState F σ τ) α) : Prop :=
  ∀ s s', Alongside R K s s' → EndAlongside R K (act s) (act' s')

section

variable {R : σ → σ → Prop} {K : F → Prop} {s s' : RenderState F σ τ}

lemma EndAlongside.outcome_eq {one other : EStateM.Result ε (RenderState F σ τ) α}
    (h : EndAlongside R K one other) : outcome other = outcome one := by
  cases h <;> rfl

lemma EndAlongside.alongside {one other : EStateM.Result ε (RenderState F σ τ) α}
    (h : EndAlongside R K one other) : Alongside R K (reached one) (reached other) := by
  cases h with
  | ok h => exact h
  | error h => exact h

lemma Alongside.record (h : Alongside R K s s') (e : Event F) :
    Alongside R K (s.record e) (s'.record e) := by
  refine ⟨h.host, h.sink_eq, h.output_eq, ?_⟩
  rw [RenderState.events_record, RenderState.events_record]
  exact h.events.append (.refl _)

/-- In the second rendering a frame that knows nothing has been called. -/
lemma Alongside.record_right (h : Alongside R K s s') {e : Event F} (he : e.PassedOver K) :
    Alongside R K s (s'.record e) := by
  refine ⟨h.host, h.sink_eq, h.output_eq, ?_⟩
  rw [RenderState.events_record]
  exact h.events.append_extra he

lemma Alongside.withHost (h : Alongside R K s s') {host host' : σ} (hhost : R host host') :
    Alongside R K { s with host } { s' with host := host' } :=
  ⟨hhost, h.sink_eq, h.output_eq, h.events⟩

lemma Alongside.withOutput (h : Alongside R K s s') (f : Output → Output) :
    Alongside R K { s with output := f s.output } { s' with output := f s'.output } :=
  ⟨h.host, h.sink_eq, congrArg f h.output_eq, h.events⟩

namespace RunAlongside

variable {act act' : EStateM ε (RenderState F σ τ) α}

lemma pure (a : α) :
    RunAlongside R K (pure a : EStateM ε (RenderState F σ τ) α) (pure a) := by
  intro s s' hs
  exact .ok hs

lemma throw (e : ε) :
    RunAlongside R K (throw e : EStateM ε (RenderState F σ τ) α) (throw e) := by
  intro s s' hs
  exact .error hs

lemma bind {next next' : α → EStateM ε (RenderState F σ τ) β} (h : RunAlongside R K act act')
    (hnext : ∀ a, RunAlongside R K (next a) (next' a)) :
    RunAlongside R K (act >>= next) (act' >>= next') := by
  intro s s' hs
  have hact := h s s' hs
  generalize hone : act s = one, hother : act' s' = other at hact
  cases hact with
  | ok h₁ =>
    rw [bind_apply_of_ok hone, bind_apply_of_ok hother]
    exact hnext _ _ _ h₁
  | error h₁ =>
    rw [bind_apply_of_error hone, bind_apply_of_error hother]
    exact .error h₁

/-- What the second rendering has done well, the first has too. -/
lemma exists_of_ok (h : RunAlongside R K act act') (hs : Alongside R K s s') {a : α}
    {s₁' : RenderState F σ τ} (hok : act' s' = .ok a s₁') :
    ∃ s₁, act s = .ok a s₁ ∧ Alongside R K s₁ s₁' := by
  have hact := h s s' hs
  rw [hok] at hact
  generalize act s = one at hact
  cases hact with
  | ok h₁ => exact ⟨_, rfl, h₁⟩

lemma composes : ActionRel.Composes fun α (act act' : RenderM F σ τ α) => RunAlongside R K act act'
    where
  pure := pure
  bind := bind

lemma forM {step step' : γ → EStateM ε (RenderState F σ τ) PUnit} (xs : List γ)
    (h : ∀ x, RunAlongside R K (step x) (step' x)) :
    RunAlongside R K (xs.forM step) (xs.forM step') := by
  induction xs with
  | nil => exact pure _
  | cons x xs ih => exact (h x).bind fun _ => ih

lemma modify {f : RenderState F σ τ → RenderState F σ τ}
    (h : ∀ s s', Alongside R K s s' → Alongside R K (f s) (f s')) :
    RunAlongside R K (modify f : EStateM ε (RenderState F σ τ) PUnit) (modify f) := by
  intro s s' hs
  exact .ok (h s s' hs)

/-- What follows may depend on the output. -/
lemma output_bind (next : Output → EStateM ε (RenderState F σ τ) α)
    (h : ∀ output, RunAlongside R K (next output) (next output)) :
    RunAlongside R K (get >>= fun s => next s.output) (get >>= fun s => next s.output) := by
  intro s s' hs
  show EndAlongside R K (next s.output s) (next s'.output s')
  rw [hs.output_eq]
  exact h _ s s' hs

lemma record (e : Event F) :
    RunAlongside R K (RenderM.record e : RenderM F σ τ Unit) (RenderM.record e) :=
  modify fun _ _ hs => hs.record e

lemma ofWrite {act act' : WriteM F σ τ α} (h : RunAlongside R K act act') :
    RunAlongside R K (RenderM.ofWrite act) (RenderM.ofWrite act') := by
  intro s s' hs
  have hact := h s s' hs
  generalize hone : act s = one, hother : act' s' = other at hact
  cases hact with
  | ok h₁ =>
    rw [RenderM.ofWrite_of_ok hone, RenderM.ofWrite_of_ok hother]
    exact .ok h₁
  | error h₁ =>
    rw [RenderM.ofWrite_of_error hone, RenderM.ofWrite_of_error hother]
    exact .error h₁

lemma bracket {enter : RenderState F σ τ → RenderState F σ τ} {value : α → RenderState F σ τ → β}
    {leave : RenderState F σ τ → RenderState F σ τ → RenderState F σ τ}
    (h : RunAlongside R K act act')
    (henter : ∀ s s', Alongside R K s s' → Alongside R K (enter s) (enter s'))
    (hvalue : ∀ a s s', Alongside R K s s' → value a s' = value a s)
    (hleave : ∀ s s' s₁ s₁', Alongside R K s s' → Alongside R K s₁ s₁' →
      Alongside R K (leave s s₁) (leave s' s₁')) :
    RunAlongside R K (bracket enter value leave act) (bracket enter value leave act') := by
  intro s s' hs
  have hact := h _ _ (henter s s' hs)
  rw [Mustache.bracket, Mustache.bracket]
  generalize act (enter s) = one, act' (enter s') = other at hact
  cases hact with
  | ok h₁ =>
    simp only
    rw [hvalue _ _ _ h₁]
    exact .ok (hleave _ _ _ _ hs h₁)
  | error h₁ => exact .error (hleave _ _ _ _ hs h₁)

end RunAlongside

end

/-! ### Writing -/

namespace Sink

variable {R : σ → σ → Prop} {K : F → Prop} (sink : Sink τ)

lemma runAlongside_noteOutput :
    RunAlongside R K (noteOutput : WriteM F σ τ Unit) noteOutput := by
  refine .modify fun s s' hs => ?_
  rw [hs.output_eq]
  exact hs.record _

lemma runAlongside_endText (text : Text) :
    RunAlongside R K (endText text : WriteM F σ τ Unit) (endText text) :=
  .modify fun _ _ hs => hs.withOutput fun output => { output with atLineStart := text.endsLine }

lemma runAlongside_put (text : Text) :
    RunAlongside R K (sink.put text : WriteM F σ τ Unit) (sink.put text) := by
  rintro ⟨host, _, _, history⟩ ⟨host', taken, output, history'⟩ ⟨hhost, rfl, rfl, hevents⟩
  rw [put, put]
  dsimp only
  cases output.scratch with
  | some kept => exact .ok ⟨hhost, rfl, rfl, hevents⟩
  | none =>
    cases sink.write text.bytes taken with
    | mk result after =>
      have hs : Alongside R K ⟨host, after, output, history⟩ ⟨host', after, output, history'⟩ :=
        ⟨hhost, rfl, rfl, hevents⟩
      cases result with
      | ok _ => exact .ok (hs.record _)
      | error e => exact .error (hs.record _)

lemma runAlongside_emit (text : Text) :
    RunAlongside R K (sink.emit text : WriteM F σ τ Unit) (sink.emit text) :=
  (sink.runAlongside_put text).bind fun _ => runAlongside_endText text

lemma runAlongside_indent :
    RunAlongside R K (sink.indent : WriteM F σ τ Unit) sink.indent := by
  refine .output_bind (fun output => if output.atLineStart && output.indent ≠ [] then
    sink.put output.indent else pure ()) fun output => ?_
  split
  · exact sink.runAlongside_put _
  · exact .pure ()

lemma runAlongside_writeText (text : Text) :
    RunAlongside R K (sink.writeText text : WriteM F σ τ Unit) (sink.writeText text) := by
  refine runAlongside_noteOutput.bind fun _ => ?_
  split
  · exact .pure ()
  · refine .output_bind (fun output => if output.indent = [] then sink.emit text
      else text.lines.forM fun line => do sink.indent; sink.emit line) fun output => ?_
    split
    · exact sink.runAlongside_emit text
    · exact .forM _ fun line => sink.runAlongside_indent.bind fun _ => sink.runAlongside_emit line

lemma runAlongside_writeData (text : Text) (escaped : Bool) :
    RunAlongside R K (sink.writeData text escaped : WriteM F σ τ Unit)
      (sink.writeData text escaped) := by
  refine runAlongside_noteOutput.bind fun _ => ?_
  split
  · exact .pure ()
  · refine sink.runAlongside_indent.bind fun _ => ?_
    cases escaped with
    | true =>
      exact (RunAlongside.forM _ sink.runAlongside_put).bind fun _ => runAlongside_endText text
    | false => exact sink.runAlongside_emit text

end Sink

/-! ### Asking the host -/

lemma runAlongside_settle {R : σ → σ → Prop} {K : F → Prop} {report : ε → RenderError} {path : Path}
    {done : HostResult → Event F} {next next' : Resolution → RenderM F σ τ α}
    (hnext : ∀ answer, RunAlongside R K (next answer) (next' answer))
    (answer : Option ε × HostResult) :
    RunAlongside R K (settle report path done next answer)
      (settle report path done next' answer) := by
  refine (RunAlongside.record (done answer.2)).bind fun _ => ?_
  rcases answer with ⟨_ | e, _ | a⟩
  · exact .throw _
  · exact hnext a
  · exact .throw _
  · exact .throw _

namespace Renderer

variable {r : Renderer F σ τ} {R : σ → σ → Prop} {K : F → Prop} {s s' : RenderState F σ τ}

lemma runAlongside_serve (escaped : Bool) (failure : Option SinkError)
    {call call' : Interpolation σ} (hcall : call.Alike R call') :
    RunAlongside R K (r.serve escaped failure call) (r.serve escaped failure call') := by
  induction hcall generalizing failure with
  | answer result hhost =>
    intro s s' hs
    exact .ok (hs.withHost hhost)
  | remark remark _ ih =>
    intro s s' hs
    exact ih failure _ _ (hs.record _)
  | write raw text _ ih =>
    intro s s' hs
    cases failure with
    | some e => exact ih (.error e.kind) (some e) s s' hs
    | none =>
      have hwrite := r.sink.runAlongside_writeData text (escaped && !raw) s s' hs
      generalize hone : r.sink.writeData text (escaped && !raw) s = one,
        hother : r.sink.writeData text (escaped && !raw) s' = other at hwrite
      cases hwrite with
      | ok h₁ =>
        rw [r.serve_write_of_ok hone, r.serve_write_of_ok hother]
        exact ih (.ok ()) none _ _ h₁
      | error h₁ =>
        rw [r.serve_write_of_error hone, r.serve_write_of_error hother]
        exact ih _ (some _) _ _ h₁

/-- A call that has nothing written does nothing to the sink and to the output. -/
lemma exists_serve_of_declines {call : Interpolation σ} (hcall : call.Declines (R s.host))
    (escaped : Bool) (hs : Alongside R K s s') :
    ∃ s₁, r.serve escaped none call s' = .ok (none, .ok .notFound) s₁ ∧ Alongside R K s s₁ := by
  induction hcall generalizing s' with
  | answer h => exact ⟨_, rfl, h, hs.sink_eq, hs.output_eq, hs.events⟩
  | remark _ ih => exact ih (hs.record_right (.remarked _))
  | @write raw next _ ih =>
    have hwrite : r.sink.writeData [] (escaped && !raw) s' =
        .ok () (s'.record (.writing s'.output)) := rfl
    rw [r.serve_write_of_ok hwrite]
    exact ih (hs.record_right (.writing _))

section

variable (h : r.host.Bystanders R K) {frame : F} (hframe : K frame)

include h

lemma runAlongside_lookUp (frame : F) (path : Path) (index : Nat) :
    RunAlongside R K (r.lookUp frame path index) (r.lookUp frame path index) := by
  intro s s' hs
  obtain ⟨hanswer, hafter⟩ := h.get frame path index hs.host
  rw [lookUp, lookUp]
  simp only [hanswer]
  exact .ok ((hs.withHost hafter).record _)

lemma runAlongside_interpolate (frame : F) (path : Path) (escaped : Bool) :
    RunAlongside R K (r.interpolate frame path escaped) (r.interpolate frame path escaped) := by
  rw [interpolate_eq_settle]
  intro s s' hs
  have hcall := h.interpolate frame path escaped hs.host
  exact (runAlongside_serve escaped none hcall).bind (runAlongside_settle RunAlongside.pure)
    s s' hs

lemma relates_runAlongside : Relates (fun _ => RunAlongside R K) r r where
  toComposes := RunAlongside.composes
  escaping_eq := rfl
  unfinished := .throw _
  lookUp_bind := RunAlongside.composes.keptByLookUp r r (fun _ _ => .throw _)
    (runAlongside_lookUp h)
  interpolate := runAlongside_interpolate h
  writeText _ := .ofWrite (r.sink.runAlongside_writeText _)

include hframe

/-- A frame that knows nothing is passed over in the search of an owner. -/
lemma exists_lookUp_of_bystander (path : Path) (index : Nat) (hs : Alongside R K s s') :
    ∃ s₁, r.lookUp frame path index s' = .ok (.ok .notFound) s₁ ∧ Alongside R K s s₁ := by
  obtain ⟨hanswer, hafter⟩ := (h.knowsNothing frame hframe).get path index hs.host
  rw [lookUp]
  simp only [hanswer]
  have hs₁ : Alongside R K s { s' with host := (r.host.get frame path index s'.host).2 } :=
    ⟨hafter, hs.sink_eq, hs.output_eq, hs.events⟩
  exact ⟨_, rfl, hs₁.record_right (.got hframe _)⟩

/-- And in the search of one that writes the value. -/
lemma exists_interpolate_of_bystander (path : Path) (escaped : Bool) (hs : Alongside R K s s') :
    ∃ s₁, r.interpolate frame path escaped s' = .ok .notFound s₁ ∧ Alongside R K s s₁ := by
  have hcall := (h.knowsNothing frame hframe).interpolate path escaped hs.host
  obtain ⟨s₁, hserve, h₁⟩ := exists_serve_of_declines hcall escaped hs
  refine ⟨s₁.record (.interpolated frame path (.ok .notFound)), ?_,
    h₁.record_right (.interpolated hframe path)⟩
  rw [interpolate_eq_settle]
  show (r.serve escaped none _ >>= _) s' = _
  rw [bind_apply_of_ok hserve]
  rfl

end

/-! ### The context stack -/

lemma owner_cons_of_notFound {frame : F} {path : Path} {s₁ : RenderState F σ τ}
    (h : r.lookUp frame path 0 s = .ok (.ok .notFound) s₁) (frames : List F) :
    r.owner path (frame :: frames) s = r.owner path frames s₁ := by
  rw [owner, bind_apply_of_ok h]

lemma writeValue_cons_of_notFound {below : Nested F σ τ} {here : Setting F} {frame : F}
    {path : Path} {escaped : Bool} {s₁ : RenderState F σ τ}
    (h : r.interpolate frame path escaped s = .ok .notFound s₁) (frames : List F) :
    r.writeValue below here path escaped (frame :: frames) s =
      r.writeValue below here path escaped frames s₁ := by
  rw [writeValue, bind_apply_of_ok h]

section

variable (h : r.host.Bystanders R K) {frames frames' : List F}
  (hframes : Interspersed K frames frames')

include h hframes

/-- Both renderings find the same owner, and it is none of the frames that know nothing. -/
lemma runAlongside_owner_bind (path : Path)
    {next next' : Option (F × Lookup F) → RenderM F σ τ Unit}
    (hnone : RunAlongside R K (next none) (next' none))
    (hsome : ∀ frame, ¬ K frame → ∀ answer,
      RunAlongside R K (next (some (frame, answer))) (next' (some (frame, answer)))) :
    RunAlongside R K (r.owner path frames >>= next) (r.owner path frames' >>= next') := by
  have hskip {frame : F} {frames : List F} {next : Option (F × Lookup F) → RenderM F σ τ Unit}
      {s s₁ : RenderState F σ τ} (hlookUp : r.lookUp frame path 0 s = .ok (.ok .notFound) s₁) :
      (r.owner path (frame :: frames) >>= next) s = (r.owner path frames >>= next) s₁ := by
    show EStateM.bind _ _ _ = EStateM.bind _ _ _
    rw [EStateM.bind, EStateM.bind, owner_cons_of_notFound hlookUp]
  induction hframes with
  | nil => exact hnone
  | extra hframe _ ih =>
    intro s s' hs
    obtain ⟨s₁', hlookUp, h₁⟩ := exists_lookUp_of_bystander h hframe path 0 hs
    rw [hskip hlookUp]
    exact ih _ _ h₁
  | cons frame _ ih =>
    by_cases hframe : K frame
    · intro s s' hs
      obtain ⟨s₁', hlookUp', -⟩ := exists_lookUp_of_bystander h hframe path 0 hs
      obtain ⟨s₁, hlookUp, h₁⟩ := (runAlongside_lookUp h frame path 0).exists_of_ok hs hlookUp'
      rw [hskip hlookUp, hskip hlookUp']
      exact ih _ _ h₁
    · rw [owner, owner, bind_assoc, bind_assoc]
      refine (runAlongside_lookUp h frame path 0).bind fun answer => ?_
      rcases answer with e | answer
      · intro s s' hs
        exact .error hs
      · cases answer with
        | notFound => exact ih
        | broken | consumed | lambda | field elem => exact hsome frame hframe _

/-- Both renderings have the same frame write the value. -/
lemma runAlongside_writeValue {below below' : Nested F σ τ} {here here' : Setting F}
    (hexpand : ∀ frame, ¬ K frame → ∀ path tag, RunAlongside R K
      (r.expandLambda below here frame path tag) (r.expandLambda below' here' frame path tag))
    (path : Path) (escaped : Bool) :
    RunAlongside R K (r.writeValue below here path escaped frames)
      (r.writeValue below' here' path escaped frames') := by
  induction hframes with
  | nil => exact .pure ()
  | extra hframe _ ih =>
    intro s s' hs
    obtain ⟨s₁', hwrite, h₁⟩ := exists_interpolate_of_bystander h hframe path escaped hs
    rw [writeValue_cons_of_notFound hwrite]
    exact ih _ _ h₁
  | cons frame _ ih =>
    have hboth := runAlongside_interpolate h frame path escaped
    by_cases hframe : K frame
    · intro s s' hs
      obtain ⟨s₁', hwrite', -⟩ := exists_interpolate_of_bystander h hframe path escaped hs
      obtain ⟨s₁, hwrite, h₁⟩ := hboth.exists_of_ok hs hwrite'
      rw [writeValue_cons_of_notFound hwrite, writeValue_cons_of_notFound hwrite']
      exact ih _ _ h₁
    · refine hboth.bind fun answer => ?_
      cases answer with
      | notFound => exact ih
      | lambda => exact hexpand frame hframe path _
      | broken | consumed | field => exact .pure ()

end

/-! ### Nested renderings -/

lemma runAlongside_checkDepth (depth : Nat) (name : Text) :
    RunAlongside R K (r.checkDepth depth name) (r.checkDepth depth name) := by
  rw [checkDepth]
  split
  · exact (RunAlongside.record _).bind fun _ => .throw _
  · exact .pure ()

section

variable {act act' : RenderM F σ τ Unit} (hact : RunAlongside R K act act')

include hact

lemma runAlongside_enclosed (name indent : Text) :
    RunAlongside R K (enclosed name indent act) (enclosed name indent act') := by
  rw [enclosed_eq_bracket, enclosed_eq_bracket]
  exact hact.bracket (fun _ _ hs => hs.record _) (fun _ _ _ _ => rfl)
    fun _ _ _ _ _ h₁ => h₁.record _

lemma runAlongside_indented (indent : Text) :
    RunAlongside R K (indented indent act) (indented indent act') := by
  rw [indented_eq_bracket, indented_eq_bracket]
  refine hact.bracket ?_ (fun _ _ _ _ => rfl) ?_
  · intro s s' hs
    exact hs.withOutput fun output => { output with indent := output.indent ++ indent }
  · intro s s' s₁ s₁' hs h₁
    rw [hs.output_eq]
    exact h₁.withOutput fun output =>
      { output with indent := output.indent.take s.output.indent.length }

lemma runAlongside_onAside : RunAlongside R K (onAside act) (onAside act') := by
  rw [onAside_eq_bracket, onAside_eq_bracket]
  refine hact.bracket ?_ (fun _ s₁ s₁' h₁ => by rw [h₁.output_eq]) ?_
  · intro s s' hs
    exact hs.withOutput fun _ => .aside
  · intro s s' s₁ s₁' hs h₁
    rw [hs.output_eq]
    exact h₁.withOutput fun _ => s.output

end

lemma relatesNested_runAlongside : RelatesNested (fun _ => RunAlongside R K) r r where
  toComposes := RunAlongside.composes
  partials_eq := rfl
  checkDepth_bind depth name _ _ hnext := (runAlongside_checkDepth depth name).bind fun _ => hnext
  reject _ := (RunAlongside.record _).bind fun _ => .throw _
  enclosed name indent _ _ hact := runAlongside_enclosed hact name indent
  indented indent _ _ hact := runAlongside_indented hact indent
  onAside hact := runAlongside_onAside hact
  writeData _ _ := .ofWrite (r.sink.runAlongside_writeData _ _)

/-! ### Lambdas and nodes -/

section

variable {below : Nested F σ τ} {here : Setting F} {frames : List F}
  (hframes : Interspersed K here.scope frames)
  (hbelow : ∀ {here : Setting F} {frames : List F}, Interspersed K here.scope frames →
    ∀ range, RunAlongside R K (below here range) (below { here with scope := frames } range))

include hframes hbelow

lemma runAlongside_renderLambdaText (tag : LambdaTag) (text : Text) :
    RunAlongside R K (r.renderLambdaText below here tag text)
      (r.renderLambdaText below { here with scope := frames } tag text) :=
  relatesNested_runAlongside.renderLambdaText below
    (fun there range => below { there with scope := frames } range) (fun _ => hbelow hframes)
    tag text

lemma runAlongside_renderPartial (tag : Partial) :
    RunAlongside R K (r.renderPartial below here tag)
      (r.renderPartial below { here with scope := frames } tag) :=
  relatesNested_runAlongside.renderPartial below
    (fun there range => below { there with scope := frames } range) (fun _ => hbelow hframes) tag

lemma runAlongside_attend (tag : LambdaTag) (failure : Option RenderError)
    {call call' : Expansion σ} (hcall : call.Alike R call') :
    RunAlongside R K (r.attend below here tag failure call)
      (r.attend below { here with scope := frames } tag failure call') := by
  induction hcall generalizing failure with
  | answer result hhost =>
    intro s s' hs
    exact .ok (hs.withHost hhost)
  | remark remark _ ih =>
    intro s s' hs
    exact ih failure _ _ (hs.record _)
  | write text _ ih =>
    intro s s' hs
    have hwrite := r.sink.runAlongside_writeData text tag.escapes s s' hs
    generalize hone : r.sink.writeData text tag.escapes s = one,
      hother : r.sink.writeData text tag.escapes s' = other at hwrite
    cases hwrite with
    | ok h₁ =>
      rw [r.attend_write_of_ok hone, r.attend_write_of_ok hother]
      exact ih true failure _ _ h₁
    | error h₁ =>
      rw [r.attend_write_of_error hone, r.attend_write_of_error hother]
      exact ih false _ _ _ h₁
  | @render text host host' next next' hhost _ ih =>
    intro s s' hs
    have hrender := runAlongside_renderLambdaText (r := r) hframes hbelow tag text _ _
      (hs.withHost hhost)
    generalize hone : r.renderLambdaText below here tag text { s with host } = one,
      hother : r.renderLambdaText below { here with scope := frames } tag text
        { s' with host := host' } = other at hrender
    cases hrender with
    | ok h₁ =>
      rw [r.attend_render_of_ok hone, r.attend_render_of_ok hother]
      exact ih true _ _ h₁.host failure _ _ h₁
    | @error halt _ _ h₁ =>
      cases halt with
      | unfinished =>
        rw [r.attend_render_of_unfinished hone, r.attend_render_of_unfinished hother]
        exact .error h₁
      | failed e =>
        rw [r.attend_render_of_failed hone, r.attend_render_of_failed hother]
        exact ih false _ _ h₁.host _ _ _ h₁

variable (h : r.host.Bystanders R K)

include h

lemma runAlongside_expandLambda {frame : F} (hframe : ¬ K frame) (path : Path) (tag : LambdaTag) :
    RunAlongside R K (r.expandLambda below here frame path tag)
      (r.expandLambda below { here with scope := frames } frame path tag) := by
  rw [expandLambda_eq_settle, expandLambda_eq_settle]
  refine (RunAlongside.record _).bind fun _ => ?_
  intro s s' hs
  have hcall := h.expand frame hframe path tag.view hs.host
  exact (runAlongside_attend hframes hbelow tag none hcall).bind
    (runAlongside_settle fun _ => .pure ()) s s' hs

lemma runAlongside_renderSection (fuel : Nat) (tag : Section) :
    RunAlongside R K (r.renderSection below fuel here tag)
      (r.renderSection below fuel { here with scope := frames } tag) := by
  have hbody (elem : F) : RunAlongside R K (below (here.inside elem) tag.body)
      (below { here.inside elem with scope := elem :: frames } tag.body) :=
    hbelow (.cons elem hframes) tag.body
  refine runAlongside_owner_bind h hframes tag.path (.pure ()) fun frame hframe answer => ?_
  cases answer with
  | field elem =>
    refine (hbody elem).bind fun _ => ?_
    exact (relates_runAlongside h).renderElements fuel frame tag.path _ _ hbody
  | lambda => exact runAlongside_expandLambda hframes hbelow h hframe _ _
  | notFound | broken | consumed => exact .pure ()

lemma runAlongside_renderInverted (tag : Section) :
    RunAlongside R K (r.renderInverted below here tag)
      (r.renderInverted below { here with scope := frames } tag) := by
  refine runAlongside_owner_bind h hframes tag.path (hbelow hframes tag.body)
    fun frame _ answer => ?_
  cases answer with
  | field _ | lambda => exact .pure ()
  | notFound | broken | consumed => exact hbelow hframes tag.body

lemma runAlongside_renderNode (fuel : Nat) (node : Node) :
    RunAlongside R K (r.renderNode below fuel here node)
      (r.renderNode below fuel { here with scope := frames } node) := by
  cases node with
  | text span => exact .ofWrite (r.sink.runAlongside_writeText _)
  | variableTag tag =>
    exact runAlongside_writeValue h hframes
      (fun _ hframe => runAlongside_expandLambda hframes hbelow h hframe) _ _
  | partialTag tag => exact runAlongside_renderPartial hframes hbelow tag
  | sectionTag tag =>
    rw [renderNode, renderNode]
    split
    · exact runAlongside_renderInverted hframes hbelow h tag
    · exact runAlongside_renderSection hframes hbelow h fuel tag

end

/-- Induction on the fuel: the frames that know nothing stay in the stack, below those that sections
add to it. -/
theorem runAlongside_renderNodes (h : r.host.Bystanders R K) (fuel : Nat) {here : Setting F}
    {frames : List F} (hframes : Interspersed K here.scope frames) (range : NodeRange) :
    RunAlongside R K (r.renderNodes fuel here range)
      (r.renderNodes fuel { here with scope := frames } range) := by
  induction fuel generalizing here frames range with
  | zero => exact .throw _
  | succ fuel ih =>
    exact .forM _ fun node =>
      runAlongside_renderNode hframes (fun hframes => ih hframes) h fuel node

/-- A frame that knows nothing can be put into the context stack wherever one likes: the rendering
comes to the same end, with the same bytes in the sink, and with the same calls of all other
frames. -/
theorem renderNodes_insert {unknowing : F} (h : r.host.Bystanders R (· = unknowing)) (fuel : Nat)
    (here : Setting F) {inner outer : List F} (hscope : here.scope = inner ++ outer)
    (range : NodeRange) (s : RenderState F σ τ) (hs : R s.host s.host) :
    let one := r.renderNodes fuel here range s
    let other := r.renderNodes fuel { here with scope := inner ++ unknowing :: outer } range s
    outcome other = outcome one ∧
      (reached other).sink = (reached one).sink ∧
      (reached other).output = (reached one).output ∧
      R (reached one).host (reached other).host ∧
      Interspersed (Event.PassedOver (· = unknowing)) (reached one).events
        (reached other).events := by
  have hframes : Interspersed (· = unknowing) here.scope (inner ++ unknowing :: outer) := by
    rw [hscope]
    exact (Interspersed.refl inner).append (.extra (P := (· = unknowing)) rfl (.refl outer))
  have hend := runAlongside_renderNodes h fuel hframes range s s ⟨hs, rfl, rfl, .refl _⟩
  have halongside := hend.alongside
  exact ⟨hend.outcome_eq, halongside.sink_eq, halongside.output_eq, halongside.host,
    halongside.events⟩

/-! ### A frame that counts -/

/-- The frame `true` knows every name but `n`: it is the one element of each, and `l` is a lambda.
The frame `false` knows nothing and counts how often it is asked. -/
def countingCalls : Host Bool Nat where
  get frame path index n :=
    if !frame then (.ok .notFound, n + 1)
    else if path = ⟨[['n']]⟩ then (.ok .notFound, n)
    else if path = ⟨[['l']]⟩ then (.ok .lambda, n)
    else (.ok (if index = 0 then .field true else .consumed), n)
  interpolate frame path _ n :=
    if !frame then .answer (.ok .notFound) (n + 1)
    else if path = ⟨[['n']]⟩ then .answer (.ok .notFound) n
    else .write false ['x'] fun _ => .answer (.ok .field) n
  expand _ _ _ n := .render "({{.}})".toList n fun _ n => .answer (.ok .lambda) n
  hint _ _ n := ((.notFound, 0), n)

/-- What it has counted makes no difference. -/
lemma bystanders_countingCalls : countingCalls.Bystanders (fun _ _ => True) (· = false) where
  knowsNothing := by
    rintro _ rfl
    exact ⟨fun _ _ _ _ _ => ⟨rfl, trivial⟩, fun _ _ _ _ _ => .answer trivial⟩
  get frame path index s s' _ := by
    refine ⟨?_, trivial⟩
    simp only [countingCalls]
    split_ifs <;> rfl
  interpolate frame path escaped s s' _ := by
    simp only [countingCalls]
    split_ifs
    · exact .answer _ trivial
    · exact .answer _ trivial
    · exact .write _ _ fun _ => .answer _ trivial
  expand _ _ _ _ _ _ _ := .render _ trivial fun _ _ _ _ => .answer _ trivial

/-- A rendering into a buffer, whose only partial says `{{x}}`. -/
def countingRun (t : Template) (scope : List Bool) :
    EStateM.Result Halt (RenderState Bool Nat ByteArray) Unit :=
  let named : Template := ⟨[], ⟨[.variableTag ⟨⟨[['x']]⟩, true, ⟨0, 0⟩⟩]⟩, ⟨0, 1⟩⟩
  let r : Renderer Bool Nat ByteArray := ⟨countingCalls, .buffer, .standard, fun _ => some named⟩
  r.renderNodes 9 ⟨t, scope, 0⟩ t.root (.start 0 .empty)

/-- A counting frame on top of the root counts the calls it gets in sections, a partial and a
lambda, and nobody else notices. -/
theorem renderNodes_insert_counting :
    ∃ t, Template.compile "{{#s}}{{>p}}{{.}}{{/s}}{{#l}}{{/l}}{{^n}}{{n}}!{{/n}}".toList
        .standard = .ok t ∧
      countingCalls.Bystanders (fun _ _ => True) (· = false) ∧
      outcome (countingRun t [false, true]) = outcome (countingRun t [true]) ∧
      (reached (countingRun t [false, true])).sink = (reached (countingRun t [true])).sink ∧
      Interspersed (Event.PassedOver (· = false)) (reached (countingRun t [true])).events
        (reached (countingRun t [false, true])).events ∧
      (reached (countingRun t [true])).sink = Text.bytes "xx(x)!".toList ∧
      (reached (countingRun t [true])).host = 0 ∧
      (reached (countingRun t [false, true])).host = 5 := by
  have hrun : (Template.compile "{{#s}}{{>p}}{{.}}{{/s}}{{#l}}{{/l}}{{^n}}{{n}}!{{/n}}".toList
      .standard).map (fun t => ((reached (countingRun t [true])).sink.data,
        (reached (countingRun t [true])).host, (reached (countingRun t [false, true])).host)) =
      .ok ((Text.bytes "xx(x)!".toList).data, 0, 5) := by
    decide +kernel
  obtain ⟨t, hcompile, hrun⟩ := exists_eq_ok_of_map_eq_ok hrun
  simp only [Prod.mk.injEq] at hrun
  obtain ⟨hsink, hnone, hcount⟩ := hrun
  obtain ⟨houtcome, hsame, -, -, hevents⟩ := renderNodes_insert
    (r := ⟨countingCalls, .buffer, .standard, fun _ => some _⟩) bystanders_countingCalls 9
    ⟨t, [true], 0⟩ (show [true] = [] ++ [true] from rfl) t.root (.start 0 .empty) trivial
  exact ⟨t, hcompile, bystanders_countingCalls, houtcome, hsame, hevents, ByteArray.ext hsink,
    hnone, hcount⟩

end Renderer

end Mustache
