import Mustache.Proofs.Rendering.Bookkeeping

/-!
# Renderings leave the output where they found it

Every part of a rendering keeps the output where the history says that it stands, and gives the
indentation back that it found. This holds of parts that fail as well, so a lambda that has had a
text rendered in vain can go on writing: what it writes is indented as if nothing had happened.
-/

namespace Mustache

open Text

variable {F σ τ ε α : Type}

lemma startsLineAfter_true_iff (text : Text) :
    startsLineAfter true text = true ↔ text = [] ∨ text.endsLine = true := by
  by_cases hnil : text = []
  · simp [hnil]
  · rw [startsLineAfter_of_ne_nil hnil]
    simp [hnil]

/-! ### Asking the host -/

lemma keepsTidy_settle {report : ε → RenderError} {path : Path} {done : HostResult → Event F}
    {next : Resolution → RenderM F σ τ α}
    (hdone : ∀ result, KeepsTidy (RenderM.record (done result) : RenderM F σ τ Unit))
    (hnext : ∀ answer, KeepsTidy (next answer)) (answer : Option ε × HostResult) :
    KeepsTidy (settle report path done next answer) := by
  apply (hdone answer.2).bind
  intro _
  rcases answer with ⟨_ | e, _ | a⟩
  · exact .throw _
  · exact hnext a
  · exact .throw _
  · exact .throw _

namespace Renderer

variable (r : Renderer F σ τ)

lemma keepsTidy_lookUp (frame : F) (path : Path) (index : Nat) :
    KeepsTidy (r.lookUp frame path index) := by
  intro s
  have hhost : StaysTidy s { s with host := (r.host.get frame path index s.host).2 } :=
    .of_eq rfl rfl rfl
  exact hhost.trans (.record _ rfl rfl rfl)

/-- Induction on what the host does. -/
lemma keepsTidy_serve (escaped : Bool) (failure : Option SinkError) (call : Interpolation σ) :
    KeepsTidy (r.serve escaped failure call) := by
  induction call generalizing failure with
  | answer result host => exact fun _ => .of_eq rfl rfl rfl
  | remark remark next ih =>
    intro s
    have hremarked := StaysTidy.record s (e := .remarked remark) rfl rfl rfl
    exact hremarked.trans (ih failure _)
  | write raw text next ih =>
    intro s
    cases failure with
    | some e => exact ih (.error e.kind) (some e) s
    | none =>
      have hwritten := r.sink.keepsTidy_writeData text (escaped && !raw) s
      cases hwrite : r.sink.writeData text (escaped && !raw) s with
      | ok a s₁ =>
        rw [hwrite] at hwritten
        rw [r.serve_write_of_ok hwrite]
        exact hwritten.trans (ih (.ok ()) none s₁)
      | error e s₁ =>
        rw [hwrite] at hwritten
        rw [r.serve_write_of_error hwrite]
        exact hwritten.trans (ih (.error e.kind) (some e) s₁)

lemma keepsTidy_interpolate (frame : F) (path : Path) (escaped : Bool) :
    KeepsTidy (r.interpolate frame path escaped) := by
  rw [interpolate_eq_settle]
  apply KeepsTidy.get_bind
  intro s
  apply (r.keepsTidy_serve escaped none _).bind
  exact keepsTidy_settle (fun _ => .record rfl rfl rfl) fun answer => .pure answer

lemma relates_keepsTidy : Relates (fun _ act _ => KeepsTidy act) r r where
  toComposes := KeepsTidy.composes
  escaping_eq := rfl
  unfinished := .throw _
  lookUp_bind := KeepsTidy.composes.keptByLookUp r r (fun _ _ => .throw _) r.keepsTidy_lookUp
  interpolate := r.keepsTidy_interpolate
  writeText _ := .ofWrite (r.sink.keepsTidy_writeText _)

/-! ### Nested renderings -/

lemma keepsTidy_checkDepth (depth : Nat) (name : Text) : KeepsTidy (r.checkDepth depth name) := by
  rw [checkDepth]
  split
  · apply KeepsTidy.bind
    · exact .record rfl rfl rfl
    · exact fun _ => .throw _
  · exact .pure ()

/-- A partial takes its indentation away even if it stops. -/
lemma keepsTidy_partial {act : RenderM F σ τ Unit} (h : KeepsTidy act) (name indent : Text) :
    KeepsTidy (enclosed name indent (indented indent act)) := by
  intro s
  let before : RenderState F σ τ := { s.record (.entered name indent) with
    output := { s.output with indent := s.output.indent ++ indent } }
  have hinside : StaysTidy before (reached (act before)) := h before
  have htake : (reached (act before)).output.indent.take s.output.indent.length =
      s.output.indent := by
    rw [hinside.indent_eq]
    exact List.take_left
  rw [enclosed_eq_bracket, reached_bracket, indented_eq_bracket, reached_bracket]
  have hevents : before.events = s.events ++ [.entered name indent] :=
    RenderState.events_record s _
  apply StaysTidy.nested hevents rfl rfl hinside
  · exact RenderState.events_record _ _
  · exact congrArg (fun indent => { (reached (act before)).output with indent }) htake
  · rfl

/-- The text of a lambda is rendered as a partial that is not indented. -/
lemma keepsTidy_enclosed {act : RenderM F σ τ Unit} (h : KeepsTidy act) (name : Text) :
    KeepsTidy (enclosed name [] act) := by
  intro s
  have hinside := h (s.record (.entered name []))
  rw [enclosed_eq_bracket, reached_bracket]
  apply StaysTidy.nested (RenderState.events_record s _) _ rfl hinside
  · exact RenderState.events_record _ _
  · rw [← show _ = s.output.indent from hinside.indent_eq]
    rfl
  · rfl
  · simp [RenderState.record]

lemma keepsTidy_onAside {act : RenderM F σ τ Unit} (h : KeepsTidy act) :
    KeepsTidy (onAside act) := by
  intro s
  rw [onAside_eq_bracket, reached_bracket]
  exact (h { s with output := .aside }).aside

/-! ### Lambdas and nodes -/

section

variable {below : Nested F σ τ} (hbelow : ∀ here range, KeepsTidy (below here range))

include hbelow

lemma keepsTidy_renderLambdaText (here : Setting F) (tag : LambdaTag) (text : Text) :
    KeepsTidy (r.renderLambdaText below here tag text) := by
  apply (r.keepsTidy_checkDepth _ _).bind
  intro _
  cases Template.compile text tag.delimiters with
  | error e =>
    apply KeepsTidy.bind
    · exact .record rfl rfl rfl
    · exact fun _ => .throw _
  | ok template =>
    have hact := keepsTidy_enclosed (hbelow (here.nested template) template.root)
      LambdaTag.lambdaName
    dsimp only
    split
    · exact (keepsTidy_onAside hact).bind fun _ => .ofWrite (r.sink.keepsTidy_writeData _ _)
    · exact hact

/-- Induction on what the host does, which goes on after each failure. -/
lemma keepsTidy_attend (here : Setting F) (tag : LambdaTag) (failure : Option RenderError)
    (call : Expansion σ) : KeepsTidy (r.attend below here tag failure call) := by
  induction call generalizing failure with
  | answer result host => exact fun _ => .of_eq rfl rfl rfl
  | remark remark next ih =>
    intro s
    have hremarked := StaysTidy.record s (e := .remarked remark) rfl rfl rfl
    exact hremarked.trans (ih failure _)
  | write text next ih =>
    intro s
    have hwritten := r.sink.keepsTidy_writeData text tag.escapes s
    cases hwrite : r.sink.writeData text tag.escapes s with
    | ok a s₁ =>
      rw [hwrite] at hwritten
      rw [r.attend_write_of_ok hwrite]
      exact hwritten.trans (ih true failure s₁)
    | error e s₁ =>
      rw [hwrite] at hwritten
      rw [r.attend_write_of_error hwrite]
      exact hwritten.trans (ih false _ s₁)
  | render text host next ih =>
    intro s
    have hhost : StaysTidy s { s with host } := .of_eq rfl rfl rfl
    have hrendered := hhost.trans
      (r.keepsTidy_renderLambdaText hbelow here tag text { s with host })
    cases hrender : r.renderLambdaText below here tag text { s with host } with
    | ok a s₁ =>
      rw [hrender] at hrendered
      rw [r.attend_render_of_ok hrender]
      exact hrendered.trans (ih true s₁.host failure s₁)
    | error halt s₁ =>
      rw [hrender] at hrendered
      cases halt with
      | unfinished =>
        rw [r.attend_render_of_unfinished hrender]
        exact hrendered
      | failed e =>
        rw [r.attend_render_of_failed hrender]
        exact hrendered.trans (ih false s₁.host _ s₁)

lemma keepsTidy_expandLambda (here : Setting F) (frame : F) (path : Path) (tag : LambdaTag) :
    KeepsTidy (r.expandLambda below here frame path tag) := by
  rw [expandLambda_eq_settle]
  apply KeepsTidy.bind
  · exact .record rfl rfl rfl
  · intro _
    apply KeepsTidy.get_bind
    intro s
    apply (r.keepsTidy_attend hbelow here tag none _).bind
    exact keepsTidy_settle (fun _ => .record rfl rfl rfl) fun _ => .pure ()

lemma keepsTidy_renderPartial (here : Setting F) (tag : Partial) :
    KeepsTidy (r.renderPartial below here tag) := by
  rw [renderPartial]
  cases r.partials tag.name with
  | none => exact .pure ()
  | some template =>
    apply (r.keepsTidy_checkDepth _ _).bind
    intro _
    exact keepsTidy_partial (hbelow (here.nested template) template.root) tag.name tag.indent

lemma keepsTidy_renderNode (fuel : Nat) (here : Setting F) (node : Node) :
    KeepsTidy (r.renderNode below fuel here node) := by
  have h := r.relates_keepsTidy
  exact h.renderNode below below (hbelow here) (r.keepsTidy_expandLambda hbelow here) fuel fuel
    (fun elem => hbelow (here.inside elem)) (h.renderElements fuel)
    (r.keepsTidy_renderPartial hbelow here) node

end

/-! ### Whole renderings -/

/-- Induction on the fuel: whatever is rendered inside of a node is rendered with less of it. -/
lemma keepsTidy_renderNodes (fuel : Nat) (here : Setting F) (range : NodeRange) :
    KeepsTidy (r.renderNodes fuel here range) :=
  r.relates_keepsTidy.renderNodes (fun fuel here node hbelow => r.keepsTidy_renderNode hbelow fuel
    here node) fuel here range

/-- Flushing the sink is the last thing that happens, and begins no write. -/
lemma noted_render (fuel : Nat) (template : Template) (root : F) (host : σ) (sink : τ) :
    Noted (reached (r.render fuel template root (.start host sink))).events := by
  have hnodes := (r.keepsTidy_renderNodes fuel ⟨template, [root], 0⟩ template.root
    (.start host sink)).tidy (RenderState.tidy_start host sink)
  rw [render]
  cases hresult : r.renderNodes fuel ⟨template, [root], 0⟩ template.root (.start host sink) with
  | error e s =>
    rw [hresult] at hnodes
    rw [bind_apply_of_error hresult]
    exact hnodes.noted
  | ok u s =>
    rw [hresult] at hnodes
    rw [bind_apply_of_ok hresult, RenderM.reached_ofWrite, Sink.finish]
    have hflushed (result : Except SinkError Unit) (after : τ) :
        Noted (({ s with sink := after } : RenderState F σ τ).record (.flushed result)).events := by
      rw [RenderState.events_record]
      exact hnodes.noted.concat_of_none rfl
    cases r.sink.flush s.sink with
    | mk result after => cases result <;> exact hflushed _ after

/-- Whenever literal text or data is about to be written to the sink, the indentation is that of the
partials being rendered, outermost first; and as long as no write has been refused, the output
stands at the start of a line just if nothing has been taken or a line feed was taken last. And when
nodes have been rendered, well or not, the indentation is what it was before. -/
theorem follows_of_writing_and_indent_eq (fuel : Nat) :
    (∀ (template : Template) (root : F) (host : σ) (sink : τ) (before after : List (Event F))
      (o : Output), (reached (r.render fuel template root (.start host sink))).events =
          before ++ .writing o :: after → o.scratch = none →
        o.indent = indentation before ∧
        ((∀ e, .refused e ∉ before) → (o.atLineStart = true ↔
          (writes before).flatten = [] ∨ endsLine (writes before).flatten = true))) ∧
    ∀ (here : Setting F) (range : NodeRange) (s : RenderState F σ τ),
      (reached (r.renderNodes fuel here range s)).output.indent = s.output.indent := by
  constructor
  · intro template root host sink before after o hevents hnone
    have hfollows := r.noted_render fuel template root host sink before o after hevents hnone
    refine ⟨hfollows.indent_eq, fun hrefused => ?_⟩
    rw [hfollows.atLineStart_eq hrefused]
    exact startsLineAfter_true_iff _
  · intro here range s
    exact (r.keepsTidy_renderNodes fuel here range s).indent_eq

end Renderer

/-- Whether a write was refused at an event. -/
def Event.isRefusal : Event F → Bool
  | .refused _ => true
  | _          => false

lemma exists_eq_append_of_writing? {events : List (Event F)} {n : Nat} {o : Output}
    (h : events[n]?.bind Event.writing? = some o) :
    events = events.take n ++ .writing o :: events.drop (n + 1) := by
  obtain ⟨e, he, ho⟩ := Option.bind_eq_some_iff.1 h
  obtain ⟨hn, rfl⟩ := List.getElem?_eq_some_iff.1 he
  have hwriting : events[n] = .writing o := by
    cases hcase : events[n] with
    | writing o' =>
      rw [hcase] at ho
      cases ho
      rfl
    | _ =>
      rw [hcase] at ho
      cases ho
  rw [← hwriting, List.getElem_cons_drop, List.take_append_drop]

namespace Renderer

/-- Two partials; the second one fails after its first line. -/
def heldPartials (name : Text) : Option Template :=
  (Template.compile (if name = ['p'] then "{{{l}}}".toList else "v\n{{{f}}}".toList)
    .standard).toOption

/-- Data with a value that fails, and a lambda that goes on after a partial has failed in the text
it has rendered. -/
def heldData : Value :=
  .map [(['l'], .lambda 0 ⟨[.tryRender "u\n {{>q}}\n".toList, .write ['w']], .ok .field⟩),
    (['f'], .failing .aborted)]

/-- Renderings of served values, with these partials. -/
def heldRenderer : Renderer Frame Calls ByteArray :=
  ⟨Served.host, .buffer, .standard, heldPartials⟩

/-- A template that is indented as a partial, with this lambda. -/
def heldRun (t : Template) : EStateM.Result Halt (RenderState Frame Calls ByteArray) Unit :=
  heldRenderer.render 6 t (.root heldData) (.start [] .empty)

/-- After the second partial has failed, the lambda writes a line that is indented as the first
partial is. -/
theorem follows_of_writing_heldRun :
    ∃ t before o after, Template.compile "  {{>p}}\n".toList .standard = .ok t ∧
      (reached (heldRun t)).events = before ++ .writing o :: after ∧ o.scratch = none ∧
      (∀ e, .refused e ∉ before) ∧
      firstFailure before = some (.interpolation ['f'] .aborted) ∧
      (writes before).flatten = "  u\n   v\n".toList ∧ o.indent = indentation before ∧
      indentation before = "  ".toList ∧ o.atLineStart = true ∧
      (writes (reached (heldRun t)).events).flatten = "  u\n   v\n  w".toList := by
  have hrun : (Template.compile "  {{>p}}\n".toList .standard).map (fun t => decide (
      ((reached (heldRun t)).events[15]?.bind Event.writing?).map (·.scratch.isNone) = some true ∧
      ((reached (heldRun t)).events.take 15).any Event.isRefusal = false ∧
      firstFailure ((reached (heldRun t)).events.take 15) =
        some (.interpolation ['f'] .aborted) ∧
      (writes ((reached (heldRun t)).events.take 15)).flatten = "  u\n   v\n".toList ∧
      indentation ((reached (heldRun t)).events.take 15) = "  ".toList ∧
      (writes (reached (heldRun t)).events).flatten = "  u\n   v\n  w".toList)) = .ok true := by
    decide +kernel
  obtain ⟨t, hcompile, hrun⟩ := exists_eq_ok_of_map_eq_ok hrun
  obtain ⟨hwriting, hrefusal, hfailure, hwrites, hindentation, hall⟩ := of_decide_eq_true hrun
  obtain ⟨o, ho, hnone⟩ := Option.map_eq_some_iff.1 hwriting
  have hevents := exists_eq_append_of_writing? ho
  have hrefused : ∀ e, .refused e ∉ (reached (heldRun t)).events.take 15 :=
    fun e he => List.any_eq_false.1 hrefusal _ he rfl
  have hnone' : o.scratch = none := Option.isNone_iff_eq_none.1 hnone
  obtain ⟨hindent, hstart⟩ := (heldRenderer.follows_of_writing_and_indent_eq 6).1 t
    (.root heldData) [] .empty _ _ o hevents hnone'
  refine ⟨t, _, o, _, hcompile, hevents, hnone', hrefused, hfailure, hwrites, hindent,
    hindentation, (hstart hrefused).2 ?_, hall⟩
  rw [hwrites]
  exact .inr rfl

end Renderer

end Mustache
