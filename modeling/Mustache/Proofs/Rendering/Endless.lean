import Mustache.Proofs.Rendering.Termination

/-!
# Renderings without an end

A host that always has one more element keeps a section from coming to its end, and with the section
whatever it is rendered inside of. No fuel is enough for such a rendering.
-/

namespace Mustache

open Filter

variable {F σ τ α β : Type}

/-! ### What does not end -/

/-- Whatever the state, no fuel is enough for the action. -/
def Unending (act : Nat → RenderM F σ τ α) : Prop := ∀ n s, outcome (act n s) = .error .unfinished

namespace Unending

variable {act : Nat → RenderM F σ τ α}

lemma exists_eq_error (h : Unending act) (n : Nat) (s : RenderState F σ τ) :
    ∃ s', act n s = .error .unfinished s' := by
  have hact := h n s
  cases hresult : act n s with
  | ok a s' =>
    rw [hresult] at hact
    cases hact
  | error e s' =>
    rw [hresult] at hact
    cases hact
    exact ⟨s', rfl⟩

lemma not_concludes (h : Unending act) (s : RenderState F σ τ)
    (result : EStateM.Result Halt (RenderState F σ τ) α) : ¬ Concludes (act · s) result := by
  rintro ⟨hends, hact⟩
  obtain ⟨n, hn⟩ := hact.exists
  apply hends
  rw [← hn]
  exact h n s

lemma bind (h : Unending act) (next : Nat → α → RenderM F σ τ β) :
    Unending fun n => act n >>= next n := by
  intro n s
  obtain ⟨s', hact⟩ := h.exists_eq_error n s
  exact congrArg outcome (bind_apply_of_error hact)

/-- What comes first may succeed. -/
lemma of_bind {first : RenderM F σ τ α} {next : Nat → α → RenderM F σ τ β}
    (h : ∀ s, ∃ a s', first s = .ok a s' ∧ Unending (next · a)) :
    Unending fun n => first >>= next n := by
  intro n s
  obtain ⟨a, s', hfirst, hnext⟩ := h s
  exact (congrArg outcome (bind_apply_of_ok hfirst)).trans (hnext n s')

lemma bracket {enter : RenderState F σ τ → RenderState F σ τ} {value : α → RenderState F σ τ → β}
    {leave : RenderState F σ τ → RenderState F σ τ → RenderState F σ τ} (h : Unending act) :
    Unending fun n => bracket enter value leave (act n) := by
  intro n s
  obtain ⟨s', hact⟩ := h.exists_eq_error n (enter s)
  dsimp only
  rw [Mustache.bracket, hact]
  rfl

end Unending

/-- The host always has one more element. -/
def Host.EndlessAt (host : Host F σ) (frame : F) (path : Path) : Prop :=
  ∀ index s, ∃ elem, (host.get frame path index s).1 = .ok (.field elem)

/-- The action is done, or the fuel is used up. -/
def NeverFails (act : RenderM F σ τ α) : Prop := ∀ s e, outcome (act s) ≠ .error (.failed e)

namespace Renderer

variable (r : Renderer F σ τ)

/-! ### Sections -/

section

variable {frame : F} {path : Path} (hendless : r.host.EndlessAt frame path)

include hendless

lemma exists_lookUp_of_endlessAt (index : Nat) (s : RenderState F σ τ) :
    ∃ elem s', r.lookUp frame path index s = .ok (.ok (.field elem)) s' := by
  obtain ⟨elem, helem⟩ := hendless index s.host
  exact ⟨elem, _, congrArg (EStateM.Result.ok · _) helem⟩

/-- Induction on the fuel for the elements, each of which takes some. -/
lemma outcome_renderElements_of_endlessAt {body : F → RenderM F σ τ Unit}
    (hbody : ∀ elem, NeverFails (body elem)) (n index : Nat) (s : RenderState F σ τ) :
    outcome (r.renderElements frame path body n index s) = .error .unfinished := by
  induction n generalizing index s with
  | zero => rfl
  | succ n ih =>
    obtain ⟨elem, s', hlookUp⟩ := r.exists_lookUp_of_endlessAt hendless index s
    rw [renderElements, bind_apply_of_ok hlookUp]
    have hfails := hbody elem s'
    rcases hresult : body elem s' with ⟨u, s₁⟩ | ⟨e | _, s₁⟩
    · exact (congrArg outcome (bind_apply_of_ok hresult)).trans (ih (index + 1) s₁)
    · rw [hresult] at hfails
      exact absurd rfl (hfails e)
    · exact congrArg outcome (bind_apply_of_error hresult)

lemma unending_renderSection {below : Nat → Nested F σ τ} {here : Setting F} {tag : Section}
    {frames : List F} (hpath : tag.path = path) (hscope : here.scope = frame :: frames)
    (hbody : ∀ n elem, NeverFails (below n (here.inside elem) tag.body)) :
    Unending fun n => r.renderSection (below n) n here tag := by
  intro n s
  obtain ⟨elem, s', hlookUp⟩ := r.exists_lookUp_of_endlessAt hendless 0 s
  have howner : r.owner tag.path here.scope s = .ok (some (frame, .field elem)) s' := by
    rw [hpath, hscope, owner, bind_apply_of_ok hlookUp]
    rfl
  have hfails := hbody n elem s'
  dsimp only
  rw [renderSection, bind_apply_of_ok howner]
  rcases hresult : below n (here.inside elem) tag.body s' with ⟨u, s₁⟩ | ⟨e | _, s₁⟩
  · refine (congrArg outcome (bind_apply_of_ok hresult)).trans ?_
    rw [hpath]
    exact r.outcome_renderElements_of_endlessAt hendless (hbody n) n 1 s₁
  · rw [hresult] at hfails
    exact absurd rfl (hfails e)
  · exact congrArg outcome (bind_apply_of_error hresult)

end

/-! ### What sections are rendered inside of -/

lemma unending_enclosed {act : Nat → RenderM F σ τ Unit} (h : Unending act) (name indent : Text) :
    Unending fun n => enclosed name indent (act n) := by
  simp only [enclosed_eq_bracket]
  exact h.bracket

lemma unending_indented {act : Nat → RenderM F σ τ Unit} (h : Unending act) (indent : Text) :
    Unending fun n => indented indent (act n) := by
  simp only [indented_eq_bracket]
  exact h.bracket

section

variable {below : Nat → Nested F σ τ} {here : Setting F} {template : Template}
  (hdepth : here.depth + 1 ≤ r.options.maxDepth)
  (h : Unending fun n => below n (here.nested template) template.root)

include hdepth h

lemma unending_renderPartial {tag : Partial} (hpartial : r.partials tag.name = some template) :
    Unending fun n => r.renderPartial (below n) here tag := by
  simp only [renderPartial, hpartial, r.checkDepth_bind_of_le hdepth]
  exact unending_enclosed (unending_indented h tag.indent) tag.name tag.indent

/-- The text of a lambda that is not escaped. -/
lemma unending_renderLambdaText {tag : LambdaTag} {text : Text} (hescapes : tag.escapes = false)
    (hcompile : Template.compile text tag.delimiters = .ok template) :
    Unending fun n => r.renderLambdaText (below n) here tag text := by
  simp only [renderLambdaText, r.checkDepth_bind_of_le hdepth, hcompile, hescapes]
  exact unending_enclosed h LambdaTag.lambdaName []

end

section

variable {below : Nat → Nested F σ τ} {here : Setting F} {tag : LambdaTag}

lemma unending_attend_render {text : Text}
    (h : Unending fun n => r.renderLambdaText (below n) here tag text)
    (failure : Option RenderError) (host : σ) (next : Bool → σ → Expansion σ) :
    Unending fun n => r.attend (below n) here tag failure (.render text host next) := by
  intro n s
  obtain ⟨s', hrender⟩ := h.exists_eq_error n { s with host }
  exact congrArg outcome (r.attend_render_of_unfinished hrender)

/-- A host that goes on after a text that is no template. -/
lemma unending_attend_reject {text : Text} {e : ParseError} {next : Bool → σ → Expansion σ}
    (hdepth : here.depth + 1 ≤ r.options.maxDepth)
    (hcompile : Template.compile text tag.delimiters = .error e)
    (h : ∀ failure host, Unending fun n => r.attend (below n) here tag failure (next false host))
    (failure : Option RenderError) (host : σ) :
    Unending fun n => r.attend (below n) here tag failure (.render text host next) := by
  intro n s
  have hrender : ∃ s', r.renderLambdaText (below n) here tag text { s with host } =
      .error (.failed (.lambda e)) s' := by
    rw [renderLambdaText, r.checkDepth_bind_of_le hdepth, hcompile]
    exact ⟨_, rfl⟩
  obtain ⟨s', hrender⟩ := hrender
  dsimp only
  rw [r.attend_render_of_failed hrender]
  exact h _ _ n s'

lemma unending_expandLambda {frame : F} {path : Path}
    (h : ∀ host, Unending fun n =>
      r.attend (below n) here tag none (r.host.expand frame path tag.view host)) :
    Unending fun n => r.expandLambda (below n) here frame path tag := by
  simp only [expandLambda_eq_settle]
  apply Unending.of_bind
  intro s
  refine ⟨(), _, rfl, Unending.of_bind fun s => ⟨s, s, rfl, ?_⟩⟩
  exact (h s.host).bind _

lemma unending_writeValue {frame : F} {path : Path} {escaped : Bool}
    (hlambda : ∀ s, ∃ s', r.interpolate frame path escaped s = .ok .lambda s')
    (h : Unending fun n => r.expandLambda (below n) here frame path (.overVariable escaped))
    (frames : List F) :
    Unending fun n => r.writeValue (below n) here path escaped (frame :: frames) := by
  apply Unending.of_bind
  intro s
  obtain ⟨s', hinterpolate⟩ := hlambda s
  exact ⟨.lambda, s', hinterpolate, h⟩

end

section

variable {t : Template} {scope : List F} {depth : Nat} {range : NodeRange}

/-- Nodes of which the first one is never done. -/
lemma unending_renderNodes {node : Node} {nodes : List Node}
    (hnodes : t.nodes range = node :: nodes)
    (h : Unending fun n => r.renderNode (r.renderNodes n) n ⟨t, scope, depth⟩ node) :
    Unending (r.renderNodes · ⟨t, scope, depth⟩ range) := by
  intro n
  cases n with
  | zero => exact fun _ => rfl
  | succ n =>
    simp only [renderNodes, hnodes]
    exact h.bind (fun n _ => nodes.forM (r.renderNode (r.renderNodes n) n ⟨t, scope, depth⟩)) n

lemma neverFails_renderNodes (hnodes : t.nodes range = []) (n : Nat) :
    NeverFails (r.renderNodes n ⟨t, scope, depth⟩ range) := by
  intro s e
  cases n with
  | zero => exact fun h => by cases h
  | succ n =>
    rw [renderNodes, hnodes]
    exact fun h => by cases h

end

lemma unending_render {template : Template} {root : F}
    (h : Unending (r.renderNodes · ⟨template, [root], 0⟩ template.root)) :
    Unending fun fuel => r.render fuel template root :=
  h.bind fun _ _ => RenderM.ofWrite r.sink.finish

end Renderer

end Mustache
