import Mustache.Proofs.Rendering.History

/-!
# Relations between renderings

What holds of all renderings is proved by a relation between what two of them do, or by a property
of what one does, which is a relation that leaves the other aside. If the relation is kept when one
action follows another, and holds of what the two ask of the host and the sink, it holds of a node
as soon as it holds of what is rendered inside of the node. The case splits over the nodes and over
the answers of the host are made here, once for all relations.
-/

namespace Mustache

open RenderM Renderer

variable {F σ τ τ' : Type}

/-- A relation between the actions of two renderings, with sinks of their own. -/
abbrev ActionRel (F σ τ τ' : Type) := (α : Type) → RenderM F σ τ α → RenderM F σ τ' α → Prop

/-- The relation is kept when one action follows another. -/
structure ActionRel.Composes (rel : ActionRel F σ τ τ') : Prop where
  pure : ∀ {α : Type} (a : α), rel α (pure a) (pure a)
  bind : ∀ {α β : Type} {act : RenderM F σ τ α} {act' : RenderM F σ τ' α}
    {next : α → RenderM F σ τ β} {next' : α → RenderM F σ τ' β},
    rel α act act' → (∀ a, rel β (next a) (next' a)) → rel β (act >>= next) (act' >>= next')

/-- The relation is kept when an element is looked up first, if what follows fails when the host
does, in the way in which a rendering fails then. -/
def ActionRel.KeptByLookUp (rel : ActionRel F σ τ τ') (r : Renderer F σ τ) (r' : Renderer F σ τ') :
    Prop :=
  ∀ {α : Type} {frame : F} {path : Path} {index : Nat}
    {next : Except ResolveError (Lookup F) → RenderM F σ τ α}
    {next' : Except ResolveError (Lookup F) → RenderM F σ τ' α},
    (∀ lookup, rel α (next (.ok lookup)) (next' (.ok lookup))) →
    (∀ e, next (.error e) = fail (.interpolation (Query.element path index).reported.display e)) →
    (∀ e, next' (.error e) = fail (.interpolation (Query.element path index).reported.display e)) →
      rel α (r.lookUp frame path index >>= next) (r'.lookUp frame path index >>= next')

namespace ActionRel.Composes

variable {rel : ActionRel F σ τ τ'}

lemma forM (h : rel.Composes) {γ : Type} {step : γ → RenderM F σ τ PUnit}
    {step' : γ → RenderM F σ τ' PUnit} (xs : List γ) (hstep : ∀ x, rel _ (step x) (step' x)) :
    rel _ (xs.forM step) (xs.forM step') := by
  induction xs with
  | nil => exact h.pure _
  | cons x xs ih => exact h.bind (hstep x) fun _ => ih

/-- A relation that holds whenever the two fail in the same way. -/
lemma keptByLookUp (h : rel.Composes) (r : Renderer F σ τ) (r' : Renderer F σ τ')
    (hfail : ∀ (α : Type) (e : RenderError), rel α (fail e) (fail e))
    (hlookUp : ∀ frame path index, rel _ (r.lookUp frame path index) (r'.lookUp frame path index)) :
    rel.KeptByLookUp r r' := by
  intro α frame path index next next' hok herror herror'
  refine h.bind (hlookUp frame path index) fun answer => ?_
  cases answer with
  | ok lookup => exact hok lookup
  | error e =>
    rw [herror, herror']
    exact hfail α _

end ActionRel.Composes

/-! ### Nodes -/

/-- The relation holds of what the two renderers ask the host for, and of literal text. -/
structure Relates (rel : ActionRel F σ τ τ') (r : Renderer F σ τ) (r' : Renderer F σ τ') : Prop
    extends rel.Composes where
  escaping_eq : r'.options.escaping = r.options.escaping
  unfinished : rel Unit (throw .unfinished) (throw .unfinished)
  lookUp_bind : rel.KeptByLookUp r r'
  interpolate : ∀ frame path escaped,
    rel _ (r.interpolate frame path escaped) (r'.interpolate frame path escaped)
  writeText : ∀ text, rel _ (ofWrite (r.sink.writeText text)) (ofWrite (r'.sink.writeText text))

namespace Relates

variable {rel : ActionRel F σ τ τ'} {r : Renderer F σ τ} {r' : Renderer F σ τ'}
  (h : Relates rel r r')

include h

lemma owner (path : Path) (frames : List F) :
    rel _ (r.owner path frames) (r'.owner path frames) := by
  induction frames with
  | nil => exact h.pure _
  | cons frame frames ih =>
    refine h.lookUp_bind (fun lookup => ?_) (fun e => ?_) fun e => ?_
    · cases lookup with
      | notFound => exact ih
      | broken | consumed | lambda | field elem => exact h.pure _
    · rw [Query.display_reported_element_zero]
    · rw [Query.display_reported_element_zero]

lemma renderElements (n : Nat) (frame : F) (path : Path) (body : F → RenderM F σ τ Unit)
    (body' : F → RenderM F σ τ' Unit) (hbody : ∀ elem, rel _ (body elem) (body' elem)) :
    rel _ (r.renderElements frame path body n 1) (r'.renderElements frame path body' n 1) := by
  have hfrom (index : Nat) (hindex : index ≠ 0) :
      rel _ (r.renderElements frame path body n index)
        (r'.renderElements frame path body' n index) := by
    induction n generalizing index with
    | zero => exact h.unfinished
    | succ n ih =>
      refine h.lookUp_bind (fun lookup => ?_) (fun e => ?_) fun e => ?_
      · cases lookup with
        | field elem => exact h.bind (hbody elem) fun _ => ih (index + 1) index.succ_ne_zero
        | notFound | broken | consumed | lambda => exact h.pure _
      · rw [Query.reported_element_of_ne_zero hindex]
      · rw [Query.reported_element_of_ne_zero hindex]
  exact hfrom 1 Nat.one_ne_zero

/-- Induction on the fuel: what is inside of a node is rendered with less of it. -/
lemma renderNodes
    (hnode : ∀ (fuel : Nat) (here : Setting F) (node : Node),
      (∀ here range, rel _ (r.renderNodes fuel here range) (r'.renderNodes fuel here range)) →
        rel _ (r.renderNode (r.renderNodes fuel) fuel here node)
          (r'.renderNode (r'.renderNodes fuel) fuel here node))
    (fuel : Nat) (here : Setting F) (range : NodeRange) :
    rel _ (r.renderNodes fuel here range) (r'.renderNodes fuel here range) := by
  induction fuel generalizing here range with
  | zero => exact h.unfinished
  | succ fuel ih => exact h.forM _ fun node => hnode fuel here node ih

variable (below : Nested F σ τ) (below' : Nested F σ τ') {here : Setting F}
  (hbelow : ∀ range, rel _ (below here range) (below' here range))

lemma renderInverted (tag : Section) (hbody : rel _ (below here tag.body) (below' here tag.body)) :
    rel _ (r.renderInverted below here tag) (r'.renderInverted below' here tag) := by
  refine h.bind (h.owner tag.path here.scope) fun found => ?_
  rcases found with _ | ⟨frame, answer⟩
  · exact hbody
  · cases answer with
    | field _ | lambda => exact h.pure _
    | notFound | broken | consumed => exact hbody

variable (hexpand : ∀ frame path tag,
    rel _ (r.expandLambda below here frame path tag) (r'.expandLambda below' here frame path tag))

include hexpand

lemma writeValue (path : Path) (escaped : Bool) (frames : List F) :
    rel _ (r.writeValue below here path escaped frames)
      (r'.writeValue below' here path escaped frames) := by
  induction frames with
  | nil => exact h.pure _
  | cons frame frames ih =>
    refine h.bind (h.interpolate frame path escaped) fun answer => ?_
    cases answer with
    | notFound => exact ih
    | lambda => exact hexpand _ _ _
    | broken | consumed | field => exact h.pure _

variable (fuel fuel' : Nat)
  (hinside : ∀ elem range, rel _ (below (here.inside elem) range) (below' (here.inside elem) range))
  (helements : ∀ (frame : F) (path : Path) (body : F → RenderM F σ τ Unit)
    (body' : F → RenderM F σ τ' Unit), (∀ elem, rel _ (body elem) (body' elem)) →
      rel _ (r.renderElements frame path body fuel 1) (r'.renderElements frame path body' fuel' 1))

include hinside helements

lemma renderSection (tag : Section) :
    rel _ (r.renderSection below fuel here tag) (r'.renderSection below' fuel' here tag) := by
  refine h.bind (h.owner tag.path here.scope) fun found => ?_
  rcases found with _ | ⟨frame, answer⟩
  · exact h.pure _
  · cases answer with
    | field elem =>
      refine h.bind (hinside elem tag.body) fun _ => ?_
      exact helements _ _ _ _ fun elem => hinside elem tag.body
    | lambda => exact hexpand _ _ _
    | notFound | broken | consumed => exact h.pure _

variable (hpartial : ∀ tag,
    rel _ (r.renderPartial below here tag) (r'.renderPartial below' here tag))

include hbelow hpartial

/-- The relation holds of the two renderings of a node if it does of what is rendered inside. -/
lemma renderNode (node : Node) :
    rel _ (r.renderNode below fuel here node) (r'.renderNode below' fuel' here node) := by
  cases node with
  | text span => exact h.writeText _
  | variableTag tag =>
    simp only [Renderer.renderNode, renderVariable, h.escaping_eq]
    exact h.writeValue below below' hexpand _ _ _
  | partialTag tag => exact hpartial tag
  | sectionTag tag =>
    rw [Renderer.renderNode, Renderer.renderNode]
    split
    · exact h.renderInverted below below' tag (hbelow tag.body)
    · exact h.renderSection below below' hexpand fuel fuel' hinside helements tag

end Relates

/-! ### Nested renderings -/

/-- The relation holds of what the two renderers do around a nested rendering. -/
structure RelatesNested (rel : ActionRel F σ τ τ') (r : Renderer F σ τ) (r' : Renderer F σ τ') :
    Prop extends rel.Composes where
  partials_eq : r'.partials = r.partials
  checkDepth_bind : ∀ (depth : Nat) (name : Text) {next : RenderM F σ τ Unit}
    {next' : RenderM F σ τ' Unit}, rel _ next next' →
      rel _ (r.checkDepth depth name >>= fun _ => next)
        (r'.checkDepth depth name >>= fun _ => next')
  reject : ∀ e : ParseError, rel Unit (RenderM.record (.rejected e) >>= fun _ => fail (.lambda e))
    (RenderM.record (.rejected e) >>= fun _ => fail (.lambda e))
  enclosed : ∀ (name indent : Text) {act : RenderM F σ τ Unit} {act' : RenderM F σ τ' Unit},
    rel _ act act' → rel _ (enclosed name indent act) (enclosed name indent act')
  indented : ∀ (indent : Text) {act : RenderM F σ τ Unit} {act' : RenderM F σ τ' Unit},
    rel _ act act' → rel _ (indented indent act) (indented indent act')
  onAside : ∀ {act : RenderM F σ τ Unit} {act' : RenderM F σ τ' Unit},
    rel _ act act' → rel _ (onAside act) (onAside act')
  writeData : ∀ text escaped,
    rel _ (ofWrite (r.sink.writeData text escaped)) (ofWrite (r'.sink.writeData text escaped))

namespace RelatesNested

variable {rel : ActionRel F σ τ τ'} {r : Renderer F σ τ} {r' : Renderer F σ τ'}
  (h : RelatesNested rel r r') (below : Nested F σ τ) (below' : Nested F σ τ') {here : Setting F}
  (hbelow : ∀ template range,
    rel _ (below (here.nested template) range) (below' (here.nested template) range))

include h hbelow

lemma renderLambdaText (tag : LambdaTag) (text : Text) :
    rel _ (r.renderLambdaText below here tag text) (r'.renderLambdaText below' here tag text) := by
  refine h.checkDepth_bind _ _ ?_
  cases Template.compile text tag.delimiters with
  | error e => exact h.reject e
  | ok template =>
    have hact := h.enclosed LambdaTag.lambdaName [] (hbelow template template.root)
    dsimp only
    split
    · exact h.bind (h.onAside hact) fun _ => h.writeData _ _
    · exact hact

lemma renderPartial (tag : Partial) :
    rel _ (r.renderPartial below here tag) (r'.renderPartial below' here tag) := by
  rw [Renderer.renderPartial, Renderer.renderPartial, h.partials_eq]
  cases r.partials tag.name with
  | none => exact h.pure _
  | some template =>
    refine h.checkDepth_bind _ _ ?_
    exact h.enclosed _ _ (h.indented _ (hbelow template template.root))

end RelatesNested

end Mustache
