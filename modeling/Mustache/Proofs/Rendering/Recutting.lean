import Mustache.Proofs.Rendering.Reach
import Mustache.Proofs.Rendering.Streaming

/-!
# Templates whose literal text is cut in different places

Comments, and lines of their own that are taken out, leave cuts in the literal text of a template:
one text becomes several nodes. Two templates that differ only in where their literal text is cut
are rendered alike, as templates of the rendering, as partials, and in the bodies of sections. Only
a lambda could tell them apart, by the source of the body that it sees.
-/

namespace Mustache

open Text

variable {F σ τ α β : Type}

/-! ### Templates cut in different places -/

/-- The host may answer the tag of a section with a lambda, which then sees the source of the
body. -/
def Host.MayExpand (host : Host F σ) (tag : Section) : Prop :=
  tag.inverted = false ∧ ∃ frame s, (host.get frame tag.path 0 s).1 = .ok .lambda

/-- Nodes of one template and of another say the same to a host, but for where literal text is
cut. -/
inductive Recut (host : Host F σ) (t : Template) : Template → List Node → List Node → Prop
  | refl (nodes : List Node) : Recut host t t nodes nodes
  | nil {t' : Template} : Recut host t t' [] []
  | texts {t' : Template} {nodes nodes' : List Node} (spans spans' : List Span)
      (htext : (spans'.map t'.text).flatten = (spans.map t.text).flatten)
      (hrest : Recut host t t' nodes nodes') :
      Recut host t t' (spans.map .text ++ nodes) (spans'.map .text ++ nodes')
  | variableTag {t' : Template} {nodes nodes' : List Node} {tag tag' : Variable}
      (hpath : tag'.path = tag.path) (hescaped : tag'.escaped = tag.escaped)
      (hrest : Recut host t t' nodes nodes') :
      Recut host t t' (.variableTag tag :: nodes) (.variableTag tag' :: nodes')
  | partialTag {t' : Template} {nodes nodes' : List Node} {tag tag' : Partial}
      (hname : tag'.name = tag.name) (hindent : tag'.indent = tag.indent)
      (hrest : Recut host t t' nodes nodes') :
      Recut host t t' (.partialTag tag :: nodes) (.partialTag tag' :: nodes')
  | sectionTag {t' : Template} {nodes nodes' : List Node} {tag tag' : Section}
      (hpath : tag'.path = tag.path) (hinverted : tag'.inverted = tag.inverted)
      (hseen : host.MayExpand tag →
        t'.text tag'.inner = t.text tag.inner ∧ tag'.delimiters = tag.delimiters)
      (hbody : Recut host t t' (t.nodes tag.body) (t'.nodes tag'.body))
      (hrest : Recut host t t' nodes nodes') :
      Recut host t t' (.sectionTag tag :: nodes) (.sectionTag tag' :: nodes')

/-- A template and another one that differs only in where its literal text is cut. -/
def Template.RecutTo (host : Host F σ) (t t' : Template) : Prop :=
  Recut host t t' t.rootNodes t'.rootNodes

/-- Under each name there are two such templates, or none. -/
def RecutPartials (host : Host F σ) (partials partials' : Text → Option Template) : Prop :=
  ∀ name, Option.Rel (·.RecutTo host ·) (partials name) (partials' name)

lemma RenderM.ofWrite_bind (act : WriteM F σ τ α) (next : α → WriteM F σ τ β) :
    ofWrite (act >>= next) = ofWrite act >>= fun a => ofWrite (next a) := by
  funext s
  cases hact : act s with
  | ok a s₁ =>
    rw [bind_apply_of_ok (ofWrite_of_ok hact), ofWrite, EStateM.adaptExcept, bind_apply_of_ok hact]
    rfl
  | error e s₁ =>
    rw [bind_apply_of_error (ofWrite_of_error hact), ofWrite_of_error (bind_apply_of_error hact)]

namespace Renderer

variable {r : Renderer F σ τ} {partials : Text → Option Template}

/-! ### Neighbouring nodes of literal text -/

/-- They write one text after the other. -/
lemma forM_renderNode_text (below : Nested F σ τ) (fuel : Nat) (here : Setting F)
    (spans : List Span) :
    (spans.map Node.text).forM (r.renderNode below fuel here) =
      RenderM.ofWrite ((spans.map here.template.text).forM r.sink.writeText) := by
  induction spans with
  | nil => rfl
  | cons span spans ih =>
    show RenderM.ofWrite (r.sink.writeText (here.template.text span)) >>= (fun _ =>
      (spans.map Node.text).forM (r.renderNode below fuel here)) = _
    rw [ih, ← RenderM.ofWrite_bind]
    rfl

lemma runAbreast_spans (hsink : r.sink.TakesAll) {below below' : Nested F σ τ} (fuel : Nat)
    (here there : Setting F) {spans spans' : List Span}
    (h : (spans'.map there.template.text).flatten = (spans.map here.template.text).flatten) :
    RunAbreast ((spans.map Node.text).forM (r.renderNode below fuel here))
      ((spans'.map Node.text).forM ({ r with partials }.renderNode below' fuel there)) := by
  rw [forM_renderNode_text, forM_renderNode_text]
  exact (Sink.runAbreast_writeTexts hsink h).ofWrite

/-! ### Lambdas elsewhere -/

/-- What a host does to expand a lambda depends neither on the template in which the tag stands nor,
but for what is nested, on the partials. -/
lemma attend_elsewhere (below : Nested F σ τ) (here : Setting F) (template : Template)
    (tag : LambdaTag) (failure : Option RenderError) (call : Expansion σ) :
    { r with partials }.attend below { here with template } tag failure call =
      r.attend below here tag failure call := by
  have htext (text : Text) :
      { r with partials }.renderLambdaText below { here with template } tag text =
        r.renderLambdaText below here tag text := rfl
  induction call generalizing failure with
  | answer result host => rfl
  | write text next ih =>
    funext s
    simp only [attend, ih]
  | render text host next ih =>
    funext s
    simp only [attend, ih, htext]
  | remark remark next ih =>
    funext s
    simp only [attend, ih]

lemma expandLambda_elsewhere (below : Nested F σ τ) (here : Setting F) (template : Template)
    (frame : F) (path : Path) (tag : LambdaTag) :
    { r with partials }.expandLambda below { here with template } frame path tag =
      r.expandLambda below here frame path tag := by
  rw [expandLambda, expandLambda]
  simp only [attend_elsewhere]

/-! ### What a renderer asks for -/

section

variable (hsink : r.sink.TakesAll) (hflush : ∀ taken, (r.sink.flush taken).1 = .ok ())

include hsink hflush

lemma inStep_self : r.InStep (· = ·) (fun _ _ => True) r where
  host_eq := rfl
  respects := r.host.respects_eq
  sink := hsink.matches hflush
  escaping_eq := rfl
  maxDepth_eq := rfl
  partials_eq := rfl

lemma relates_runAbreast (partials : Text → Option Template) :
    Relates (fun _ => RunAbreast) r { r with partials } where
  toComposes := RunAbreast.composes
  escaping_eq := rfl
  unfinished := fun _ _ hs => .error hs
  lookUp_bind := RunAbreast.composes.keptByLookUp _ _ (fun _ => RunAbreast.fail) fun _ _ _ =>
    .of_runInStep (runInStep_lookUp (inStep_self hsink hflush) _ _ _)
  interpolate frame path escaped := by
    rw [(r.relates_withPartials partials).interpolate]
    exact .of_runInStep (runInStep_interpolate (inStep_self hsink hflush) _ _ _)
  writeText _ := .of_runInStep (.ofWrite (Sink.runInStep_writeText (hsink.matches hflush) _))

lemma relatesNested_runAbreast : RelatesNested (fun _ => RunAbreast) r r where
  toComposes := RunAbreast.composes
  partials_eq := rfl
  checkDepth_bind depth name _ _ hnext :=
    (RunAbreast.of_runInStep
      (runInStep_checkDepth (inStep_self hsink hflush) depth name)).bind fun _ _ _ _ => hnext
  reject _ := (RunAbreast.record rfl).bind fun _ _ _ _ => .fail _
  enclosed name indent _ _ hact := hact.enclosed name indent
  indented indent _ _ hact := hact.indented indent
  onAside hact := hact.onAside
  writeData _ _ := .of_runInStep (.ofWrite (Sink.runInStep_writeData (hsink.matches hflush) _ _))

/-! ### Nodes -/

variable {below below' : Nested F σ τ}
  (hbelow : ∀ (t t' : Template) (scope : List F) (depth : Nat) (range range' : NodeRange),
    Recut r.host t t' (t.nodes range) (t'.nodes range') →
      RunAbreast (below ⟨t, scope, depth⟩ range) (below' ⟨t', scope, depth⟩ range'))

include hbelow

/-- Induction on what the host does. Both hosts hear the same, so they do the same. -/
lemma runAbreast_attend (here : Setting F) (tag : LambdaTag) (failure : Option RenderError)
    (call : Expansion σ) :
    RunAbreast (r.attend below here tag failure call) (r.attend below' here tag failure call) := by
  induction call generalizing failure with
  | answer result host =>
    intro s s' hs
    exact .ok ⟨⟨rfl, trivial, hs.output_eq, hs.isValid⟩, hs.writes_eq⟩
  | remark remark next ih =>
    intro s s' hs
    exact ih failure _ _ (hs.record rfl)
  | write text next ih =>
    intro s s' hs
    have hwrite := RunAbreast.of_runInStep
      (Sink.runInStep_writeData (hsink.matches hflush) text tag.escapes) s s' hs
    generalize hone : r.sink.writeData text tag.escapes s = one,
      hother : r.sink.writeData text tag.escapes s' = other at hwrite
    cases hwrite with
    | ok h₁ =>
      rw [r.attend_write_of_ok hone, r.attend_write_of_ok hother]
      exact ih true failure _ _ h₁
    | error h₁ =>
      rw [r.attend_write_of_error hone, r.attend_write_of_error hother]
      exact ih false _ _ _ h₁
  | render text host next ih =>
    intro s s' hs
    have hrender := (relatesNested_runAbreast hsink hflush).renderLambdaText below below'
      (fun template range => hbelow template template here.scope _ range range (.refl _)) tag text
      { s with host } { s' with host } ⟨⟨rfl, trivial, hs.output_eq, hs.isValid⟩, hs.writes_eq⟩
    generalize hone : r.renderLambdaText below here tag text { s with host } = one,
      hother : r.renderLambdaText below' here tag text { s' with host } = other at hrender
    cases hrender with
    | ok h₁ =>
      rw [r.attend_render_of_ok hone, r.attend_render_of_ok hother, ← h₁.host]
      exact ih true _ failure _ _ h₁
    | @error halt _ _ h₁ =>
      cases halt with
      | unfinished =>
        rw [r.attend_render_of_unfinished hone, r.attend_render_of_unfinished hother]
        exact .error h₁
      | failed e =>
        rw [r.attend_render_of_failed hone, r.attend_render_of_failed hother, ← h₁.host]
        exact ih false _ _ _ _ h₁

variable {t t' : Template} {scope : List F} {depth : Nat}

lemma runAbreast_expandLambda (frame : F) (path : Path) (tag : LambdaTag) :
    RunAbreast (r.expandLambda below ⟨t, scope, depth⟩ frame path tag)
      ({ r with partials }.expandLambda below' ⟨t', scope, depth⟩ frame path tag) := by
  rw [expandLambda_elsewhere below' ⟨t, scope, depth⟩ t', expandLambda_eq_settle,
    expandLambda_eq_settle]
  apply (RunAbreast.record rfl).bind
  intro _ _ _ _
  apply RunAbreast.get_bind
  intro s s' hs
  rw [show s'.host = s.host from hs.host.symm]
  apply (runAbreast_attend hsink hflush hbelow _ tag none _).bind
  intro answer _ _ _
  exact .of_runInStep (runInStep_settle (fun _ => .pure ()) answer)

lemma runAbreast_writeValue (path : Path) (escaped : Bool) (frames : List F) :
    RunAbreast (r.writeValue below ⟨t, scope, depth⟩ path escaped frames)
      ({ r with partials }.writeValue below' ⟨t', scope, depth⟩ path escaped frames) := by
  induction frames with
  | nil => exact .pure ()
  | cons frame frames ih =>
    apply ((relates_runAbreast hsink hflush partials).interpolate frame path escaped).bind
    intro answer _ _ _
    cases answer with
    | notFound => exact ih
    | lambda => exact runAbreast_expandLambda hsink hflush hbelow frame path _
    | broken | consumed | field => exact .pure ()

lemma runAbreast_renderVariable {tag tag' : Variable} (hpath : tag'.path = tag.path)
    (hescaped : tag'.escaped = tag.escaped) :
    RunAbreast (r.renderVariable below ⟨t, scope, depth⟩ tag)
      ({ r with partials }.renderVariable below' ⟨t', scope, depth⟩ tag') := by
  rw [renderVariable, renderVariable, hpath, hescaped]
  exact runAbreast_writeValue hsink hflush hbelow tag.path _ scope

lemma runAbreast_renderInverted {tag tag' : Section} (hpath : tag'.path = tag.path)
    (hbody : Recut r.host t t' (t.nodes tag.body) (t'.nodes tag'.body)) :
    RunAbreast (r.renderInverted below ⟨t, scope, depth⟩ tag)
      ({ r with partials }.renderInverted below' ⟨t', scope, depth⟩ tag') := by
  have hinside := hbelow t t' scope depth _ _ hbody
  rw [renderInverted, renderInverted, hpath]
  apply ((relates_runAbreast hsink hflush partials).owner tag.path scope).bind
  intro found _ _ _
  rcases found with _ | ⟨frame, answer⟩
  · exact hinside
  · cases answer with
    | field _ | lambda => exact .pure ()
    | notFound | broken | consumed => exact hinside

/-- Only a lambda sees the source of the body. -/
lemma runAbreast_renderSection (fuel : Nat) {tag tag' : Section} (hpath : tag'.path = tag.path)
    (hseen : (∃ frame s, (r.host.get frame tag.path 0 s).1 = .ok .lambda) →
      t'.text tag'.inner = t.text tag.inner ∧ tag'.delimiters = tag.delimiters)
    (hbody : Recut r.host t t' (t.nodes tag.body) (t'.nodes tag'.body)) :
    RunAbreast (r.renderSection below fuel ⟨t, scope, depth⟩ tag)
      ({ r with partials }.renderSection below' fuel ⟨t', scope, depth⟩ tag') := by
  have hrel := relates_runAbreast hsink hflush partials
  have helem (elem : F) := hbelow t t' (elem :: scope) depth _ _ hbody
  rw [renderSection, renderSection, hpath]
  apply (hrel.owner tag.path scope).bind
  intro found s s₁ howner
  rcases found with _ | ⟨frame, answer⟩
  · exact .pure ()
  · cases answer with
    | notFound | broken | consumed => exact .pure ()
    | field elem =>
      apply (helem elem).bind
      intro _ _ _ _
      exact hrel.renderElements fuel frame tag.path _ _ helem
    | lambda =>
      obtain ⟨host, hget⟩ := r.exists_get_of_owner howner
      obtain ⟨hinner, hdelimiters⟩ := hseen ⟨frame, host, hget⟩
      dsimp only
      rw [hinner, hdelimiters]
      exact runAbreast_expandLambda hsink hflush hbelow frame tag.path _

lemma runAbreast_sectionTag (fuel : Nat) {tag tag' : Section} (hpath : tag'.path = tag.path)
    (hinverted : tag'.inverted = tag.inverted)
    (hseen : r.host.MayExpand tag →
      t'.text tag'.inner = t.text tag.inner ∧ tag'.delimiters = tag.delimiters)
    (hbody : Recut r.host t t' (t.nodes tag.body) (t'.nodes tag'.body)) :
    RunAbreast (r.renderNode below fuel ⟨t, scope, depth⟩ (.sectionTag tag))
      ({ r with partials }.renderNode below' fuel ⟨t', scope, depth⟩ (.sectionTag tag')) := by
  rw [renderNode, renderNode, hinverted]
  split
  · exact runAbreast_renderInverted hsink hflush hbelow hpath hbody
  · next hnot =>
    exact runAbreast_renderSection hsink hflush hbelow fuel hpath
      (fun hlambda => hseen ⟨Bool.eq_false_iff.2 hnot, hlambda⟩) hbody

variable (hpartials : RecutPartials r.host r.partials partials)

include hpartials

lemma runAbreast_renderPartial {tag tag' : Partial} (hname : tag'.name = tag.name)
    (hindent : tag'.indent = tag.indent) :
    RunAbreast (r.renderPartial below ⟨t, scope, depth⟩ tag)
      ({ r with partials }.renderPartial below' ⟨t', scope, depth⟩ tag') := by
  have hrecut := hpartials tag.name
  rw [renderPartial, renderPartial, hname, hindent]
  dsimp only
  generalize r.partials tag.name = found, partials tag.name = found' at hrecut
  cases hrecut with
  | none => exact .pure ()
  | @some inner inner' hinner =>
    apply (relatesNested_runAbreast hsink hflush).checkDepth_bind
    apply RunAbreast.enclosed
    apply RunAbreast.indented
    exact hbelow inner inner' scope (depth + 1) _ _ hinner

/-- A node and itself, with what may be cut differently inside of it. -/
lemma runAbreast_renderNode (fuel : Nat) (node : Node) :
    RunAbreast (r.renderNode below fuel ⟨t, scope, depth⟩ node)
      ({ r with partials }.renderNode below' fuel ⟨t, scope, depth⟩ node) := by
  cases node with
  | text span => exact (relates_runAbreast hsink hflush partials).writeText _
  | variableTag tag => exact runAbreast_renderVariable hsink hflush hbelow rfl rfl
  | partialTag tag => exact runAbreast_renderPartial hsink hflush hbelow hpartials rfl rfl
  | sectionTag tag =>
    exact runAbreast_sectionTag hsink hflush hbelow fuel rfl rfl (fun _ => ⟨rfl, rfl⟩) (.refl _)

/-- Induction on how the nodes correspond. -/
lemma runAbreast_forM_renderNode (fuel : Nat) {nodes nodes' : List Node}
    (h : Recut r.host t t' nodes nodes') :
    RunAbreast (nodes.forM (r.renderNode below fuel ⟨t, scope, depth⟩))
      (nodes'.forM ({ r with partials }.renderNode below' fuel ⟨t', scope, depth⟩)) := by
  induction h with
  | refl nodes =>
    exact RunAbreast.composes.forM nodes (runAbreast_renderNode hsink hflush hbelow hpartials fuel)
  | nil => exact .pure _
  | texts spans spans' htext _ ih =>
    exact (runAbreast_spans hsink fuel _ _ htext).forM_append ih
  | variableTag hpath hescaped _ ih =>
    apply (runAbreast_renderVariable hsink hflush hbelow hpath hescaped).bind
    exact fun _ _ _ _ => ih
  | partialTag hname hindent _ ih =>
    apply (runAbreast_renderPartial hsink hflush hbelow hpartials hname hindent).bind
    exact fun _ _ _ _ => ih
  | sectionTag hpath hinverted hseen hbody _ _ ih =>
    apply (runAbreast_sectionTag hsink hflush hbelow fuel hpath hinverted hseen hbody).bind
    exact fun _ _ _ _ => ih

omit hbelow in
/-- Induction on the fuel: what is inside of a node is rendered with less of it. -/
lemma runAbreast_renderNodes (fuel : Nat) (t t' : Template) (scope : List F) (depth : Nat)
    (range range' : NodeRange) (h : Recut r.host t t' (t.nodes range) (t'.nodes range')) :
    RunAbreast (r.renderNodes fuel ⟨t, scope, depth⟩ range)
      ({ r with partials }.renderNodes fuel ⟨t', scope, depth⟩ range') := by
  induction fuel generalizing t t' scope depth range range' with
  | zero => exact fun _ _ hs => .error hs
  | succ fuel ih => exact runAbreast_forM_renderNode hsink hflush ih hpartials fuel h

omit hbelow in
lemma runAbreast_render (fuel : Nat) (h : t.RecutTo r.host t') (root : F) :
    RunAbreast (r.render fuel t root) ({ r with partials }.render fuel t' root) := by
  apply (runAbreast_renderNodes hsink hflush hpartials fuel t t' [root] 0 t.root t'.root h).bind
  intro _ _ _ _
  exact .of_runInStep (.ofWrite (Sink.runInStep_finish (hsink.matches hflush)))

end

/-- Literal text is a stream. Two texts written one after the other leave the output as their
concatenation does, and the same bytes have been written, whatever the indentation is and wherever
the output stands. So it does not matter either where literal text is cut into nodes, in a template
or in the partials: both renderings end alike, with the same output and the same bytes. -/
theorem abreast_of_recut (hsink : r.sink.TakesAll) :
    (∀ (a b : Text) (s : RenderState F σ τ), ∃ s₁ s₂ whole,
      r.sink.writeText a s = .ok () s₁ ∧ r.sink.writeText b s₁ = .ok () s₂ ∧
        r.sink.writeText (a ++ b) s = .ok () whole ∧ s₂.output = whole.output ∧
        (writes s₂.events).flatten = (writes whole.events).flatten) ∧
    ((∀ taken, (r.sink.flush taken).1 = .ok ()) → RecutPartials r.host r.partials partials →
      ∀ (fuel : Nat) (t t' : Template) (s : RenderState F σ τ),
        (∀ kept, s.output.scratch = some kept → kept.IsValidUTF8) →
        (∀ scope depth range range', Recut r.host t t' (t.nodes range) (t'.nodes range') →
          EndAbreast (r.renderNodes fuel ⟨t, scope, depth⟩ range s)
            ({ r with partials }.renderNodes fuel ⟨t', scope, depth⟩ range' s)) ∧
        (t.RecutTo r.host t' → ∀ root,
          EndAbreast (r.render fuel t root s) ({ r with partials }.render fuel t' root s))) := by
  constructor
  · intro a b s
    obtain ⟨s₁, hfirst, h₁⟩ := Sink.exists_writeText hsink a s
    obtain ⟨s₂, hsecond, h₂⟩ := Sink.exists_writeText hsink b s₁
    obtain ⟨whole, hwhole, h⟩ := Sink.exists_writeText hsink (a ++ b) s
    rw [h₁.indent_eq, h₁.atLineStart_eq] at h₂
    rw [prefixLines_append, startsLineAfter_append] at h
    have hparts := h₁.trans h₂
    exact ⟨s₁, s₂, whole, hfirst, hsecond, hwhole, hparts.output_eq h rfl,
      hparts.writes_eq.trans h.writes_eq.symm⟩
  · intro hflush hpartials fuel t t' s hs
    have hself : Abreast s s := ⟨⟨rfl, trivial, rfl, hs⟩, rfl⟩
    constructor
    · intro scope depth range range' hcut
      exact runAbreast_renderNodes hsink hflush hpartials fuel t t' scope depth range range' hcut
        s s hself
    · intro hcut root
      exact runAbreast_render hsink hflush hpartials fuel hcut root s s hself

/-- A template with two comments, one of them on a line of its own. -/
def commented : Template :=
  ⟨"a{{!x}}b{{v}}\n  {{! y }}\nc".toList,
    ⟨[.text ⟨0, 1⟩, .text ⟨7, 8⟩, .variableTag ⟨⟨[['v']]⟩, true, ⟨8, 13⟩⟩, .text ⟨13, 14⟩,
      .text ⟨25, 26⟩]⟩, ⟨0, 5⟩⟩

/-- The template without its comments. -/
def uncommented : Template :=
  ⟨"ab{{v}}\nc".toList,
    ⟨[.text ⟨0, 2⟩, .variableTag ⟨⟨[['v']]⟩, true, ⟨2, 7⟩⟩, .text ⟨7, 9⟩]⟩, ⟨0, 3⟩⟩

lemma recutTo_uncommented (host : Host F σ) : commented.RecutTo host uncommented :=
  .texts [⟨0, 1⟩, ⟨7, 8⟩] [⟨0, 2⟩] rfl <| .variableTag rfl rfl <|
    .texts [⟨13, 14⟩, ⟨25, 26⟩] [⟨7, 9⟩] rfl .nil

/-- Renderings of served values, with this partial under every name. -/
def including (inner : Template) : Renderer Frame Calls ByteArray :=
  ⟨Served.host, .buffer, .standard, fun _ => some inner⟩

/-- A template that is indented as a partial, with a value of two lines. -/
def includingRun (inner t : Template) :
    EStateM.Result Halt (RenderState Frame Calls ByteArray) Unit :=
  (including inner).render 4 t (.root (writtenIn ["1\n2".toList])) (.start [] .empty)

/-- The comments of an indented partial do not show. -/
theorem abreast_commented :
    Template.compile commented.source .standard = .ok commented ∧
    Template.compile uncommented.source .standard = .ok uncommented ∧
    (including commented).sink.TakesAll ∧
    RecutPartials (including commented).host (including commented).partials
      (including uncommented).partials ∧
    ∃ t, Template.compile "  {{>p}}\n".toList .standard = .ok t ∧
      t.RecutTo (including commented).host t ∧
      EndAbreast (includingRun commented t) (includingRun uncommented t) ∧
      outcome (includingRun commented t) = .ok () ∧
      (writes (reached (includingRun commented t)).events).flatten = "  ab1\n2\n  c".toList := by
  have htakes : (including commented).sink.TakesAll := fun _ _ => rfl
  have hpartials : RecutPartials (including commented).host (including commented).partials
      (including uncommented).partials := fun _ => .some (recutTo_uncommented _)
  have hrun : (Template.compile "  {{>p}}\n".toList .standard).map
      (fun t => (outcome (includingRun commented t),
        (writes (reached (includingRun commented t)).events).flatten)) =
      .ok (.ok (), "  ab1\n2\n  c".toList) := by
    decide +kernel
  obtain ⟨t, hcompile, hrun⟩ := exists_eq_ok_of_map_eq_ok hrun
  obtain ⟨houtcome, hwrites⟩ := Prod.mk.inj hrun
  have hsame : t.RecutTo (including commented).host t := .refl _
  have h := (abreast_of_recut htakes).2 (fun _ => rfl) hpartials 4 t t (.start [] .empty) nofun
  exact ⟨by decide +kernel, by decide +kernel, htakes, hpartials, t, hcompile, hsame,
    h.2 hsame _, houtcome, hwrites⟩

end Renderer

end Mustache
