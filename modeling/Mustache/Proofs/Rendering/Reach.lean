import Mustache.Engine
import Mustache.Proofs.Rendering.FirstFailure
import Mustache.Proofs.Rendering.Relations
import Mustache.Proofs.Template.Partials
import Mustache.Proofs.Template.Subtrees

/-!
# The partials a template reaches

A template names partials, their templates name others, and so on. A lambda can name any partial in
the text it makes; but with a host that has no lambdas, no other partial is ever rendered. So a
rendering depends on no others: it is the same, with the same calls of the host and the same writes,
whatever templates are kept under other names.
-/

namespace Mustache

variable {F σ τ : Type}

/-! ### Names that are reached -/

namespace Template

variable {partials partials' : Text → Option Template} {template inner : Template} {name : Text}

/-- The partials that a template names, those that their templates name, and so on. -/
inductive ReachesPartial (partials : Text → Option Template) (template : Template) : Text → Prop
  | own {name : Text} (h : name ∈ template.partialNames) : ReachesPartial partials template name
  | inside {name name' : Text} {inner : Template} (h : ReachesPartial partials template name)
      (hinner : partials name = some inner) (hname' : name' ∈ inner.partialNames) :
      ReachesPartial partials template name'

/-- Names that are closed under what their templates name include all that are reached. -/
lemma ReachesPartial.mem_of_closed (names : List Text) (hown : template.partialNames ⊆ names)
    (hclosed : ∀ name ∈ names, ∀ inner ∈ partials name, inner.partialNames ⊆ names)
    (h : template.ReachesPartial partials name) : name ∈ names := by
  induction h with
  | own h => exact hown h
  | inside _ hinner hname' ih => exact hclosed _ ih _ hinner hname'

/-- What is reached from the template of a partial is reached from the template that names it. -/
lemma ReachesPartial.of_partial {tag : Partial} (htag : .partialTag tag ∈ template.table.nodes)
    (hinner : partials tag.name = some inner) (h : inner.ReachesPartial partials name) :
    template.ReachesPartial partials name := by
  induction h with
  | own h => exact .inside (.own (mem_partialNames.2 ⟨tag, htag, rfl⟩)) hinner h
  | inside _ hinner' hname' ih => exact .inside ih hinner' hname'

/-- Under each name that the template reaches there is the same template. -/
def AgreeOn (template : Template) (partials partials' : Text → Option Template) : Prop :=
  ∀ name, template.ReachesPartial partials name → partials' name = partials name

lemma AgreeOn.eq_of_mem (h : template.AgreeOn partials partials') {tag : Partial}
    (htag : .partialTag tag ∈ template.table.nodes) :
    partials' tag.name = partials tag.name :=
  h tag.name (.own (mem_partialNames.2 ⟨tag, htag, rfl⟩))

lemma AgreeOn.of_partial (h : template.AgreeOn partials partials') {tag : Partial}
    (htag : .partialTag tag ∈ template.table.nodes) (hinner : partials tag.name = some inner) :
    inner.AgreeOn partials partials' := fun name hname => h name (hname.of_partial htag hinner)

end Template

/-! ### Hosts without lambdas -/

/-- The value that is written is no lambda, whatever becomes of the writes. -/
inductive Interpolation.NoLambda : Interpolation σ → Prop
  | answer {result : HostResult} (state : σ) (h : result ≠ .ok .lambda) :
      NoLambda (.answer result state)
  | write {raw : Bool} {text : Text} {next : Except SinkErrorKind Unit → Interpolation σ}
      (h : ∀ heard, NoLambda (next heard)) : NoLambda (.write raw text next)
  | remark {remark : Remark} {next : Interpolation σ} (h : NoLambda next) :
      NoLambda (.remark remark next)

/-- The host never answers that a value is a lambda. -/
structure Host.NoLambdas (host : Host F σ) : Prop where
  get_ne_lambda : ∀ frame path index s, (host.get frame path index s).1 ≠ .ok .lambda
  interpolate : ∀ frame path escaped s, (host.interpolate frame path escaped s).NoLambda

namespace Renderer

variable {r : Renderer F σ τ} {s s' : RenderState F σ τ}

lemma owner_ne_lambda (hhost : r.host.NoLambdas) {path : Path} {frames : List F} {frame : F} :
    r.owner path frames s ≠ .ok (some (frame, .lambda)) s' := by
  intro h
  obtain ⟨host, hget⟩ := r.exists_get_of_owner h
  exact hhost.get_ne_lambda frame path 0 host hget

lemma serve_ne_lambda {escaped : Bool} {call : Interpolation σ} (h : call.NoLambda)
    {failure failure' : Option SinkError} :
    r.serve escaped failure call s ≠ .ok (failure', .ok .lambda) s' := by
  intro hserve
  induction h generalizing failure s with
  | answer state h =>
    rw [serve] at hserve
    cases hserve
    exact h rfl
  | @write raw text next _ ih =>
    cases failure with
    | some e => exact ih _ hserve
    | none =>
      cases hwrite : r.sink.writeData text (escaped && !raw) s with
      | ok a s₁ => exact ih _ (r.serve_write_of_ok hwrite ▸ hserve)
      | error e s₁ => exact ih _ (r.serve_write_of_error hwrite ▸ hserve)
  | remark _ ih => exact ih hserve

lemma interpolate_ne_lambda (hhost : r.host.NoLambdas) {frame : F} {path : Path} {escaped : Bool} :
    r.interpolate frame path escaped s ≠ .ok .lambda s' := by
  intro h
  rw [interpolate_eq_settle] at h
  have hcall := hhost.interpolate frame path escaped s.host
  rcases bind_eq_iff.1 (show (r.serve escaped none _ >>= _) s = _ from h) with
    ⟨⟨failure, result⟩, s₁, hserve, h⟩ | ⟨e, s₁, -, h⟩
  · rcases failure with _ | e
    · rcases result with e | answer
      · cases h
      · cases h
        exact serve_ne_lambda hcall hserve
    · cases h
  · cases h

/-! ### The same rendering -/

variable {partials : Text → Option Template} {below below' : Nested F σ τ} {here : Setting F}

lemma serve_withPartials (escaped : Bool) (failure : Option SinkError) (call : Interpolation σ) :
    { r with partials }.serve escaped failure call = r.serve escaped failure call := by
  induction call generalizing failure with
  | answer result host => rfl
  | write raw text next ih =>
    funext s
    simp only [serve, ih]
  | remark remark next ih =>
    funext s
    simp only [serve, ih]

/-- As long as no partial is rendered and no lambda is expanded, it does not matter which partials
there are. -/
lemma relates_withPartials (r : Renderer F σ τ) (partials : Text → Option Template) :
    Relates (fun _ act act' => act' = act) r { r with partials } where
  pure _ := rfl
  bind {_ _ _ _ next next'} hact hnext := by
    obtain rfl : next' = next := funext hnext
    rw [hact]
  escaping_eq := rfl
  unfinished := rfl
  lookUp_bind {_ frame path index next next'} hok herror herror' := by
    have hnext : next' = next := by
      funext answer
      cases answer with
      | ok lookup => exact hok lookup
      | error e => rw [herror, herror']
    rw [hnext]
    rfl
  interpolate frame path escaped := by
    rw [interpolate, interpolate]
    simp only [serve_withPartials]
  writeText _ := rfl

section

variable (hhost : r.host.NoLambdas)

include hhost

lemma writeValue_withPartials (path : Path) (escaped : Bool) (frames : List F) :
    { r with partials }.writeValue below' here path escaped frames =
      r.writeValue below here path escaped frames := by
  induction frames with
  | nil => rfl
  | cons frame frames ih =>
    rw [writeValue, writeValue, (r.relates_withPartials partials).interpolate]
    refine bind_congr_of_ok fun s answer s' h => ?_
    cases answer with
    | notFound => exact ih
    | lambda => exact (interpolate_ne_lambda hhost h).elim
    | broken | consumed | field => rfl

lemma renderSection_withPartials {tag : Section} {fuel : Nat}
    (hbody : ∀ elem, below' (here.inside elem) tag.body = below (here.inside elem) tag.body) :
    { r with partials }.renderSection below' fuel here tag =
      r.renderSection below fuel here tag := by
  have hsame := r.relates_withPartials partials
  rw [renderSection, renderSection, hsame.owner]
  refine bind_congr_of_ok fun s found s' h => ?_
  rcases found with _ | ⟨frame, _ | _ | _ | _ | elem⟩
  case some.lambda => exact (owner_ne_lambda hhost h).elim
  case some.field =>
    refine hsame.bind (hbody elem) fun _ => ?_
    exact hsame.renderElements fuel frame tag.path _ _ hbody
  all_goals rfl

end

lemma renderPartial_withPartials {tag : Partial}
    (hpartial : partials tag.name = r.partials tag.name)
    (hbelow : ∀ inner, r.partials tag.name = some inner →
      below' (here.nested inner) inner.root = below (here.nested inner) inner.root) :
    { r with partials }.renderPartial below' here tag = r.renderPartial below here tag := by
  rw [renderPartial, renderPartial]
  simp only [hpartial]
  cases hinner : r.partials tag.name with
  | none => rfl
  | some inner =>
    simp only [hbelow inner hinner]
    rfl

lemma renderNode_withPartials (hhost : r.host.NoLambdas) {fuel : Nat} {node : Node}
    (hnode : node ∈ here.template.table.nodes) (hagree : here.template.AgreeOn r.partials partials)
    (hbelow : ∀ (there : Setting F) (range : NodeRange),
      there.template.AgreeOn r.partials partials → below' there range = below there range) :
    { r with partials }.renderNode below' fuel here node = r.renderNode below fuel here node := by
  cases node with
  | text span => rfl
  | variableTag tag => exact writeValue_withPartials hhost _ _ _
  | sectionTag tag =>
    rw [renderNode, renderNode]
    split
    · have hsame := r.relates_withPartials partials
      exact hsame.renderInverted below below' tag (hbelow here tag.body hagree)
    · exact renderSection_withPartials hhost fun elem => hbelow (here.inside elem) tag.body hagree
  | partialTag tag =>
    refine renderPartial_withPartials (hagree.eq_of_mem hnode) fun inner hinner => ?_
    exact hbelow (here.nested inner) inner.root (hagree.of_partial hnode hinner)

lemma forM_congr {γ : Type} {step step' : γ → RenderM F σ τ PUnit} {xs : List γ}
    (h : ∀ x ∈ xs, step' x = step x) : xs.forM step' = xs.forM step := by
  induction xs with
  | nil => rfl
  | cons x xs ih =>
    have hxs := ih fun y hy => h y (List.mem_cons_of_mem x hy)
    rw [List.forM_eq_forM] at hxs ⊢
    rw [List.forM_cons, List.forM_cons, h x List.mem_cons_self, hxs]

/-- Induction on the fuel: what is inside of a node belongs to the same template, or to that of a
partial, which reaches no other names. -/
lemma renderNodes_withPartials (hhost : r.host.NoLambdas) (fuel : Nat) (here : Setting F)
    (range : NodeRange) (hagree : here.template.AgreeOn r.partials partials) :
    { r with partials }.renderNodes fuel here range = r.renderNodes fuel here range := by
  induction fuel generalizing here range with
  | zero => rfl
  | succ fuel ih =>
    rw [renderNodes, renderNodes]
    refine forM_congr fun node hnode => ?_
    exact renderNode_withPartials hhost (Template.mem_of_mem_nodes hnode) hagree ih

lemma render_withPartials (hhost : r.host.NoLambdas) {template : Template}
    (hagree : template.AgreeOn r.partials partials) (fuel : Nat) (root : F) :
    { r with partials }.render fuel template root = r.render fuel template root := by
  rw [render, render, renderNodes_withPartials hhost fuel ⟨template, [root], 0⟩ _ hagree]

lemma renderToText_withPartials {r : Renderer F σ ByteArray} (hhost : r.host.NoLambdas)
    {template : Template} (hagree : template.AgreeOn r.partials partials) (fuel : Nat) (root : F) :
    { r with partials }.renderToText fuel template root = r.renderToText fuel template root := by
  rw [renderToText, renderToText, render_withPartials hhost hagree]
  rfl

end Renderer

/-! ### Engines -/

namespace Engine

variable {e e' : Engine} {name other : Text} {template : Template}

/-- A template has been kept under a name, in place of the one that was there. -/
inductive Stores (e : Engine) (name : Text) (e' : Engine) : Prop
  | insert {template : Template} (h : e.insert name template = .ok e')
  | register {source : Text} (h : e.register name source = .ok e')

lemma Stores.exists_eq (h : e.Stores name e') :
    ∃ template, e' =
      { e with partials := (name, template) :: e.partials.filter (·.1 ≠ name) } := by
  have hinsert : ∃ template, e.insert name template = .ok e' := by
    cases h with
    | insert h => exact ⟨_, h⟩
    | @register source h =>
      rw [Engine.register] at h
      cases hcompile : e.compile source with
      | error error =>
        rw [hcompile] at h
        cases h
      | ok template =>
        rw [hcompile] at h
        exact ⟨template, h⟩
  obtain ⟨template, h⟩ := hinsert
  rw [Engine.insert] at h
  split at h
  · cases h
  · exact ⟨template, (Except.ok.inj h).symm⟩

lemma lookup_filter_of_ne (hne : other ≠ name) (kept : List (Text × Template)) :
    (kept.filter (·.1 ≠ name)).lookup other = kept.lookup other := by
  induction kept with
  | nil => rfl
  | cons first kept ih =>
    rw [List.filter_cons, List.lookup_cons]
    split
    · rw [List.lookup_cons, ih]
    · next hfirst =>
      have hfirst : first.1 = name := by simpa using hfirst
      rw [hfirst, beq_false_of_ne hne, ih]

/-- What is kept under a name does not touch what is kept under another. -/
lemma Stores.partial?_of_ne (h : e.Stores name e') (hne : other ≠ name) :
    e'.partial? other = e.partial? other := by
  obtain ⟨template, rfl⟩ := h.exists_eq
  rw [partial?, partial?, List.lookup_cons, beq_false_of_ne hne]
  exact lookup_filter_of_ne hne e.partials

lemma Stores.agreeOn (h : e.Stores name e') (hname : ¬ template.ReachesPartial e.partial? name) :
    template.AgreeOn e.partial? e'.partial? := by
  intro other hother
  apply h.partial?_of_ne
  rintro rfl
  exact hname hother

lemma Stores.renderer_eq (h : e.Stores name e') (host : Host F σ) (sink : Sink τ) :
    e'.renderer host sink = { e.renderer host sink with partials := e'.partial? } := by
  obtain ⟨template, rfl⟩ := h.exists_eq
  rfl

end Engine

namespace Renderer

/-- With a host that has no lambdas, a rendering depends on those partials only that the template
reaches: the result, the sink and the history are the same with all partials that agree there. So a
partial that is not reached may be kept, or another put in its place, without any effect. -/
theorem render_eq_of_agreeOn {host : Host F σ} (hhost : host.NoLambdas) (template : Template)
    (fuel : Nat) (root : F) :
    (∀ (options : RenderOptions) (partials partials' : Text → Option Template),
      template.AgreeOn partials partials' →
        (∀ sink : Sink τ, render ⟨host, sink, options, partials'⟩ fuel template root =
          render ⟨host, sink, options, partials⟩ fuel template root) ∧
        ∀ sink, renderToText ⟨host, sink, options, partials'⟩ fuel template root =
          renderToText ⟨host, sink, options, partials⟩ fuel template root) ∧
    ∀ (e e' : Engine) (name : Text), e.Stores name e' → ¬ template.ReachesPartial e.partial? name →
      (∀ sink : Sink τ, (e'.renderer host sink).render fuel template root =
        (e.renderer host sink).render fuel template root) ∧
      ∀ sink, (e'.renderer host sink).renderToText fuel template root =
        (e.renderer host sink).renderToText fuel template root := by
  constructor
  · intro options partials partials' hagree
    constructor
    · intro sink
      exact render_withPartials (r := ⟨host, sink, options, partials⟩) hhost hagree fuel root
    · intro sink
      exact renderToText_withPartials (r := ⟨host, sink, options, partials⟩) hhost hagree fuel root
  · intro e e' name hstores hname
    have hagree := hstores.agreeOn hname
    constructor
    · intro sink
      rw [hstores.renderer_eq]
      exact render_withPartials (r := e.renderer host sink) hhost hagree fuel root
    · intro sink
      rw [hstores.renderer_eq]
      exact renderToText_withPartials (r := e.renderer host sink) hhost hagree fuel root

lemma noLambdas_empty : Host.empty.NoLambdas where
  get_ne_lambda _ _ _ _ := nofun
  interpolate _ _ _ s := .answer s nofun

/-- The template of a source; one without nodes if there is none. -/
def compiled (source : Text) : Template :=
  (Template.compile source .standard).toOption.getD ⟨[], .empty, .empty⟩

/-- An engine that has a partial, which names one that is missing, and another partial. -/
def keeping (other : Text) : Engine :=
  ⟨.standard, .standard, [(['o'], compiled other), (['p'], compiled "b{{>q}}".toList)]⟩

/-- Another partial is registered than those that are reached, which are one that is there and one
that is missing. -/
theorem render_keeping_eq :
    ¬ (compiled "a{{>p}}".toList).ReachesPartial (keeping ['c']).partial? ['o'] ∧
    (keeping ['c']).register ['o'] "d{{>q}}".toList = .ok (keeping "d{{>q}}".toList) ∧
    ∀ fuel,
      ((keeping "d{{>q}}".toList).renderer Host.empty .buffer).render fuel
          (compiled "a{{>p}}".toList) () =
        ((keeping ['c']).renderer Host.empty .buffer).render fuel
          (compiled "a{{>p}}".toList) () := by
  have hreaches : ¬ (compiled "a{{>p}}".toList).ReachesPartial (keeping ['c']).partial? ['o'] := by
    intro h
    have hmem := h.mem_of_closed [['p'], ['q']] (by decide +kernel) (by decide +kernel)
    simp at hmem
  have hregister : (keeping ['c']).register ['o'] "d{{>q}}".toList =
      .ok (keeping "d{{>q}}".toList) := by decide +kernel
  refine ⟨hreaches, hregister, fun fuel => ?_⟩
  have h :=
    @render_eq_of_agreeOn _ _ ByteArray _ noLambdas_empty (compiled "a{{>p}}".toList) fuel ()
  exact (h.2 _ _ _ (.register hregister) hreaches).1 .buffer

end Renderer

end Mustache
