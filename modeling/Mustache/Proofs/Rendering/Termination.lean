import Mathlib.Order.Filter.AtTopBot.Basic
import Mustache.Proofs.Rendering.Nesting
import Mustache.Proofs.Template.WellFormed

/-!
# Termination

A rendering comes to an end if the host ends its sections, whatever the partials include and the
lambdas have rendered. Nested renderings are bounded by the depth limit, nodes inside nodes by the
table of the template, and the elements of a section by the host. What decreases is the three of
them, the first before the second and the second before the third; each has an induction of its own
here, one inside the other.
-/

namespace Mustache

open Filter

variable {F σ τ α β : Type}

/-! ### What ends -/

/-- With enough fuel this is the result, and it is not that the fuel was used up. -/
def Concludes (results : Nat → EStateM.Result Halt (RenderState F σ τ) α)
    (result : EStateM.Result Halt (RenderState F σ τ) α) : Prop :=
  outcome result ≠ .error .unfinished ∧ ∀ᶠ fuel in atTop, results fuel = result

/-- Whatever the state, with enough fuel the action comes to an end. -/
def Ends (act : Nat → RenderM F σ τ α) : Prop := ∀ s, ∃ result, Concludes (act · s) result

namespace Ends

lemma of_ok {act : RenderM F σ τ α} (h : ∀ s, ∃ a s', act s = .ok a s') : Ends fun _ => act := by
  intro s
  obtain ⟨a, s', hact⟩ := h s
  exact ⟨.ok a s', by simp, .of_forall fun _ => hact⟩

lemma pure (a : α) : Ends fun _ => (pure a : RenderM F σ τ α) := of_ok fun s => ⟨a, s, rfl⟩

lemma record (e : Event F) : Ends fun _ => (RenderM.record e : RenderM F σ τ Unit) :=
  of_ok fun s => ⟨(), s.record e, rfl⟩

lemma fail (e : RenderError) : Ends fun _ => (RenderM.fail e : RenderM F σ τ α) :=
  fun s => ⟨.error (.failed e) s, by simp, .of_forall fun _ => rfl⟩

lemma ofWrite (act : WriteM F σ τ α) : Ends fun _ => RenderM.ofWrite act := by
  intro s
  cases hact : act s with
  | ok a s' =>
    exact ⟨.ok a s', by simp, .of_forall fun _ => RenderM.ofWrite_of_ok hact⟩
  | error e s' =>
    exact ⟨.error (.failed (.write e)) s', by simp,
      .of_forall fun _ => RenderM.ofWrite_of_error hact⟩

/-- What follows has to end for the values that there may be. -/
lemma bind {act : Nat → RenderM F σ τ α} {next : Nat → α → RenderM F σ τ β} (h : Ends act)
    (hnext : ∀ n s a s', act n s = .ok a s' → Ends (next · a)) :
    Ends fun n => act n >>= next n := by
  intro s
  obtain ⟨result, hends, hact⟩ := h s
  cases result with
  | ok a s' =>
    obtain ⟨n, hn⟩ := hact.exists
    obtain ⟨result', hends', hact'⟩ := hnext n s a s' hn s'
    refine ⟨result', hends', ?_⟩
    filter_upwards [hact, hact'] with n hn hn'
    exact (bind_apply_of_ok hn).trans hn'
  | error e s' =>
    refine ⟨.error e s', by simpa using hends, ?_⟩
    filter_upwards [hact] with n hn
    exact bind_apply_of_error hn

lemma get_bind {next : Nat → RenderState F σ τ → RenderM F σ τ α} (h : ∀ s, Ends (next · s)) :
    Ends fun n => get >>= next n := fun s => h s s

lemma forM {γ : Type} {step : Nat → γ → RenderM F σ τ PUnit} {xs : List γ}
    (h : ∀ x ∈ xs, Ends (step · x)) : Ends fun n => xs.forM (step n) := by
  induction xs with
  | nil => exact pure _
  | cons x xs ih =>
    refine (h x List.mem_cons_self).bind fun _ _ _ _ _ => ?_
    exact ih fun y hy => h y (List.mem_cons_of_mem x hy)

lemma bracket {enter : RenderState F σ τ → RenderState F σ τ} {value : α → RenderState F σ τ → β}
    {leave : RenderState F σ τ → RenderState F σ τ → RenderState F σ τ}
    {act : Nat → RenderM F σ τ α} (h : Ends act) :
    Ends fun n => bracket enter value leave (act n) := by
  intro s
  obtain ⟨result, hends, hact⟩ := h (enter s)
  cases result with
  | ok a s' =>
    refine ⟨.ok (value a s') (leave s s'), by simp, ?_⟩
    filter_upwards [hact] with n hn
    rw [Mustache.bracket, hn]
  | error e s' =>
    refine ⟨.error e (leave s s'), by simpa using hends, ?_⟩
    filter_upwards [hact] with n hn
    rw [Mustache.bracket, hn]

/-- A first unit of fuel may be spent at once. -/
lemma of_succ {act : Nat → RenderM F σ τ α} (h : Ends fun n => act (n + 1)) : Ends act := by
  intro s
  obtain ⟨result, hends, hact⟩ := h s
  refine ⟨result, hends, ?_⟩
  rw [← map_add_atTop_eq_nat 1, eventually_map]
  exact hact

lemma succ {act : Nat → RenderM F σ τ α} (h : Ends act) : Ends fun n => act (n + 1) := by
  intro s
  obtain ⟨result, hends, hact⟩ := h s
  exact ⟨result, hends, (tendsto_add_atTop_nat 1).eventually hact⟩

end Ends

/-! ### Asking the host -/

/-- For each frame and path there is an index at which a section comes to its end, if it has not
before. -/
def Host.EndsSections (host : Host F σ) : Prop :=
  ∀ frame path, ∃ index, ∀ s elem, (host.get frame path index s).1 ≠ .ok (.field elem)

lemma ends_settle {ε : Type} (report : ε → RenderError) (path : Path) (done : HostResult → Event F)
    {next : Resolution → RenderM F σ τ α} (hnext : ∀ answer, Ends fun _ => next answer)
    (answer : Option ε × HostResult) : Ends fun _ => settle report path done next answer := by
  refine (Ends.record (done answer.2)).bind fun _ _ _ _ _ => ?_
  rcases answer with ⟨_ | e, _ | a⟩
  · exact .fail _
  · exact hnext a
  · exact .fail _
  · exact .fail _

namespace Renderer

variable (r : Renderer F σ τ)

lemma ends_lookUp (frame : F) (path : Path) (index : Nat) :
    Ends fun _ => r.lookUp frame path index := .of_ok fun _ => ⟨_, _, rfl⟩

lemma ends_owner (path : Path) (frames : List F) : Ends fun _ => r.owner path frames := by
  induction frames with
  | nil => exact .pure _
  | cons frame frames ih =>
    refine (r.ends_lookUp frame path 0).bind fun _ _ answer _ _ => ?_
    rcases answer with e | _ | _ | _ | _ | elem
    · exact .fail _
    · exact ih
    all_goals exact .pure _

lemma exists_serve_eq_ok (escaped : Bool) (failure : Option SinkError) (call : Interpolation σ)
    (s : RenderState F σ τ) : ∃ answer s', r.serve escaped failure call s = .ok answer s' := by
  induction call generalizing failure s with
  | answer result host => exact ⟨_, _, rfl⟩
  | remark remark next ih => exact ih failure (s.record (.remarked remark))
  | write raw text next ih =>
    cases failure with
    | some e => exact ih (.error e.kind) (some e) s
    | none =>
      cases hwrite : r.sink.writeData text (escaped && !raw) s with
      | ok a s₁ =>
        rw [r.serve_write_of_ok hwrite]
        exact ih (.ok ()) none s₁
      | error e s₁ =>
        rw [r.serve_write_of_error hwrite]
        exact ih (.error e.kind) (some e) s₁

lemma ends_interpolate (frame : F) (path : Path) (escaped : Bool) :
    Ends fun _ => r.interpolate frame path escaped := by
  simp only [interpolate_eq_settle]
  refine .get_bind fun s => ?_
  exact (Ends.of_ok (r.exists_serve_eq_ok escaped none _)).bind fun _ _ answer _ _ =>
    ends_settle _ _ _ (fun _ => .pure _) answer

/-! ### Elements of a section -/

section

variable {frame : F} {path : Path} {body : Nat → F → RenderM F σ τ Unit}

/-- The elements from an index on are rendered to an end, if there is none at that index or the rest
is rendered to an end. -/
lemma ends_renderElements_of_field {index : Nat}
    (hfield : ∀ s elem, (r.host.get frame path index s).1 = .ok (.field elem) →
      Ends fun n => body (n + 1) elem >>= fun _ =>
        r.renderElements frame path (body (n + 1)) n (index + 1)) :
    Ends fun n => r.renderElements frame path (body n) n index := by
  refine .of_succ ((r.ends_lookUp frame path index).bind fun _ s answer _ hanswer => ?_)
  have hget := r.get_of_lookUp hanswer
  rcases answer with e | _ | _ | _ | _ | elem
  · exact .fail _
  · exact .pure _
  · exact .pure _
  · exact .pure _
  · exact .pure _
  · exact hfield s.host elem hget

/-- Induction on the number of indices up to the one at which the section ends. -/
lemma ends_renderElements {index more : Nat} (hbody : ∀ elem, Ends (body · elem))
    (hends : ∀ s elem, (r.host.get frame path (index + more) s).1 ≠ .ok (.field elem)) :
    Ends fun n => r.renderElements frame path (body n) n index := by
  induction more generalizing index body with
  | zero => exact r.ends_renderElements_of_field fun s elem h => absurd h (hends s elem)
  | succ more ih =>
    have hbody' : ∀ elem, Ends fun n => body (n + 1) elem := fun elem => (hbody elem).succ
    refine r.ends_renderElements_of_field fun s elem _ => (hbody' elem).bind fun _ _ _ _ _ => ?_
    exact ih hbody' (Nat.add_right_comm index 1 more ▸ hends)

end

/-! ### Nested renderings -/

/-- What is too deep is not rendered, so nothing has to be known of it. -/
lemma ends_checkDepth_bind {depth : Nat} {name : Text} {next : Nat → RenderM F σ τ α}
    (h : depth ≤ r.options.maxDepth → Ends next) :
    Ends fun n => r.checkDepth depth name >>= fun _ => next n := by
  rcases Nat.lt_or_ge r.options.maxDepth depth with hlt | hle
  · simp only [r.checkDepth_bind_of_lt hlt]
    exact (Ends.record _).bind fun _ _ _ _ _ => .fail _
  · simp only [r.checkDepth_bind_of_le hle]
    exact h hle

lemma ends_enclosed {act : Nat → RenderM F σ τ Unit} (h : Ends act) (name indent : Text) :
    Ends fun n => enclosed name indent (act n) := by
  simp only [enclosed_eq_bracket]
  exact h.bracket

lemma ends_indented {act : Nat → RenderM F σ τ Unit} (h : Ends act) (indent : Text) :
    Ends fun n => indented indent (act n) := by
  simp only [indented_eq_bracket]
  exact h.bracket

lemma ends_onAside {act : Nat → RenderM F σ τ Unit} (h : Ends act) :
    Ends fun n => onAside (act n) := by
  simp only [onAside_eq_bracket]
  exact h.bracket

end Renderer

/-- Going down from sections into their bodies comes to an end. -/
def Template.WellNested (t : Template) : Prop := WellFounded t.Child

/-- A node in a range is a node at an index in the range. -/
lemma Template.exists_getElem?_of_mem_nodes {t : Template} {range : NodeRange} {node : Node}
    (h : node ∈ t.nodes range) :
    ∃ i, range.contains i ∧ t.table.nodes[i]? = some node := by
  rw [nodes, NodeTable.get] at h
  split at h
  · obtain ⟨i, hi⟩ := List.mem_iff_getElem?.1 h
    rw [List.getElem?_take] at hi
    split at hi
    · next hlt =>
      rw [List.getElem?_drop] at hi
      have hstop : range.start + i < range.stop := Nat.add_lt_add_left hlt _
      exact ⟨range.start + i, NodeRange.contains_iff.2 ⟨Nat.le_add_right _ _, hstop⟩, hi⟩
    · cases hi
  · simp at h

/-- In a compiled template a body stands in front of its section. -/
lemma Template.wellNested_of_compile {source : Text} {d : Delimiters} {t : Template}
    (h : compile source d = .ok t) : t.WellNested := by
  have hbody : ∀ i (tag : Section), t.table.nodes[i]? = some (.sectionTag tag) →
      tag.body.stop ≤ i := by
    rw [(eq_ofTrees_of_compile h).2]
    exact (shares_ofTrees source t.trees).2.1
  exact Subrelation.wf (fun hchild => hchild.lt hbody) Nat.lt_wfRel.wf

lemma Template.wellNested_of_toOption {source : Text} {d : Delimiters} {t : Template}
    (h : (compile source d).toOption = some t) : t.WellNested := by
  cases hcompile : compile source d with
  | error e =>
    rw [hcompile] at h
    cases h
  | ok t' =>
    rw [hcompile] at h
    obtain rfl : t' = t := Option.some.inj h
    exact wellNested_of_compile hcompile

namespace Renderer

variable (r : Renderer F σ τ)

section

variable {below : Nat → Nested F σ τ} {here : Setting F}
  (hnested : ∀ template, template.WellNested → here.depth + 1 ≤ r.options.maxDepth →
    Ends fun n => below n (here.nested template) template.root)

include hnested

lemma ends_renderLambdaText (tag : LambdaTag) (text : Text) :
    Ends fun n => r.renderLambdaText (below n) here tag text := by
  refine r.ends_checkDepth_bind fun hdepth => ?_
  cases hcompile : Template.compile text tag.delimiters with
  | error e => exact (Ends.record _).bind fun _ _ _ _ _ => .fail _
  | ok template =>
    have hact := ends_enclosed
      (hnested template (Template.wellNested_of_compile hcompile) hdepth) LambdaTag.lambdaName []
    dsimp only
    split
    · exact (ends_onAside hact).bind fun _ _ _ _ _ => .ofWrite _
    · exact hact

lemma ends_attend (tag : LambdaTag) (failure : Option RenderError) (call : Expansion σ) :
    Ends fun n => r.attend (below n) here tag failure call := by
  induction call generalizing failure with
  | answer result host => exact .of_ok fun _ => ⟨_, _, rfl⟩
  | remark remark next ih => exact fun s => ih failure (s.record (.remarked remark))
  | write text next ih =>
    intro s
    cases hwrite : r.sink.writeData text tag.escapes s with
    | ok a s₁ =>
      simp only [r.attend_write_of_ok hwrite]
      exact ih true failure s₁
    | error e s₁ =>
      simp only [r.attend_write_of_error hwrite]
      exact ih false _ s₁
  | render text host next ih =>
    intro s
    obtain ⟨result, hends, hrender⟩ := r.ends_renderLambdaText hnested tag text { s with host }
    rcases result with ⟨a, s₁⟩ | ⟨e | _, s₁⟩
    · obtain ⟨result', hends', hnext⟩ := ih true s₁.host failure s₁
      refine ⟨result', hends', ?_⟩
      filter_upwards [hrender, hnext] with n hn hn'
      exact (r.attend_render_of_ok hn).trans hn'
    · obtain ⟨result', hends', hnext⟩ := ih false s₁.host (failure <|> some e) s₁
      refine ⟨result', hends', ?_⟩
      filter_upwards [hrender, hnext] with n hn hn'
      exact (r.attend_render_of_failed hn).trans hn'
    · exact absurd rfl hends

lemma ends_expandLambda (frame : F) (path : Path) (tag : LambdaTag) :
    Ends fun n => r.expandLambda (below n) here frame path tag := by
  simp only [expandLambda_eq_settle]
  refine (Ends.record _).bind fun _ _ _ _ _ => .get_bind fun s => ?_
  exact (r.ends_attend hnested tag none _).bind fun _ _ answer _ _ =>
    ends_settle _ _ _ (fun _ => .pure ()) answer

lemma ends_writeValue (path : Path) (escaped : Bool) (frames : List F) :
    Ends fun n => r.writeValue (below n) here path escaped frames := by
  induction frames with
  | nil => exact .pure _
  | cons frame frames ih =>
    refine (r.ends_interpolate frame path escaped).bind fun _ _ answer _ _ => ?_
    cases answer with
    | notFound => exact ih
    | lambda => exact r.ends_expandLambda hnested _ _ _
    | broken | consumed | field => exact .pure _

lemma ends_renderPartial
    (hpartials : ∀ name template, r.partials name = some template → template.WellNested)
    (tag : Partial) : Ends fun n => r.renderPartial (below n) here tag := by
  simp only [renderPartial]
  cases hpartial : r.partials tag.name with
  | none => exact .pure _
  | some template =>
    refine r.ends_checkDepth_bind fun hdepth => ?_
    exact ends_enclosed (ends_indented (hnested template (hpartials _ _ hpartial) hdepth) _) _ _

/-- An owner that has an element has it at index zero, so its section ends further on. -/
lemma ends_renderSection (hsections : r.host.EndsSections) {tag : Section}
    (hbody : ∀ elem, Ends fun n => below n (here.inside elem) tag.body) :
    Ends fun n => r.renderSection (below n) n here tag := by
  refine (r.ends_owner tag.path here.scope).bind fun _ s found s' hfound => ?_
  rcases found with _ | ⟨frame, _ | _ | _ | _ | elem⟩
  · exact .pure _
  · exact .pure _
  · exact .pure _
  · exact .pure _
  · exact r.ends_expandLambda hnested _ _ _
  · obtain ⟨host, hget⟩ := r.exists_get_of_owner hfound
    obtain ⟨index, hends⟩ := hsections frame tag.path
    have hindex : 1 ≤ index := by
      refine Nat.one_le_iff_ne_zero.2 ?_
      rintro rfl
      exact hends host elem hget
    obtain ⟨more, rfl⟩ := Nat.exists_eq_add_of_le hindex
    exact (hbody elem).bind fun _ _ _ _ _ => r.ends_renderElements hbody hends

end

lemma ends_renderInverted {below : Nat → Nested F σ τ} {here : Setting F} {tag : Section}
    (hbody : Ends fun n => below n here tag.body) :
    Ends fun n => r.renderInverted (below n) here tag := by
  refine (r.ends_owner tag.path here.scope).bind fun _ _ found _ _ => ?_
  rcases found with _ | ⟨frame, answer⟩
  · exact hbody
  · cases answer with
    | field _ | lambda => exact .pure _
    | notFound | broken | consumed => exact hbody

/-! ### Nodes -/

section

variable (hsections : r.host.EndsSections)
  (hpartials : ∀ name template, r.partials name = some template → template.WellNested)

include hsections hpartials

lemma ends_renderNode {below : Nat → Nested F σ τ} {here : Setting F} {node : Node}
    (hnested : ∀ template, template.WellNested → here.depth + 1 ≤ r.options.maxDepth →
      Ends fun n => below n (here.nested template) template.root)
    (hbody : ∀ tag, node = .sectionTag tag → ∀ scope,
      Ends fun n => below n { here with scope } tag.body) :
    Ends fun n => r.renderNode (below n) n here node := by
  cases node with
  | text span => exact .ofWrite _
  | variableTag tag => exact r.ends_writeValue hnested _ _ _
  | partialTag tag => exact r.ends_renderPartial hnested hpartials tag
  | sectionTag tag =>
    simp only [renderNode]
    split
    · exact r.ends_renderInverted (hbody tag rfl here.scope)
    · exact r.ends_renderSection hnested hsections fun elem => hbody tag rfl (elem :: here.scope)

/-- The nodes at one depth, if what is nested deeper ends: induction on the index of a node, from
sections into their bodies. -/
lemma ends_renderNode_of_nested {t : Template} (ht : t.WellNested) {depth : Nat}
    (hnested : ∀ there, there.template.WellNested → there.depth = depth + 1 →
      depth + 1 ≤ r.options.maxDepth → ∀ range, Ends (r.renderNodes · there range))
    (i : Nat) {node : Node} (hnode : t.table.nodes[i]? = some node) (scope : List F) :
    Ends fun n => r.renderNode (r.renderNodes n) n ⟨t, scope, depth⟩ node := by
  induction i using ht.induction generalizing node scope with
  | _ i ih =>
    refine r.ends_renderNode hsections hpartials (fun template htemplate hdepth => ?_) ?_
    · exact hnested _ htemplate rfl hdepth template.root
    · rintro tag rfl scope
      refine .of_succ (.forM fun node hmem => ?_)
      obtain ⟨j, hcontains, hj⟩ := Template.exists_getElem?_of_mem_nodes hmem
      exact ih j ⟨tag, hnode, hcontains⟩ hj scope

/-- Induction on how much deeper renderings may be nested. -/
lemma ends_renderNodes (here : Setting F) (htemplate : here.template.WellNested)
    (range : NodeRange) : Ends (r.renderNodes · here range) := by
  induction hmore : r.options.maxDepth - here.depth using Nat.strong_induction_on
    generalizing here range with
  | _ more ih =>
    refine .of_succ (.forM fun node hmem => ?_)
    obtain ⟨i, -, hi⟩ := Template.exists_getElem?_of_mem_nodes hmem
    refine r.ends_renderNode_of_nested hsections hpartials htemplate ?_ i hi here.scope
    intro there hthere hdepth hle range
    exact ih _ (by omega) there hthere range rfl

lemma ends_render {template : Template} (htemplate : template.WellNested) (root : F) :
    Ends fun fuel => r.render fuel template root :=
  (r.ends_renderNodes hsections hpartials _ htemplate _).bind fun _ _ _ _ _ => .ofWrite _

end

/-! ### Whole renderings -/

/-- With enough fuel, rendering the template with the root of the data has this result. -/
def Returns (template : Template) (root : F) (host : σ) (sink : τ)
    (result : EStateM.Result Halt (RenderState F σ τ) Unit) : Prop :=
  Concludes (fun fuel => r.render fuel template root (.start host sink)) result

/-- A rendering that has ended with some fuel has its result. -/
lemma returns_render {fuel : Nat} {template : Template} {root : F} {host : σ} {sink : τ}
    (hends : outcome (r.render fuel template root (.start host sink)) ≠ .error .unfinished) :
    r.Returns template root host sink (r.render fuel template root (.start host sink)) :=
  ⟨hends, eventually_atTop.2 ⟨fuel, fun _ hle => r.render_eq_of_le hends hle⟩⟩

/-- If the host ends its sections, a rendering comes to an end, done or failed, whatever includes
whatever; and at no moment are more partials and texts of lambdas under way than the options
allow. -/
theorem exists_returns_and_underway_le (hsections : r.host.EndsSections)
    (hpartials : ∀ name template, r.partials name = some template → template.WellNested)
    {template : Template} (htemplate : template.WellNested) (root : F) (host : σ) (sink : τ) :
    (∃ result, r.Returns template root host sink result) ∧
      ∀ fuel before,
        before <+: (reached (r.render fuel template root (.start host sink))).events →
          (underway before).length ≤ r.options.maxDepth :=
  ⟨r.ends_render hsections hpartials htemplate root (.start host sink),
    fun fuel _ hbefore => r.length_underway_le fuel template root host sink hbefore⟩

/-- A host for which every name is one element to a section and a lambda to a variable, which has
the same text rendered each time. -/
def rerendering (text : Text) : Host Unit Unit :=
  { Host.constant .lambda with
    get _ _ index s := (.ok (if index = 0 then .field () else .consumed), s)
    expand _ _ _ s := .render text s fun _ s => .answer (.ok .field) s }

lemma endsSections_rerendering (text : Text) : (rerendering text).EndsSections :=
  fun _ _ => ⟨1, fun _ elem => by simp [rerendering]⟩

/-- Two partials that include one another, the first within a section, the second after a lambda. -/
def ring (name : Text) : Option Template :=
  if name = ['p'] then (Template.compile "{{#s}}{{>q}}{{/s}}".toList .standard).toOption
  else if name = ['q'] then (Template.compile "{{l}}{{>p}}".toList .standard).toOption
  else none

lemma wellNested_of_ring (name : Text) (template : Template) (h : ring name = some template) :
    template.WellNested := by
  rw [ring] at h
  split at h
  · exact Template.wellNested_of_toOption h
  · split at h
    · exact Template.wellNested_of_toOption h
    · cases h

/-- Renderings with the partials that include one another, and a lambda that renders the first. -/
def ringRenderer : Renderer Unit Unit ByteArray :=
  ⟨rerendering "{{>p}}".toList, .buffer, { RenderOptions.standard with maxDepth := 3 }, ring⟩

/-- Three renderings come to be under way; the fourth is refused, and the rendering ends with
that. -/
theorem exists_returns_ringRenderer :
    ∃ t, Template.compile "{{>p}}".toList .standard = .ok t ∧
      ringRenderer.host.EndsSections ∧ t.WellNested ∧
      (∀ name template, ringRenderer.partials name = some template → template.WellNested) ∧
      outcome (ringRenderer.render 9 t () (.start () .empty)) =
        .error (.failed (.recursionLimit 3 ['p'])) ∧
      underway ((reached (ringRenderer.render 9 t () (.start () .empty))).events.take 6) =
        [LambdaTag.lambdaName, ['q'], ['p']] ∧
      (∃ result, ringRenderer.Returns t () () .empty result) ∧
      ∀ fuel before,
        before <+: (reached (ringRenderer.render fuel t () (.start () .empty))).events →
          (underway before).length ≤ 3 := by
  have hrun : (Template.compile "{{>p}}".toList .standard).map
      (fun t => (outcome (ringRenderer.render 9 t () (.start () .empty)),
        underway ((reached (ringRenderer.render 9 t () (.start () .empty))).events.take 6))) =
        .ok (.error (.failed (.recursionLimit 3 ['p'])), [LambdaTag.lambdaName, ['q'], ['p']]) := by
    decide +kernel
  obtain ⟨t, hcompile, hrun⟩ := exists_eq_ok_of_map_eq_ok hrun
  obtain ⟨hend, hunderway⟩ := Prod.mk.inj hrun
  have ht : t.WellNested := Template.wellNested_of_compile hcompile
  exact ⟨t, hcompile, endsSections_rerendering _, ht, wellNested_of_ring, hend, hunderway,
    exists_returns_and_underway_le ringRenderer (endsSections_rerendering _) wellNested_of_ring ht
      () () .empty⟩

end Renderer

end Mustache
