import Mathlib.Order.Filter.AtTopBot.Basic
import Mathlib.Order.Filter.Finite
import Mathlib.Data.Set.Finite.List
import Mustache.Proofs.Host.Plain
import Mustache.Proofs.Rendering.Appending
import Mustache.Proofs.Template.Leaves
import Mustache.Rendering.Estimate

/-!
# Rendering plain values

On every host that serves plain values, rendering a template writes what its markup means. The
renderer asks the host about one frame and one index after the other; the meaning is told over
values and their elements. The two walk the same trees: first for what a name is found to be, then
for a section over the elements of a value, and then for whole sequences of trees.
-/

namespace Mustache

open Filter

variable {F σ : Type} {Stands : F → Value → Prop}

/-! ### Finding names -/

namespace Markup

variable {v w : Value} {outer : List Value} {path : Path}

lemma find?_cons_of_ok (h : v.resolve path = .ok w) (outer : List Value) :
    find? path (v :: outer) = some w := by simp [find?, h]

lemma find?_cons_of_notFound (h : v.resolve path = .error .notFound) (outer : List Value) :
    find? path (v :: outer) = find? path outer := by simp [find?, h]

lemma find?_cons_of_broken (h : v.resolve path = .error .broken) (outer : List Value) :
    find? path (v :: outer) = none := by simp [find?, h]

lemma plain_of_find? {stack : List Value} (hstack : ∀ v ∈ stack, v.Plain)
    (h : find? path stack = some w) : w.Plain := by
  induction stack with
  | nil => simp [find?] at h
  | cons v outer ih =>
    cases hv : v.resolve path with
    | ok u =>
      rw [find?_cons_of_ok hv, Option.some.injEq] at h
      exact h ▸ (hstack v List.mem_cons_self).resolve hv
    | error r =>
      rcases Value.eq_of_resolve_eq_error hv with rfl | rfl
      · rw [find?_cons_of_notFound hv] at h
        exact ih (fun u hu => hstack u (List.mem_cons_of_mem v hu)) h
      · rw [find?_cons_of_broken hv] at h
        simp at h

/-- Whatever a section over plain values is rendered for is plain. -/
lemma plain_of_mem_elements {stack : List Value} (hstack : ∀ v ∈ stack, v.Plain)
    (h : v ∈ elements path stack) : v.Plain := by
  rw [elements] at h
  split at h
  · next w hw => exact (plain_of_find? hstack hw).of_mem_elements h
  · simp at h

end Markup

/-! ### Asking a host of plain values -/

/-- The frames of a scope stand, one by one, for plain values. -/
def InScope (Stands : F → Value → Prop) (scope : List F) (stack : List Value) : Prop :=
  List.Forall₂ (fun f v => Stands f v ∧ v.Plain) scope stack

lemma InScope.plain {scope : List F} {stack : List Value} (h : InScope Stands scope stack) :
    ∀ v ∈ stack, v.Plain := by
  induction h with
  | nil => simp
  | cons hv _ ih =>
    intro u hu
    rcases List.mem_cons.1 hu with rfl | hu
    · exact hv.2
    · exact ih u hu

namespace Renderer

variable {r : Renderer F σ ByteArray} {f : F} {v w : Value} {path : Path} {scope : List F}
  {stack : List Value}

lemma appends_lookUp {index : Nat} {P : Except ResolveError (Lookup F) → Prop}
    (h : ∀ s, P (r.host.get f path index s).1) : Appends (r.lookUp f path index) [] P := by
  intro s hs
  exact ⟨_, _, rfl, h s.host, hs, by simp [RenderState.record]⟩

/-- What the host has said about the owner of a path that has the elements told by the stack. -/
inductive Owned (Stands : F → Value → Prop) (path : Path) (stack : List Value) :
    Option (F × Lookup F) → Prop
  | element {f g : F} {v w e : Value} (hfind : Markup.find? path stack = some w)
      (hv : Stands f v) (hplain : v.Plain) (hresolve : v.resolve path = .ok w)
      (he : w.elements[0]? = some e) (hg : Stands g e) :
      Owned Stands path stack (some (f, .field g))
  | consumed (f : F) (h : Markup.elements path stack = []) :
      Owned Stands path stack (some (f, .consumed))
  | broken (f : F) (h : Markup.elements path stack = []) :
      Owned Stands path stack (some (f, .broken))
  | nobody (h : Markup.elements path stack = []) : Owned Stands path stack none

lemma Owned.cons_of_notFound {answer : Option (F × Lookup F)} {outer : List Value}
    (hv : v.resolve path = .error .notFound) (h : Owned Stands path outer answer) :
    Owned Stands path (v :: outer) answer := by
  have hfind := Markup.find?_cons_of_notFound hv outer
  have helements : Markup.elements path (v :: outer) = Markup.elements path outer := by
    rw [Markup.elements, hfind, Markup.elements]
  cases h with
  | element hw hv hplain hresolve he hg =>
    exact .element (hfind.trans hw) hv hplain hresolve he hg
  | consumed f h => exact .consumed f (helements.trans h)
  | broken f h => exact .broken f (helements.trans h)
  | nobody h => exact .nobody (helements.trans h)

variable (hserves : r.host.Serves Stands) (hv : Stands f v) (hplain : v.Plain)

include hserves

section
include hv hplain

lemma appends_lookUp_error {e : Resolution} (h : v.resolve path = .error e) (index : Nat) :
    Appends (r.lookUp f path index) [] fun answer => answer = .ok (.ofResolution e) :=
  appends_lookUp fun s => hserves.get_error hv hplain h index s

lemma appends_lookUp_element {index : Nat} {e : Value} (h : v.resolve path = .ok w)
    (he : w.elements[index]? = some e) :
    Appends (r.lookUp f path index) [] fun answer =>
      ∃ g, answer = .ok (.field g) ∧ Stands g e :=
  appends_lookUp fun s => hserves.get_element hv hplain h he s

lemma appends_lookUp_consumed {index : Nat} (h : v.resolve path = .ok w)
    (he : w.elements[index]? = none) :
    Appends (r.lookUp f path index) [] fun answer => answer = .ok .consumed :=
  appends_lookUp fun s => hserves.get_consumed hv hplain h he s

/-- A body is rendered for every element that is left. -/
lemma appends_renderElements {body : F → RenderM F σ ByteArray Unit} {written : Value → Text}
    (hw : v.resolve path = .ok w)
    (hbody : ∀ e ∈ w.elements, ∀ g, Stands g e → Appends (body g) (written e) fun _ => True)
    {fuel index : Nat} (hfuel : w.elements.length < fuel + index)
    (hindex : index ≤ w.elements.length) :
    Appends (r.renderElements f path body fuel index)
      ((w.elements.drop index).flatMap written) fun _ => True := by
  induction fuel generalizing index with
  | zero => omega
  | succ fuel ih =>
    rw [renderElements]
    cases he : w.elements[index]? with
    | none =>
      have hdrop : w.elements.drop index = [] := by
        rw [List.drop_eq_nil_iff]
        exact List.getElem?_eq_none_iff.1 he
      rw [hdrop]
      apply (appends_lookUp_consumed hserves hv hplain hw he).bind_nil
      rintro _ rfl
      exact .pure trivial
    | some e =>
      obtain ⟨hlt, rfl⟩ := List.getElem?_eq_some_iff.1 he
      rw [List.drop_eq_getElem_cons hlt, List.flatMap_cons]
      apply (appends_lookUp_element hserves hv hplain hw he).bind_nil
      rintro _ ⟨g, rfl, hg⟩
      apply (hbody _ (List.getElem_mem hlt) g hg).bind
      intro _ _
      exact ih (by omega) hlt

end

/-- The owner of a path is the frame of the value in which the path is found. -/
lemma appends_owner (hscope : InScope Stands scope stack) :
    Appends (r.owner path scope) [] (Owned Stands path stack) := by
  induction hscope with
  | nil => exact .pure (.nobody rfl)
  | @cons f v frames outer hf _ ih =>
    obtain ⟨hv, hplain⟩ := hf
    rw [owner]
    cases hresolve : v.resolve path with
    | error e =>
      apply (appends_lookUp_error hserves hv hplain hresolve 0).bind_nil
      rintro _ rfl
      rcases Value.eq_of_resolve_eq_error hresolve with rfl | rfl
      · exact ih.mono fun _ h => h.cons_of_notFound hresolve
      · refine .pure (.broken f ?_)
        rw [Markup.elements, Markup.find?_cons_of_broken hresolve]
    | ok w =>
      have hfind := Markup.find?_cons_of_ok hresolve outer
      cases he : w.elements[0]? with
      | none =>
        apply (appends_lookUp_consumed hserves hv hplain hresolve he).bind_nil
        rintro _ rfl
        refine .pure (.consumed f ?_)
        rw [Markup.elements, hfind]
        exact List.eq_nil_of_length_eq_zero (Nat.le_zero.1 (List.getElem?_eq_none_iff.1 he))
      | some e =>
        apply (appends_lookUp_element hserves hv hplain hresolve he).bind_nil
        rintro _ ⟨g, rfl, hg⟩
        exact .pure (.element hfind hv hplain hresolve he hg)

/-! ### Writing values -/

/-- What a tag writes of a text. -/
def writtenAs (escaped : Bool) (text : Text) : Text := if escaped then escapeHtml text else text

omit hserves in
lemma appends_serve_answer (escaped : Bool) (result : HostResult) (host : σ) :
    Appends (r.serve escaped none (.answer result host)) [] fun a => a = (none, result) := by
  intro s hs
  exact ⟨_, _, rfl, rfl, hs, by simp⟩

omit hserves in
lemma appends_serve_write (hsink : r.sink = .buffer) (escaped : Bool) (text : Text)
    {next : Except SinkErrorKind Unit → Interpolation σ} {host : σ}
    (hnext : next (.ok ()) = .answer (.ok .field) host) :
    Appends (r.serve escaped none (.write false text next)) (writtenAs escaped text)
      fun a => a = (none, .ok .field) := by
  intro s hs
  obtain ⟨_, s', hwrite, -, hs', hsink'⟩ := Sink.appends_writeData text escaped s hs
  refine ⟨(none, .ok .field), { s' with host }, ?_, rfl, hs', hsink'⟩
  rw [serve]
  simp only [hsink, Bool.not_false, Bool.and_true, hwrite, hnext]
  rfl

omit hserves in
/-- Interpolation appends what serving the host's requests appends. -/
lemma appends_interpolate {escaped : Bool} {text : Text} {a : Resolution}
    (h : ∀ s, Appends (r.serve escaped none (r.host.interpolate f path escaped s)) text
      fun served => served = (none, .ok a)) :
    Appends (r.interpolate f path escaped) text fun answer => answer = a := by
  refine .get_bind ?_
  intro s _
  refine ((h s.host).bind ?_).of_eq (List.append_nil text)
  rintro _ rfl
  apply (Appends.record _).bind_nil
  intro _ _
  exact .pure rfl

include hv hplain in
lemma appends_interpolate_error {e : Resolution} (h : v.resolve path = .error e)
    (escaped : Bool) : Appends (r.interpolate f path escaped) [] fun answer => answer = e := by
  apply appends_interpolate
  intro s
  obtain ⟨s', hs'⟩ := hserves.interpolate_error hv hplain h escaped s
  rw [hs']
  exact appends_serve_answer escaped _ s'

include hv hplain in
lemma appends_interpolate_ok (hsink : r.sink = .buffer) (h : v.resolve path = .ok w)
    (escaped : Bool) :
    Appends (r.interpolate f path escaped) (writtenAs escaped (w.scalar?.getD []))
      fun answer => answer = .field := by
  apply appends_interpolate
  intro s
  cases hscalar : w.scalar? with
  | some t =>
    obtain ⟨next, s', hwrite, hnext⟩ :=
      hserves.interpolate_scalar hv hplain h hscalar escaped s
    rw [hwrite]
    exact appends_serve_write hsink escaped t hnext
  | none =>
    obtain ⟨s', hs'⟩ := hserves.interpolate_other hv hplain h hscalar escaped s
    rw [hs']
    exact (appends_serve_answer escaped _ s').of_eq (by cases escaped <;> rfl)

/-- The value is written of which the path is found first, as the stack tells. -/
lemma appends_writeValue (hsink : r.sink = .buffer) (below : Nested F σ ByteArray)
    (here : Setting F) (escaped : Bool) (hscope : InScope Stands scope stack) :
    Appends (r.writeValue below here path escaped scope)
      (writtenAs escaped (Markup.scalar path stack)) fun _ => True := by
  induction hscope with
  | nil =>
    apply (Appends.pure trivial).of_eq
    cases escaped <;> rfl
  | @cons f v frames outer hf _ ih =>
    obtain ⟨hv, hplain⟩ := hf
    rw [writeValue, Markup.scalar]
    cases hresolve : v.resolve path with
    | error e =>
      apply (appends_interpolate_error hserves hv hplain hresolve escaped).bind_nil
      rintro _ rfl
      rcases Value.eq_of_resolve_eq_error hresolve with rfl | rfl
      · rw [Markup.find?_cons_of_notFound hresolve]
        exact ih
      · rw [Markup.find?_cons_of_broken hresolve]
        apply (Appends.pure trivial).of_eq
        cases escaped <;> rfl
    | ok w =>
      rw [Markup.find?_cons_of_ok hresolve]
      refine ((appends_interpolate_ok hserves hv hplain hsink hresolve escaped).bind ?_).of_eq
        (List.append_nil _)
      rintro _ rfl
      exact .pure trivial

/-! ### Sections -/

variable {below : Nested F σ ByteArray} {here : Setting F} {tag : Section}

lemma appends_renderSection {fuel : Nat} {written : Value → Text}
    (hscope : InScope Stands here.scope stack)
    (hbody : ∀ e ∈ Markup.elements tag.path stack, ∀ g, Stands g e →
      Appends (below (here.inside g) tag.body) (written e) fun _ => True)
    (hfuel : (Markup.elements tag.path stack).length ≤ fuel) :
    Appends (r.renderSection below fuel here tag)
      ((Markup.elements tag.path stack).flatMap written) fun _ => True := by
  apply (appends_owner hserves hscope).bind_nil
  intro answer hanswer
  cases hanswer with
  | @element f g v w e hfind hv hplain hresolve he hg =>
    have helements : Markup.elements tag.path stack = w.elements := by
      rw [Markup.elements, hfind]
    rw [helements] at hbody hfuel ⊢
    obtain ⟨hlt, rfl⟩ := List.getElem?_eq_some_iff.1 he
    rw [← List.drop_zero (l := w.elements), List.drop_eq_getElem_cons hlt, List.flatMap_cons]
    apply (hbody _ (List.getElem_mem hlt) g hg).bind
    intro _ _
    exact appends_renderElements hserves hv hplain hresolve hbody (by omega) hlt
  | consumed f h | broken f h | nobody h =>
    rw [h]
    exact .pure trivial

lemma appends_renderInverted {text : Text} (hscope : InScope Stands here.scope stack)
    (hbody : Markup.elements tag.path stack = [] →
      Appends (below here tag.body) text fun _ => True) :
    Appends (r.renderInverted below here tag)
      (if Markup.elements tag.path stack = [] then text else []) fun _ => True := by
  apply (appends_owner hserves hscope).bind_nil
  intro answer hanswer
  cases hanswer with
  | @element f g v w e hfind hv hplain hresolve he hg =>
    have helements : Markup.elements tag.path stack ≠ [] := by
      rw [Markup.elements, hfind]
      rintro hnil
      simp [hnil] at he
    rw [if_neg helements]
    exact .pure trivial
  | consumed f h | broken f h | nobody h =>
    rw [if_pos h]
    exact hbody h

/-! ### Trees -/

omit hserves in
lemma renderNodes_succ (r : Renderer F σ ByteArray) (n : Nat) (here : Setting F)
    (range : NodeRange) :
    r.renderNodes (n + 1) here range =
      (here.template.nodes range).forM (r.renderNode (r.renderNodes n) n here) := rfl

/-- Wherever the frames in scope stand for a stack of plain values, the action appends a text. -/
def AppendsOver (Stands : F → Value → Prop) (template : Template) (stack : List Value)
    (act : Setting F → RenderM F σ ByteArray Unit) (text : Text) : Prop :=
  ∀ here : Setting F, here.template = template → InScope Stands here.scope stack →
    Appends (act here) text fun _ => True

omit hserves in
/-- What holds with enough fuel holds one level further up. -/
lemma eventually_succ {P : Nat → Prop} (h : ∀ᶠ n in atTop, P n) :
    ∀ᶠ n in atTop, ∃ m, n = m + 1 ∧ P m := by
  rw [← map_add_atTop_eq_nat 1, eventually_map]
  exact h.mono fun m hm => ⟨m, rfl, hm⟩

variable {tpl : Template}

/-- A section is rendered for as many elements as it has, each on top of the stack. -/
lemma eventually_appendsOver_section (tag : Section) {written : Value → Text}
    (hstack : ∀ v ∈ stack, v.Plain)
    (hbody : ∀ v ∈ Markup.elements tag.path stack, ∀ᶠ n in atTop,
      AppendsOver Stands tpl (v :: stack) (fun here => r.renderNodes n here tag.body) (written v)) :
    ∀ᶠ n in atTop, AppendsOver Stands tpl stack
      (fun here => r.renderSection (r.renderNodes n) n here tag)
      ((Markup.elements tag.path stack).flatMap written) := by
  have hall := (eventually_all_finite (List.finite_toSet _)).2 hbody
  filter_upwards [hall, eventually_ge_atTop (Markup.elements tag.path stack).length]
    with n hn hlength here htemplate hscope
  refine appends_renderSection hserves hscope (fun v hv g hg => ?_) hlength
  apply hn v hv (here.inside g) htemplate
  exact .cons ⟨hg, Markup.plain_of_mem_elements hstack hv⟩ hscope

/-- An inverted section is rendered over the same stack. -/
lemma eventually_appendsOver_inverted (tag : Section) {text : Text}
    (hbody : ∀ᶠ n in atTop,
      AppendsOver Stands tpl stack (fun here => r.renderNodes n here tag.body) text) :
    ∀ᶠ n in atTop, AppendsOver Stands tpl stack
      (fun here => r.renderInverted (r.renderNodes n) here tag)
      (if Markup.elements tag.path stack = [] then text else []) := by
  filter_upwards [hbody] with n hn here htemplate hscope
  exact appends_renderInverted hserves hscope fun _ => hn here htemplate hscope

end Renderer

open Renderer

mutual

lemma Tree.eventually_appendsOver_lay {r : Renderer F σ ByteArray}
    (hserves : r.host.Serves Stands) (hsink : r.sink = .buffer) (tpl : Template)
    (table : NodeTable) (t : Tree) (hsub : (t.lay table).2.nodes <+: tpl.table.nodes)
    (hleaves : ∀ tag, .partialTag tag ∉ t.leaves) {stack : List Value}
    (hstack : ∀ v ∈ stack, v.Plain) :
    ∀ᶠ n in atTop, AppendsOver Stands tpl stack
      (fun here => r.renderNode (r.renderNodes n) n here (t.lay table).1)
      ((t.markup tpl.source).evaluate r.options.escaping stack) := by
  match t with
  | .text span =>
    apply Eventually.of_forall
    intro n here htemplate hscope
    beta_reduce
    rw [Tree.lay_text, renderNode, hsink, htemplate, Tree.markup, Markup.evaluate]
    exact (Sink.appends_writeText _).ofWrite
  | .variableTag tag =>
    apply Eventually.of_forall
    intro n here htemplate hscope
    beta_reduce
    rw [Tree.lay_variableTag, renderNode, Tree.markup, Markup.evaluate]
    exact appends_writeValue hserves hsink _ here _ hscope
  | .partialTag tag => exact absurd (by simp) (hleaves tag)
  | .sectionTag heading body =>
    rw [Tree.lay_sectionTag] at hsub ⊢
    rw [Tree.leaves_sectionTag] at hleaves
    have hget := NodeTable.get_append_of_isPrefix hsub
    have hinner := (NodeTable.prefix_append _ _).trans hsub
    -- the body over a stack, rendered from the range that was returned for it
    let tag : Section := ⟨heading, ((layAll table body).2.append (layAll table body).1).1⟩
    have hbody : ∀ stack, (∀ v ∈ stack, v.Plain) → ∀ᶠ n in atTop,
        AppendsOver Stands tpl stack (fun here => r.renderNodes n here tag.body)
          (Markup.evaluateAll r.options.escaping stack (Tree.markupAll tpl.source body)) := by
      intro stack hstack
      have ih :=
        Tree.eventually_appendsOver_layAll hserves hsink tpl table body hinner hleaves hstack
      filter_upwards [eventually_succ ih] with n hn here htemplate hscope
      obtain ⟨m, rfl, hm⟩ := hn
      beta_reduce
      rw [renderNodes_succ, htemplate, Template.nodes, hget]
      exact hm here htemplate hscope
    cases hinverted : heading.inverted with
    | true =>
      have hwhole := eventually_appendsOver_inverted hserves tag (hbody stack hstack)
      filter_upwards [hwhole] with n hn here htemplate hscope
      beta_reduce
      rw [Tree.markup, hinverted, Markup.evaluate, renderNode, if_pos hinverted]
      exact hn here htemplate hscope
    | false =>
      have hpushed : ∀ v ∈ Markup.elements heading.path stack, ∀ u ∈ v :: stack, u.Plain := by
        intro v hv u hu
        rcases List.mem_cons.1 hu with rfl | hu
        · exact Markup.plain_of_mem_elements hstack hv
        · exact hstack u hu
      have hwhole := eventually_appendsOver_section hserves tag hstack
        fun v hv => hbody (v :: stack) (hpushed v hv)
      filter_upwards [hwhole] with n hn here htemplate hscope
      beta_reduce
      rw [Tree.markup, hinverted, Markup.evaluate, renderNode, if_neg (by simp [hinverted])]
      exact hn here htemplate hscope

/-- With enough fuel the nodes of trees append what the markup of the trees means. -/
lemma Tree.eventually_appendsOver_layAll {r : Renderer F σ ByteArray}
    (hserves : r.host.Serves Stands) (hsink : r.sink = .buffer) (tpl : Template)
    (table : NodeTable) (ts : List Tree) (hsub : (Tree.layAll table ts).2.nodes <+: tpl.table.nodes)
    (hleaves : ∀ tag, .partialTag tag ∉ Tree.leavesAll ts) {stack : List Value}
    (hstack : ∀ v ∈ stack, v.Plain) :
    ∀ᶠ n in atTop, AppendsOver Stands tpl stack
      (fun here => (Tree.layAll table ts).1.forM (r.renderNode (r.renderNodes n) n here))
      (Markup.evaluateAll r.options.escaping stack (Tree.markupAll tpl.source ts)) := by
  match ts with
  | [] =>
    apply Eventually.of_forall
    intro n here htemplate hscope
    rw [Tree.layAll_nil, Tree.markupAll, Markup.evaluateAll_nil]
    exact .pure trivial
  | t :: ts =>
    rw [Tree.layAll_cons] at hsub ⊢
    simp only [Tree.leavesAll_cons, List.mem_append, not_or] at hleaves
    have hlater := Tree.prefix_layAll (t.lay table).2 ts
    have ih := Tree.eventually_appendsOver_lay hserves hsink tpl table t (hlater.trans hsub)
      (fun tag => (hleaves tag).1) hstack
    have ihs := Tree.eventually_appendsOver_layAll hserves hsink tpl _ ts hsub
      (fun tag => (hleaves tag).2) hstack
    filter_upwards [ih, ihs] with n hn hns here htemplate hscope
    rw [Tree.markupAll, Markup.evaluateAll_cons]
    exact (hn here htemplate hscope).bind fun _ _ => hns here htemplate hscope

end

/-! ### Templates -/

namespace Renderer

variable {r : Renderer F σ ByteArray}

lemma appends_foldlM {α β : Type} {step : β → α → RenderM F σ ByteArray β} {xs : List α}
    (h : ∀ b, ∀ x ∈ xs, Appends (step b x) [] fun _ => True) (b : β) :
    Appends (xs.foldlM step b) [] fun _ => True := by
  induction xs generalizing b with
  | nil => exact .pure trivial
  | cons x xs ih =>
    rw [List.foldlM_cons]
    apply (h b x List.mem_cons_self).bind_nil
    intro b' _
    exact ih (fun b y hy => h b y (List.mem_cons_of_mem x hy)) b'

/-- Asking for sizes writes nothing, whatever the answers. -/
lemma appends_estimate (r : Renderer F σ ByteArray) (template : Template) (root : F) :
    Appends (r.estimate template root) [] fun _ => True := by
  refine (appends_foldlM (fun sum node _ => ?_) 0).bind_nil fun _ _ => .pure trivial
  refine Appends.bind_nil (P := fun _ => True) ?_ fun _ _ => .pure trivial
  cases node with
  | variableTag tag =>
    intro s hs
    exact ⟨_, _, rfl, trivial, hs, by simp [RenderState.record]⟩
  | text span | sectionTag tag | partialTag tag => exact .pure trivial

lemma eventually_appends_render (hserves : r.host.Serves Stands) (hsink : r.sink = .buffer)
    {source : Text} {d : Delimiters} {t : Template} (hcompile : Template.compile source d = .ok t)
    (hsigil : ∀ raw, .tag raw ∈ (scan source d).tokens → raw.sigil ≠ .angle) {root : F}
    {v : Value} (hroot : Stands root v) (hplain : v.Plain) :
    ∀ᶠ fuel in atTop, Appends (r.render fuel t root)
      (Markup.evaluateAll r.options.escaping [v] t.markup) fun _ => True := by
  have hleaves : ∀ tag, .partialTag tag ∉ Tree.leavesAll t.trees := by
    intro tag hmem
    obtain ⟨raw, hraw, hangle, -⟩ := Template.exists_raw_of_partialTag_mem hcompile hmem
    exact hsigil raw hraw hangle
  have htrees := (Template.eq_ofTrees_of_compile hcompile).2
  have hsub := Template.prefix_layAll_ofTrees source t.trees
  have hroots := Template.rootNodes_ofTrees source t.trees
  rw [← htrees] at hsub hroots
  have hstack : ∀ u ∈ [v], u.Plain := by simpa using hplain
  have hnodes := Tree.eventually_appendsOver_layAll hserves hsink t .empty t.trees hsub hleaves
    hstack
  filter_upwards [eventually_succ hnodes] with fuel hfuel
  obtain ⟨n, rfl, hn⟩ := hfuel
  have hroot : Appends (r.renderNodes (n + 1) ⟨t, [root], 0⟩ t.root)
      (Markup.evaluateAll r.options.escaping [v] t.markup) fun _ => True := by
    rw [renderNodes_succ]
    show Appends (t.rootNodes.forM _) _ _
    rw [hroots]
    exact hn ⟨t, [root], 0⟩ rfl (.cons ⟨hroot, hplain⟩ .nil)
  refine (hroot.bind fun _ _ => ?_).of_eq (List.append_nil _)
  rw [hsink]
  exact Sink.appends_finish.ofWrite

/-- The text that the buffer holds. -/
def readBuffer : RenderM F σ ByteArray Text := do
  match Text.ofBytes? (← get).sink with
  | some text => pure text
  | none      => RenderM.fail (.write invalidText)

lemma readBuffer_apply {s : RenderState F σ ByteArray} {text : Text} (h : s.sink = text.bytes) :
    readBuffer s = .ok text s := by
  have hget : (get : RenderM F σ ByteArray (RenderState F σ ByteArray)) s = .ok s s := rfl
  rw [readBuffer, bind_apply_of_ok hget, h, Text.ofBytes?_bytes]
  rfl

lemma renderToText_eq (fuel : Nat) (t : Template) (root : F) :
    r.renderToText fuel t root =
      if r.options.hints then
        r.estimate t root >>= fun size => RenderM.record (.reserved size) >>= fun _ =>
          r.render fuel t root >>= fun _ => readBuffer
      else r.render fuel t root >>= fun _ => readBuffer := rfl

/-- Rendering into a text gives the text that is appended: a buffer that starts empty holds its
bytes. -/
lemma renderToText_of_appends {fuel : Nat} {t : Template} {root : F} {text : Text}
    (h : Appends (r.render fuel t root) text fun _ => True) (host : σ) :
    ∃ s, r.renderToText fuel t root (.start host .empty) = .ok text s := by
  have hread : ∀ s₁ : RenderState F σ ByteArray, s₁.output.IsDirect → s₁.sink = .empty →
      ∃ s, (r.render fuel t root >>= fun _ => readBuffer) s₁ = .ok text s := by
    intro s₁ hdirect hempty
    obtain ⟨_, s, hrender, -, -, hsink⟩ := h s₁ hdirect
    rw [hempty, ByteArray.empty_append] at hsink
    refine ⟨s, ?_⟩
    rw [bind_apply_of_ok hrender]
    exact readBuffer_apply hsink
  rw [renderToText_eq]
  cases r.options.hints with
  | false => exact hread (.start host .empty) ⟨rfl, rfl⟩ rfl
  | true =>
    obtain ⟨size, s₁, hsize, -, hdirect, hsink⟩ :=
      appends_estimate r t root (.start host .empty) ⟨rfl, rfl⟩
    rw [Text.bytes_nil, ByteArray.append_empty] at hsink
    obtain ⟨s, hs⟩ := hread (s₁.record (.reserved size)) hdirect hsink
    refine ⟨s, ?_⟩
    rw [if_pos rfl, bind_apply_of_ok hsize]
    exact hs

/-- On a host that serves plain values, rendering what a source without partial tags compiles to
succeeds, given enough fuel, and writes what the markup means for the value of the root: into a
text, that text, and into a buffer, its bytes after those that were there. -/
theorem render_eq_evaluateAll (hserves : r.host.Serves Stands) (hsink : r.sink = .buffer)
    {source : Text} {d : Delimiters} {t : Template} (hcompile : Template.compile source d = .ok t)
    (hsigil : ∀ raw, .tag raw ∈ (scan source d).tokens → raw.sigil ≠ .angle) {root : F}
    {v : Value} (hroot : Stands root v) (hplain : v.Plain) :
    ∃ enough, ∀ fuel, enough ≤ fuel → ∀ host : σ,
      (∃ s, r.renderToText fuel t root (.start host .empty) =
        .ok (Markup.evaluateAll r.options.escaping [v] t.markup) s) ∧
      ∀ kept, ∃ s, r.render fuel t root (.start host kept) = .ok () s ∧
        s.sink = kept ++ (Markup.evaluateAll r.options.escaping [v] t.markup).bytes := by
  obtain ⟨enough, henough⟩ :=
    eventually_atTop.1 (eventually_appends_render hserves hsink hcompile hsigil hroot hplain)
  refine ⟨enough, fun fuel hfuel host => ⟨?_, fun kept => ?_⟩⟩
  · exact renderToText_of_appends (henough fuel hfuel) host
  · obtain ⟨_, s, hs, -, -, hsink⟩ := henough fuel hfuel (.start host kept) ⟨rfl, rfl⟩
    exact ⟨s, hs, hsink⟩

/-- A section over a list, with pointed delimiters: each element is written, and escaped. -/
theorem render_list_eq :
    ∃ d t, Delimiters.make ['<'] ['>'] = .ok d ∧
      Template.compile "<#xs><.>;</xs>".toList d = .ok t ∧
      ∃ enough, ∀ fuel, enough ≤ fuel → ∀ calls, ∃ s,
        renderToText ⟨Served.host, .buffer, .standard, fun _ => none⟩ fuel t
            (Frame.root (.map [(['x', 's'], .list [.text ['a', '&'], .int 1])]))
            (.start calls .empty) = .ok "a&amp;;1;".toList s := by
  let source : Text := "<#xs><.>;</xs>".toList
  let d : Delimiters := ⟨['<'], ['>'], delimiterError?_eq_none_iff.1 rfl,
    delimiterError?_eq_none_iff.1 rfl⟩
  let v : Value := .map [(['x', 's'], .list [.text ['a', '&'], .int 1])]
  have hroot : (Frame.root v).value = v := rfl
  have hplain : v.Plain := by
    refine .map ?_
    intro m hm
    rw [List.mem_singleton] at hm
    subst hm
    refine .list ?_
    intro u hu
    simp only [List.mem_cons, List.not_mem_nil, or_false] at hu
    rcases hu with rfl | rfl
    · exact .text _
    · exact .int 1
  have hok : ((Template.compile source d).map fun t => Markup.evaluateAll .html [v] t.markup) =
      .ok "a&amp;;1;".toList := by decide +kernel
  have htags : ∀ raw ∈ tagsOf (scan source d).tokens, raw.sigil ≠ .angle := by decide +kernel
  cases hcompile : Template.compile source d with
  | error e => simp [hcompile, Except.map] at hok
  | ok t =>
    rw [hcompile, Except.map, Except.ok.injEq] at hok
    obtain ⟨enough, henough⟩ := render_eq_evaluateAll
      (r := ⟨Served.host, .buffer, .standard, fun _ => none⟩) Served.serves_host rfl hcompile
      (fun raw hraw => htags raw (mem_tagsOf.2 hraw)) hroot hplain
    refine ⟨d, t, Delimiters.make_self d, hcompile, enough, ?_⟩
    intro fuel hfuel calls
    rw [← hok]
    exact (henough fuel hfuel calls).1

end Renderer

end Mustache
