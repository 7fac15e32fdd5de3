import Mustache.Proofs.Rendering.Relations

/-!
# Fuel

Fuel decides whether a rendering gets to its end and nothing else: one that has ended does the same
with more fuel. Fuel is used up by nodes inside nodes and by the elements of sections, so this goes
from what renders the nodes one level further down to everything that calls it.
-/

namespace Mustache

variable {F σ τ α β : Type}

/-- Whatever the one action gets done, the other does in the same way. -/
def Extends (act act' : RenderM F σ τ α) : Prop :=
  ∀ s, outcome (act s) ≠ .error .unfinished → act' s = act s

namespace Extends

variable {act act' : RenderM F σ τ α}

lemma refl (act : RenderM F σ τ α) : Extends act act := fun _ _ => rfl

lemma unfinished : Extends (throw .unfinished) act' := fun _ h => absurd rfl h

lemma bind {next next' : α → RenderM F σ τ β} (h : Extends act act')
    (hnext : ∀ a, Extends (next a) (next' a)) : Extends (act >>= next) (act' >>= next') := by
  intro s hs
  cases hact : act s with
  | ok a s' =>
    have hact' : act' s = .ok a s' := (h s (by simp [hact])).trans hact
    rw [bind_apply_of_ok hact] at hs ⊢
    rw [bind_apply_of_ok hact']
    exact hnext a s' hs
  | error e s' =>
    rw [bind_apply_of_error hact] at hs ⊢
    have hact' : act' s = .error e s' := (h s (by simpa [hact] using hs)).trans hact
    exact bind_apply_of_error hact'

lemma composes : ActionRel.Composes (fun _ => Extends : ActionRel F σ τ τ) where
  pure _ := refl _
  bind := bind

lemma bracket {enter : RenderState F σ τ → RenderState F σ τ} {value : α → RenderState F σ τ → β}
    {leave : RenderState F σ τ → RenderState F σ τ → RenderState F σ τ} (h : Extends act act') :
    Extends (bracket enter value leave act) (bracket enter value leave act') := by
  intro s hs
  have hact : act' (enter s) = act (enter s) := by
    refine h (enter s) fun hact => hs ?_
    rw [Mustache.bracket]
    cases hend : act (enter s) with
    | ok a s' => simp [hend] at hact
    | error e s' => simpa [hend] using hact
  rw [Mustache.bracket, Mustache.bracket, hact]

end Extends

namespace Renderer

variable (r : Renderer F σ τ)

lemma extends_enclosed {act act' : RenderM F σ τ Unit} (h : Extends act act')
    (name indent : Text) : Extends (enclosed name indent act) (enclosed name indent act') := by
  rw [enclosed_eq_bracket, enclosed_eq_bracket]
  exact h.bracket

lemma extends_indented {act act' : RenderM F σ τ Unit} (h : Extends act act') (indent : Text) :
    Extends (indented indent act) (indented indent act') := by
  rw [indented_eq_bracket, indented_eq_bracket]
  exact h.bracket

lemma extends_onAside {act act' : RenderM F σ τ Unit} (h : Extends act act') :
    Extends (onAside act) (onAside act') := by
  rw [onAside_eq_bracket, onAside_eq_bracket]
  exact h.bracket

lemma relates_extends : Relates (fun _ => Extends) r r where
  toComposes := Extends.composes
  escaping_eq := rfl
  unfinished := .refl _
  lookUp_bind := Extends.composes.keptByLookUp r r (fun _ _ => .refl _) fun _ _ _ => .refl _
  interpolate _ _ _ := .refl _
  writeText _ := .refl _

lemma relatesNested_extends : RelatesNested (fun _ => Extends) r r where
  toComposes := Extends.composes
  partials_eq := rfl
  checkDepth_bind _ _ _ _ h := .bind (.refl _) fun _ => h
  reject _ := .refl _
  enclosed name indent _ _ h := extends_enclosed h name indent
  indented indent _ _ h := extends_indented h indent
  onAside h := extends_onAside h
  writeData _ _ := .refl _

lemma extends_renderElements {frame : F} {path : Path} {body body' : F → RenderM F σ τ Unit}
    (hbody : ∀ elem, Extends (body elem) (body' elem)) {n m : Nat} (h : n ≤ m) (index : Nat) :
    Extends (r.renderElements frame path body n index)
      (r.renderElements frame path body' m index) := by
  induction n generalizing m index with
  | zero => exact .unfinished
  | succ n ih =>
    obtain ⟨m, rfl⟩ := Nat.exists_eq_add_of_le' h
    refine .bind (.refl _) fun answer => ?_
    rcases answer with e | _ | _ | _ | _ | g
    · exact .refl _
    · exact .refl _
    · exact .refl _
    · exact .refl _
    · exact .refl _
    · exact (hbody g).bind fun _ => ih (Nat.le_add_left n m) (index + 1)

section

variable {below below' : Nested F σ τ}
  (hbelow : ∀ here range, Extends (below here range) (below' here range))

include hbelow

lemma extends_attend (here : Setting F) (tag : LambdaTag) (failure : Option RenderError)
    (call : Expansion σ) :
    Extends (r.attend below here tag failure call) (r.attend below' here tag failure call) := by
  induction call generalizing failure with
  | answer result host => exact .refl _
  | remark remark next ih => exact fun s hs => ih failure (s.record (.remarked remark)) hs
  | write text next ih =>
    intro s hs
    cases hwrite : r.sink.writeData text tag.escapes s with
    | ok a s' =>
      rw [r.attend_write_of_ok hwrite] at hs
      rw [r.attend_write_of_ok hwrite, r.attend_write_of_ok hwrite]
      exact ih true failure s' hs
    | error e s' =>
      rw [r.attend_write_of_error hwrite] at hs
      rw [r.attend_write_of_error hwrite, r.attend_write_of_error hwrite]
      exact ih false _ s' hs
  | render text host next ih =>
    intro s hs
    have hrender' := r.relatesNested_extends.renderLambdaText below below'
      (fun template => hbelow (here.nested template)) tag text { s with host }
    cases hrender : r.renderLambdaText below here tag text { s with host } with
    | ok a s' =>
      rw [hrender] at hrender'
      rw [r.attend_render_of_ok hrender] at hs
      rw [r.attend_render_of_ok hrender, r.attend_render_of_ok (hrender' (by simp))]
      exact ih true s'.host failure s' hs
    | error halt s' =>
      rw [hrender] at hrender'
      cases halt with
      | unfinished =>
        rw [r.attend_render_of_unfinished hrender] at hs
        exact absurd rfl hs
      | failed e =>
        rw [r.attend_render_of_failed hrender] at hs
        rw [r.attend_render_of_failed hrender, r.attend_render_of_failed (hrender' (by simp))]
        exact ih false s'.host _ s' hs

lemma extends_expandLambda (here : Setting F) (frame : F) (path : Path) (tag : LambdaTag) :
    Extends (r.expandLambda below here frame path tag)
      (r.expandLambda below' here frame path tag) := by
  refine .bind (.refl _) fun _ => .bind (.refl _) fun s => ?_
  exact (r.extends_attend hbelow here tag none _).bind fun _ => .refl _

lemma extends_renderNode {fuel more : Nat} (h : fuel ≤ more) (here : Setting F) (node : Node) :
    Extends (r.renderNode below fuel here node) (r.renderNode below' more here node) := by
  have hpartial := r.relatesNested_extends.renderPartial below below'
    fun template => hbelow (here.nested template)
  exact r.relates_extends.renderNode below below' (hbelow here) (r.extends_expandLambda hbelow here)
    fuel more (fun elem => hbelow (here.inside elem))
    (fun _ _ _ _ hbody => r.extends_renderElements hbody h 1) hpartial node

end

lemma extends_renderNodes {fuel more : Nat} (h : fuel ≤ more) (here : Setting F)
    (range : NodeRange) :
    Extends (r.renderNodes fuel here range) (r.renderNodes more here range) := by
  induction fuel generalizing more here range with
  | zero => exact .unfinished
  | succ fuel ih =>
    obtain ⟨more, rfl⟩ := Nat.exists_eq_add_of_le' h
    have hle : fuel ≤ more + fuel := Nat.le_add_left fuel more
    exact Extends.composes.forM _ fun node => r.extends_renderNode (ih hle) hle here node

/-- A rendering that has ended does the same with more fuel. -/
theorem render_eq_of_le {fuel more : Nat} {template : Template} {root : F} {s : RenderState F σ τ}
    (hends : outcome (r.render fuel template root s) ≠ .error .unfinished) (hle : fuel ≤ more) :
    r.render more template root s = r.render fuel template root s :=
  ((r.extends_renderNodes hle _ _).bind fun _ => .refl _) s hends

end Renderer

end Mustache
