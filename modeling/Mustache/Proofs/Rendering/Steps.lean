import Mathlib.Tactic.Common
import Mustache.Rendering.Renderer

/-!
# Steps of a rendering

How the actions of a rendering are taken apart: a sequence at its first part, an action that runs
another one at the states before and behind that one, and what a host does to write a value or to
expand a lambda at its first request.
-/

namespace Mustache

variable {F σ τ ε α β : Type}

/-! ### Ends of an action -/

/-- The state that an action has reached, however it ended. -/
def reached : EStateM.Result ε σ α → σ
  | .ok _ s    => s
  | .error _ s => s

/-- How an action has ended. -/
def outcome : EStateM.Result ε σ α → Except ε α
  | .ok a _    => .ok a
  | .error e _ => .error e

@[simp] lemma reached_ok (a : α) (s : σ) : reached (.ok a s : EStateM.Result ε σ α) = s := rfl

@[simp] lemma reached_error (e : ε) (s : σ) :
    reached (.error e s : EStateM.Result ε σ α) = s := rfl

@[simp] lemma outcome_ok (a : α) (s : σ) :
    outcome (.ok a s : EStateM.Result ε σ α) = .ok a := rfl

@[simp] lemma outcome_error (e : ε) (s : σ) :
    outcome (.error e s : EStateM.Result ε σ α) = .error e := rfl

lemma exists_eq_ok_of_map_eq_ok {f : α → β} {x : Except ε α} {b : β}
    (h : x.map f = .ok b) : ∃ a, x = .ok a ∧ f a = b := by
  cases x with
  | error e => cases h
  | ok a => exact ⟨a, rfl, Except.ok.inj h⟩

/-- After an action that has succeeded, what follows goes on from the state it has left. -/
lemma bind_apply_of_ok {act : EStateM ε τ α} {next : α → EStateM ε τ β} {s s' : τ}
    {a : α} (h : act s = .ok a s') : (act >>= next) s = next a s' := by
  show EStateM.bind act next s = _
  rw [EStateM.bind, h]

/-- After an action that has failed, nothing follows. -/
lemma bind_apply_of_error {act : EStateM ε τ α} {next : α → EStateM ε τ β} {s s' : τ} {e : ε}
    (h : act s = .error e s') : (act >>= next) s = .error e s' := by
  show EStateM.bind act next s = _
  rw [EStateM.bind, h]

/-- A sequence has come to a result just if its first part has failed with this, or what follows
has come to it. -/
lemma bind_eq_iff {act : EStateM ε τ α} {next : α → EStateM ε τ β} {s : τ}
    {result : EStateM.Result ε τ β} :
    (act >>= next) s = result ↔
      (∃ a s', act s = .ok a s' ∧ next a s' = result) ∨
        ∃ e s', act s = .error e s' ∧ result = .error e s' := by
  constructor
  · intro h
    cases hact : act s with
    | ok a s' => exact .inl ⟨a, s', rfl, (bind_apply_of_ok hact).symm.trans h⟩
    | error e s' => exact .inr ⟨e, s', rfl, h.symm.trans (bind_apply_of_error hact)⟩
  · rintro (⟨a, s', hact, h⟩ | ⟨e, s', hact, rfl⟩)
    · exact (bind_apply_of_ok hact).trans h
    · exact bind_apply_of_error hact

lemma bind_apply_congr {act act' : EStateM ε τ α} {s : τ} (h : act' s = act s)
    (next : α → EStateM ε τ β) : (act' >>= next) s = (act >>= next) s := by
  show EStateM.bind act' next s = EStateM.bind act next s
  rw [EStateM.bind, EStateM.bind, h]

/-- Two sequences with the same first part are the same if what follows is, for whatever the first
part can return. -/
lemma bind_congr_of_ok {act : EStateM ε τ α} {next next' : α → EStateM ε τ β}
    (h : ∀ s a s', act s = .ok a s' → next a = next' a) : act >>= next = act >>= next' := by
  funext s
  cases hact : act s with
  | ok a s' => rw [bind_apply_of_ok hact, bind_apply_of_ok hact, h s a s' hact]
  | error e s' => rw [bind_apply_of_error hact, bind_apply_of_error hact]

namespace RenderM

variable {act : WriteM F σ τ α} {s s' : RenderState F σ τ}

lemma ofWrite_of_ok {a : α} (h : act s = .ok a s') : ofWrite act s = .ok a s' := by
  simp only [ofWrite, EStateM.adaptExcept, h]

lemma ofWrite_of_error {e : SinkError} (h : act s = .error e s') :
    ofWrite act s = .error (.failed (.write e)) s' := by
  simp only [ofWrite, EStateM.adaptExcept, h]

lemma reached_ofWrite (act : WriteM F σ τ α) (s : RenderState F σ τ) :
    reached (ofWrite act s) = reached (act s) := by
  cases hact : act s with
  | ok a s' => rw [ofWrite_of_ok hact, reached_ok, reached_ok]
  | error e s' => rw [ofWrite_of_error hact, reached_error, reached_error]

end RenderM

/-- Runs an action from another state and returns, however it ends, to a state made from the one it
has reached and the one before. -/
def bracket (enter : τ → τ) (value : α → τ → β) (leave : τ → τ → τ) (act : EStateM ε τ α) :
    EStateM ε τ β := fun s =>
  match act (enter s) with
  | .ok a s'    => .ok (value a s') (leave s s')
  | .error e s' => .error e (leave s s')

@[simp] lemma reached_bracket (enter : τ → τ) (value : α → τ → β) (leave : τ → τ → τ)
    (act : EStateM ε τ α) (s : τ) :
    reached (bracket enter value leave act s) = leave s (reached (act (enter s))) := by
  rw [bracket]
  cases act (enter s) <;> rfl

namespace Renderer

lemma enclosed_eq_bracket (name indent : Text) (act : RenderM F σ τ Unit) :
    enclosed name indent act =
      bracket (·.record (.entered name indent)) (fun _ _ => ()) (fun _ s => s.record .left)
        act := by
  funext s
  rw [enclosed, bracket]
  cases act (s.record (.entered name indent)) <;> rfl

lemma indented_eq_bracket (indent : Text) (act : RenderM F σ τ Unit) :
    indented indent act =
      bracket (fun s => { s with output := { s.output with indent := s.output.indent ++ indent } })
        (fun _ _ => ())
        (fun before s => { s with output :=
          { s.output with indent := s.output.indent.take before.output.indent.length } }) act := by
  funext s
  rw [indented, bracket]
  cases act { s with output := { s.output with indent := s.output.indent ++ indent } } <;> rfl

lemma onAside_eq_bracket (act : RenderM F σ τ Unit) :
    onAside act =
      bracket (fun s => { s with output := .aside }) (fun _ s => readScratch s.output)
        (fun before s => { s with output := before.output }) act := by
  funext s
  rw [onAside, bracket]
  cases act { s with output := .aside } <;> rfl

lemma checkDepth_bind_of_le (r : Renderer F σ τ) {depth : Nat} (h : depth ≤ r.options.maxDepth)
    (name : Text) (next : Unit → RenderM F σ τ α) : r.checkDepth depth name >>= next = next () := by
  rw [checkDepth, if_neg (Nat.not_lt.2 h)]
  rfl

lemma checkDepth_bind_of_lt (r : Renderer F σ τ) {depth : Nat} (h : r.options.maxDepth < depth)
    (name : Text) (next : Unit → RenderM F σ τ α) :
    r.checkDepth depth name >>= next =
      RenderM.record (.tooDeep r.options.maxDepth name) >>= fun _ =>
        RenderM.fail (.recursionLimit r.options.maxDepth name) := by
  rw [checkDepth, if_pos h]
  rfl

end Renderer

/-! ### Answers of the host -/

namespace Renderer

variable (r : Renderer F σ τ)

lemma get_of_lookUp {frame : F} {path : Path} {index : Nat}
    {answer : Except ResolveError (Lookup F)} {s s' : RenderState F σ τ}
    (h : r.lookUp frame path index s = .ok answer s') :
    (r.host.get frame path index s.host).1 = answer := by
  rw [lookUp] at h
  exact (EStateM.Result.ok.inj h).1

/-- What the owner of a path has answered, it has answered at index zero. -/
lemma exists_get_of_owner {path : Path} {frames : List F} {frame : F} {answer : Lookup F}
    {s s' : RenderState F σ τ} (h : r.owner path frames s = .ok (some (frame, answer)) s') :
    ∃ host, (r.host.get frame path 0 host).1 = .ok answer := by
  induction frames generalizing s with
  | nil => cases h
  | cons first frames ih =>
    rcases bind_eq_iff.1 h with ⟨found, s₁, hlookUp, h⟩ | ⟨e, s₁, -, h⟩
    · have hget := r.get_of_lookUp hlookUp
      rcases found with e | _ | _ | _ | _ | elem
      · cases h
      · exact ih h
      all_goals
        cases h
        exact ⟨s.host, hget⟩
    · cases h

end Renderer

/-! ### Requests of the host -/

namespace Renderer

variable (r : Renderer F σ τ)

section

variable {escaped raw : Bool} {text : Text} {next : Except SinkErrorKind Unit → Interpolation σ}
  {s s' : RenderState F σ τ}

lemma serve_write_of_ok {a : Unit} (h : r.sink.writeData text (escaped && !raw) s = .ok a s') :
    r.serve escaped none (.write raw text next) s = r.serve escaped none (next (.ok ())) s' := by
  simp only [serve, h]

lemma serve_write_of_error {e : SinkError}
    (h : r.sink.writeData text (escaped && !raw) s = .error e s') :
    r.serve escaped none (.write raw text next) s =
      r.serve escaped (some e) (next (.error e.kind)) s' := by
  simp only [serve, h]

end

section

variable {below : Nested F σ τ} {here : Setting F} {tag : LambdaTag} {text : Text} {host : σ}
  {failure : Option RenderError} {s s' : RenderState F σ τ}

lemma attend_write_of_ok {next : Bool → Expansion σ} {a : Unit}
    (h : r.sink.writeData text tag.escapes s = .ok a s') :
    r.attend below here tag failure (.write text next) s =
      r.attend below here tag failure (next true) s' := by
  simp only [attend, h]

lemma attend_write_of_error {next : Bool → Expansion σ} {e : SinkError}
    (h : r.sink.writeData text tag.escapes s = .error e s') :
    r.attend below here tag failure (.write text next) s =
      r.attend below here tag (failure <|> some (.write e)) (next false) s' := by
  simp only [attend, h]

variable {next : Bool → σ → Expansion σ}

lemma attend_render_of_ok {a : Unit}
    (h : r.renderLambdaText below here tag text { s with host } = .ok a s') :
    r.attend below here tag failure (.render text host next) s =
      r.attend below here tag failure (next true s'.host) s' := by
  simp only [attend, h]

lemma attend_render_of_failed {e : RenderError}
    (h : r.renderLambdaText below here tag text { s with host } = .error (.failed e) s') :
    r.attend below here tag failure (.render text host next) s =
      r.attend below here tag (failure <|> some e) (next false s'.host) s' := by
  simp only [attend, h]

lemma attend_render_of_unfinished
    (h : r.renderLambdaText below here tag text { s with host } = .error .unfinished s') :
    r.attend below here tag failure (.render text host next) s = .error .unfinished s' := by
  simp only [attend, h]

end

end Renderer

end Mustache
