import Mathlib.Tactic.Common
import Mustache.Host.Served
import Mustache.Proofs.Rendering.Fuel
import Mustache.Proofs.Rendering.History

/-!
# The first failure wins

A rendering that ends has failed just if something in its history failed, and then with the first
failure there, whatever the host made of it. Failures are kept in three places: in the error that
an action ends with, in what `serve` returns, and in what `attend` returns. Each agrees with the
events.

A host that stops a lambda at the first failure it hears of makes the sink be left alone from the
first failure on. A host that goes on may have more written.
-/

namespace Mustache

variable {F σ τ : Type}

/-! ### Hosts that stop -/

namespace Expansion

/-- The host asks for nothing more. -/
def IsAnswer (call : Expansion σ) : Prop := ∃ result state, call = .answer result state

/-- Once a write or a rendering has failed, the host answers and does no more. -/
inductive Stops : Expansion σ → Prop
  | answer (result : HostResult) (state : σ) : Stops (.answer result state)
  | write {text : Text} {next : Bool → Expansion σ} (hfail : (next false).IsAnswer)
      (h : Stops (next true)) : Stops (.write text next)
  | render {text : Text} {state : σ} {next : Bool → σ → Expansion σ}
      (hfail : ∀ s, (next false s).IsAnswer) (h : ∀ s, Stops (next true s)) :
      Stops (.render text state next)
  | remark {remark : Remark} {next : Expansion σ} (h : Stops next) : Stops (.remark remark next)

lemma IsAnswer.stops {call : Expansion σ} (h : call.IsAnswer) : call.Stops := by
  obtain ⟨result, state, rfl⟩ := h
  exact .answer result state

@[simp] lemma stops_write {text : Text} {next : Bool → Expansion σ} :
    (write text next).Stops ↔ (next false).IsAnswer ∧ (next true).Stops := by
  constructor
  · rintro (_ | ⟨hfail, h⟩)
    exact ⟨hfail, h⟩
  · rintro ⟨hfail, h⟩
    exact .write hfail h

@[simp] lemma stops_render {text : Text} {state : σ} {next : Bool → σ → Expansion σ} :
    (render text state next).Stops ↔
      (∀ s, (next false s).IsAnswer) ∧ ∀ s, (next true s).Stops := by
  constructor
  · rintro (_ | _ | ⟨hfail, h⟩)
    exact ⟨hfail, h⟩
  · rintro ⟨hfail, h⟩
    exact .render hfail h

@[simp] lemma stops_remark {note : Remark} {next : Expansion σ} :
    (remark note next).Stops ↔ next.Stops := by
  constructor
  · rintro (_ | _ | _ | h)
    exact h
  · exact .remark

end Expansion

/-- Whatever lambda is expanded, the host stops at the first failure it hears of. -/
def Host.StopsOnFailure (host : Host F σ) : Prop :=
  ∀ frame path view s, (host.expand frame path view s).Stops

/-! ### Steps of a rendering -/

namespace Logs

variable {quiet : Prop} {α β : Type}

lemma record {e : Event F} (h : e.failure? = none) :
    Logs quiet id (RenderM.record e : RenderM F σ τ Unit) :=
  .modify_record fun _ => h

lemma record_fail {e : Event F} {error : RenderError} (h : e.failure? = some error) :
    Logs quiet id (RenderM.record e >>= fun _ => RenderM.fail error : RenderM F σ τ α) := by
  intro s
  refine ⟨[e], RenderState.events_record s e, fun _ => ?_, ?_⟩
  · simp [Quiet]
  · intro error' herror
    obtain rfl : error = error' := by simpa using herror
    simp [h]

lemma unfinished : Logs quiet id (throw .unfinished : RenderM F σ τ α) := by
  intro s
  refine ⟨[], (List.append_nil _).symm, fun _ => trivial, ?_⟩
  intro error herror
  simp at herror

end Logs

/-- Notes that the host is done, and goes on with its answer. A failure that was kept while it
wrote or expanded beats the answer. -/
def settle {ε α : Type} (report : ε → RenderError) (path : Path) (done : HostResult → Event F)
    (next : Resolution → RenderM F σ τ α) (answer : Option ε × HostResult) : RenderM F σ τ α := do
  RenderM.record (done answer.2)
  match answer with
  | (some e, _)      => RenderM.fail (report e)
  | (none, .error e) => RenderM.fail (.interpolation path.display e)
  | (none, .ok a)    => next a

/-- An action begun in a state has added to the history and returned the first failure: the one
kept before it, or else the first that it added. If `quiet` and nothing was kept before, the sink
has been left alone from the first failure on. -/
def Keeps {ε : Type} (quiet : Prop) (report : ε → RenderError) (failure : Option ε)
    (s : RenderState F σ τ)
    (result : EStateM.Result Halt (RenderState F σ τ) (Option ε × HostResult)) : Prop :=
  ∃ new, (reached result).events = s.events ++ new ∧
    (quiet → failure = none → Quiet new) ∧
    match outcome result with
    | .ok answer => answer.1.map report = (failure.map report).or (firstFailure new)
    | .error e   => e = .unfinished

namespace Keeps

variable {quiet : Prop} {ε : Type} {report : ε → RenderError} {failure kept : Option ε}
  {s s₁ : RenderState F σ τ} {new : List (Event F)}

/-- The host is done at once. -/
lemma answered {s' : RenderState F σ τ} (result : HostResult) (h : s'.events = s.events) :
    Keeps quiet report failure s (.ok (failure, result) s') :=
  ⟨[], h.trans (List.append_nil _).symm, fun _ _ => trivial, Option.or_none.symm⟩

lemma grows {act : RenderM F σ τ (Option ε × HostResult)}
    (h : ∀ s, Keeps False report failure s (act s)) : Grows act := fun s =>
  have ⟨new, hevents, _⟩ := h s
  ⟨new, hevents⟩

/-- A step of the host, and what follows with the failure that is kept from then on. -/
lemma of_step {result : EStateM.Result Halt (RenderState F σ τ) (Option ε × HostResult)}
    (h : Keeps quiet report kept s₁ result) (hevents : s₁.events = s.events ++ new)
    (hquiet : quiet → Quiet new)
    (hkept : kept.map report = (failure.map report).or (firstFailure new))
    (hrest : quiet → failure = none → kept ≠ none → SparesSink s₁ (reached result)) :
    Keeps quiet report failure s result := by
  obtain ⟨more, hmore, hquietMore, hend⟩ := h
  refine ⟨new ++ more, ?_, fun hq hf => ?_, ?_⟩
  · rw [hmore, hevents, List.append_assoc]
  · by_cases hk : kept = none
    · have hnone : firstFailure new = none := by simpa [hk, hf] using hkept.symm
      exact .append_of_none hnone (hquietMore hq hk)
    · obtain ⟨-, rest, hrest, hasks⟩ := hrest hq hf hk
      obtain rfl : more = rest := List.append_cancel_left (hmore.symm.trans hrest)
      exact (hquiet hq).append_of_asksSink_eq_false hasks
  · cases ho : outcome result with
    | error e =>
      rw [ho] at hend
      exact hend
    | ok answer =>
      rw [ho] at hend
      dsimp only at hend ⊢
      rw [hend, hkept, firstFailure_append, Option.or_assoc]

section

variable {α : Type} {path : Path} {done : HostResult → Event F}
  {next : Resolution → RenderM F σ τ α}
  (hok : ∀ answer, (done (.ok answer)).failure? = none)
  (herror : ∀ e, (done (.error e)).failure? = some (.interpolation path.display e))
  (hnext : ∀ answer, Logs quiet id (next answer))

include hok herror hnext

/-- With no failure kept, that of the host is the first one. -/
lemma logs_settle_none (result : HostResult) :
    Logs quiet id (settle report path done next (none, result)) := by
  cases result with
  | error e => exact .record_fail (herror e)
  | ok answer => exact .bind (.record (hok answer)) fun _ => hnext answer

/-- When the host is done, the failure that was kept is the first one, or else its own is. -/
lemma logs_settle {act : RenderM F σ τ (Option ε × HostResult)}
    (h : ∀ s, Keeps quiet report none s (act s))
    (hasks : ∀ result, (done result).asksSink = false) :
    Logs quiet id (act >>= settle report path done next) := by
  intro s
  obtain ⟨new, hevents, hquiet, hend⟩ := h s
  cases hact : act s with
  | error e s' =>
    rw [hact] at hevents hend
    obtain rfl : e = .unfinished := hend
    rw [bind_apply_of_error hact]
    refine ⟨new, hevents, fun hq => hquiet hq rfl, ?_⟩
    intro error herror
    simp at herror
  | ok answer s' =>
    obtain ⟨failure, result⟩ := answer
    rw [hact] at hevents hend
    have hkept : failure.map report = firstFailure new := hend
    rw [bind_apply_of_ok hact]
    cases failure with
    | some e =>
      -- what the host answers comes after the failure and counts for nothing
      refine ⟨new ++ [done result], ?_, fun hq => ?_, ?_⟩
      · rw [← List.append_assoc]
        exact (RenderState.events_record s' (done result)).trans
          (congrArg (· ++ [done result]) hevents)
      · exact (hquiet hq rfl).append_of_asksSink_eq_false (by simp [hasks])
      · intro error he
        obtain rfl : report e = error := by simpa using he
        simp [← hkept]
    | none =>
      have hnone : firstFailure new = none := hkept.symm
      have hsettle : Logs quiet id (settle report path done next (none, result)) :=
        logs_settle_none hok herror hnext result
      obtain ⟨more, hmore, hquietMore, hendMore⟩ := hsettle s'
      refine ⟨new ++ more, ?_, fun hq => .append_of_none hnone (hquietMore hq), ?_⟩
      · rw [← List.append_assoc]
        exact hmore.trans (congrArg (· ++ more) hevents)
      · rw [firstFailure_append, hnone]
        exact hendMore

end

end Keeps

/-! ### Asking the host -/

namespace Renderer

variable (r : Renderer F σ τ) {quiet : Prop}

/-- An answer goes on, and a failure of the host is what the rendering fails with. -/
lemma logs_lookUp_bind {α : Type} {frame : F} {path : Path} {index : Nat}
    {next : Except ResolveError (Lookup F) → RenderM F σ τ α}
    (hok : ∀ lookup, Logs quiet id (next (.ok lookup)))
    (herror : ∀ e, next (.error e) =
      RenderM.fail (.interpolation (Query.element path index).reported.display e)) :
    Logs quiet id (r.lookUp frame path index >>= next) := by
  intro s
  obtain ⟨answer, s', hlookUp, hevents⟩ : ∃ answer s', r.lookUp frame path index s = .ok answer s' ∧
      s'.events = s.events ++ [.got frame (.element path index) (answer.map Lookup.resolution)] :=
    ⟨_, _, rfl, RenderState.events_record _ _⟩
  rw [bind_apply_of_ok hlookUp]
  cases answer with
  | error e =>
    rw [herror]
    refine ⟨_, hevents, fun _ => ?_, ?_⟩
    · simp [Quiet]
    · intro error he
      obtain rfl : _ = error := by simpa using he
      simp [Event.failure?, Except.map]
  | ok lookup =>
    obtain ⟨new, hnew, hquiet, hend⟩ := hok lookup s'
    refine ⟨[.got frame (.element path index) (.ok lookup.resolution)] ++ new, ?_,
      fun hq => .append_of_none ?_ (hquiet hq), ?_⟩
    · rw [hnew, hevents, List.append_assoc]
      rfl
    · simp [Event.failure?]
    · simpa [Event.failure?] using hend

/-- After a refused write the sink is left alone until the host is done. -/
lemma exists_serve_of_failure (escaped : Bool) (e : SinkError) (call : Interpolation σ)
    (s : RenderState F σ τ) :
    ∃ result s', r.serve escaped (some e) call s = .ok (some e, result) s' ∧ SparesSink s s' := by
  induction call generalizing s with
  | answer result host => exact ⟨result, _, rfl, rfl, [], (List.append_nil _).symm, by simp⟩
  | write raw text next ih => exact ih (.error e.kind) s
  | remark remark next ih =>
    obtain ⟨result, s', hserve, hspares⟩ := ih (s.record (.remarked remark))
    exact ⟨result, s', hserve, (SparesSink.record s rfl).trans hspares⟩

/-- While the host writes a value, the first refused write is kept. -/
lemma keeps_serve (escaped : Bool) (call : Interpolation σ) (s : RenderState F σ τ) :
    Keeps quiet RenderError.write none s (r.serve escaped none call s) := by
  induction call generalizing s with
  | answer result host => exact .answered result rfl
  | remark remark next ih =>
    exact (ih (s.record (.remarked remark))).of_step (RenderState.events_record _ _)
      (fun _ => trivial) rfl fun _ _ hk => absurd rfl hk
  | write raw text next ih =>
    obtain ⟨new, hevents, hquiet, hend⟩ :=
      (r.sink.logs_writeData text (escaped && !raw) : Logs quiet refusal _) s
    cases hwrite : r.sink.writeData text (escaped && !raw) s with
    | ok a s₁ =>
      rw [hwrite] at hevents hend
      have hnone : firstFailure new = none := hend
      rw [r.serve_write_of_ok hwrite]
      exact (ih (.ok ()) s₁).of_step hevents hquiet (by simp [hnone]) fun _ _ hk => absurd rfl hk
    | error e s₁ =>
      rw [hwrite] at hevents hend
      obtain ⟨result, s', hnext, -, more, hmore, hasks⟩ :=
        r.exists_serve_of_failure escaped e (next (.error e.kind)) s₁
      have hfirst : firstFailure new = some (.write e) := hend _ rfl
      rw [r.serve_write_of_error hwrite, hnext]
      refine ⟨new ++ more, ?_, fun hq _ => (hquiet hq).append_of_asksSink_eq_false hasks, ?_⟩
      · rw [← List.append_assoc]
        exact hmore.trans (congrArg (· ++ more) hevents)
      · simp [hfirst]

lemma interpolate_eq_settle (frame : F) (path : Path) (escaped : Bool) :
    r.interpolate frame path escaped = get >>= fun s =>
      r.serve escaped none (r.host.interpolate frame path escaped s.host) >>=
        settle .write path (.interpolated frame path) pure := by
  rw [interpolate]
  refine congrArg (get >>= ·) (funext fun s => ?_)
  refine congrArg (_ >>= ·) (funext fun answer => ?_)
  rcases answer with ⟨_ | e, _ | a⟩ <;> rfl

lemma logs_interpolate (frame : F) (path : Path) (escaped : Bool) :
    Logs quiet id (r.interpolate frame path escaped) := by
  rw [interpolate_eq_settle]
  refine .get_bind ?_
  intro s
  exact Keeps.logs_settle (fun _ => rfl) (fun _ => rfl) (fun answer => .pure answer)
    (r.keeps_serve escaped _) fun _ => rfl

/-! ### Nesting -/

lemma logs_checkDepth (depth : Nat) (name : Text) :
    Logs quiet id (r.checkDepth depth name) := by
  rw [checkDepth]
  split
  · exact .record_fail rfl
  · exact .pure _

lemma logs_enclosed {name indent : Text} {act : RenderM F σ τ Unit} (h : Logs quiet id act) :
    Logs quiet id (enclosed name indent act) := by
  rw [enclosed_eq_bracket]
  exact h.bracket [.entered name indent] [.left] rfl rfl (by simp [Event.asksSink])
    (fun _ => RenderState.events_record _ _) fun _ _ => RenderState.events_record _ _

lemma logs_indented {indent : Text} {act : RenderM F σ τ Unit} (h : Logs quiet id act) :
    Logs quiet id (indented indent act) := by
  rw [indented_eq_bracket]
  exact h.bracket [] [] rfl rfl (by simp) (fun _ => (List.append_nil _).symm)
    fun _ _ => (List.append_nil _).symm

lemma logs_onAside {act : RenderM F σ τ Unit} (h : Logs quiet id act) :
    Logs quiet id (onAside act) := by
  rw [onAside_eq_bracket]
  exact h.bracket [] [] rfl rfl (by simp) (fun _ => (List.append_nil _).symm)
    fun _ _ => (List.append_nil _).symm

lemma composes_logs : ActionRel.Composes fun α (act _ : RenderM F σ τ α) => Logs quiet id act where
  pure := .pure
  bind := .bind

/-- A rendering fails with what the host failed with just then, so no failure is taken by itself. -/
lemma relates_logs : Relates (fun _ act _ => Logs quiet id act) r r where
  toComposes := composes_logs
  escaping_eq := rfl
  unfinished := .unfinished
  lookUp_bind hok herror _ := r.logs_lookUp_bind hok herror
  interpolate := r.logs_interpolate
  writeText _ := .ofWrite (r.sink.logs_writeText _)

lemma relatesNested_logs : RelatesNested (fun _ act _ => Logs quiet id act) r r where
  toComposes := composes_logs
  partials_eq := rfl
  checkDepth_bind depth name _ _ h := (r.logs_checkDepth depth name).bind fun _ => h
  reject _ := .record_fail rfl
  enclosed _ _ _ _ h := logs_enclosed h
  indented _ _ _ h := logs_indented h
  onAside h := logs_onAside h
  writeData _ _ := .ofWrite (r.sink.logs_writeData _ _)

/-! ### Lambdas -/

section

variable {below : Nested F σ τ} {here : Setting F} {tag : LambdaTag}
  {failure : Option RenderError} {s : RenderState F σ τ}

/-- If the host asks for nothing more, what was kept is returned. -/
lemma exists_attend_of_isAnswer {call : Expansion σ} (h : call.IsAnswer) :
    ∃ result s', r.attend below here tag failure call s = .ok (failure, result) s' ∧
      SparesSink s s' := by
  obtain ⟨result, state, rfl⟩ := h
  exact ⟨result, _, rfl, .of_events_eq rfl rfl⟩

lemma sparesSink_attend {call : Expansion σ} (h : call.IsAnswer) :
    SparesSink s (reached (r.attend below here tag failure call s)) := by
  obtain ⟨result, s', hattend, hspares⟩ := r.exists_attend_of_isAnswer h
  rw [hattend]
  exact hspares

end

lemma expandLambda_eq_settle (below : Nested F σ τ) (here : Setting F) (frame : F) (path : Path)
    (tag : LambdaTag) :
    r.expandLambda below here frame path tag =
      RenderM.record (.expanding frame path) >>= fun _ => get >>= fun s =>
        r.attend below here tag none (r.host.expand frame path tag.view s.host) >>=
          settle id path (.expanded frame path) fun _ => pure () := by
  rw [expandLambda]
  refine congrArg (_ >>= ·) (funext fun _ => congrArg (get >>= ·) (funext fun s => ?_))
  refine congrArg (_ >>= ·) (funext fun answer => ?_)
  rcases answer with ⟨_ | e, _ | a⟩ <;> rfl

section

variable {below : Nested F σ τ} (hbelow : ∀ here range, Logs quiet id (below here range))

include hbelow

lemma logs_renderLambdaText (here : Setting F) (tag : LambdaTag) (text : Text) :
    Logs quiet id (r.renderLambdaText below here tag text) :=
  r.relatesNested_logs.renderLambdaText below below (fun template => hbelow (here.nested template))
    tag text

/-- While the host expands a lambda, the first failure of a write or a rendering is kept. -/
lemma keeps_attend (here : Setting F) (tag : LambdaTag) (failure : Option RenderError)
    (call : Expansion σ) (hstops : quiet → call.Stops) (s : RenderState F σ τ) :
    Keeps quiet id failure s (r.attend below here tag failure call s) := by
  -- a step that fails leaves a failure behind, so the one kept so far has to vary
  induction call generalizing failure s with
  | answer result host => exact .answered result rfl
  | remark remark next ih =>
    have hnext : quiet → next.Stops := fun hq => Expansion.stops_remark.1 (hstops hq)
    exact (ih failure hnext (s.record (.remarked remark))).of_step
      (RenderState.events_record _ _) (fun _ => trivial) (by simp [Event.failure?])
      fun _ hf hk => absurd hf hk
  | write text next ih =>
    obtain ⟨new, hevents, hquiet, hend⟩ :=
      (r.sink.logs_writeData text tag.escapes : Logs quiet refusal _) s
    cases hwrite : r.sink.writeData text tag.escapes s with
    | ok a s₁ =>
      rw [hwrite] at hevents hend
      have hnone : firstFailure new = none := hend
      have hnext : quiet → (next true).Stops := fun hq => (Expansion.stops_write.1 (hstops hq)).2
      rw [r.attend_write_of_ok hwrite]
      exact (ih true failure hnext s₁).of_step hevents hquiet (by simp [hnone])
        fun _ hf hk => absurd hf hk
    | error e s₁ =>
      rw [hwrite] at hevents hend
      have hfirst : firstFailure new = some (.write e) := hend _ rfl
      have hnext : quiet → (next false).IsAnswer := fun hq =>
        (Expansion.stops_write.1 (hstops hq)).1
      rw [r.attend_write_of_error hwrite]
      exact (ih false _ (fun hq => (hnext hq).stops) s₁).of_step hevents hquiet (by simp [hfirst])
        fun hq _ _ => r.sparesSink_attend (hnext hq)
  | render text host next ih =>
    obtain ⟨new, hevents, hquiet, hend⟩ :=
      (r.logs_renderLambdaText hbelow here tag text : Logs quiet id _) { s with host }
    cases hrender : r.renderLambdaText below here tag text { s with host } with
    | ok a s₁ =>
      rw [hrender] at hevents hend
      have hnone : firstFailure new = none := hend
      have hnext : quiet → (next true s₁.host).Stops := fun hq =>
        (Expansion.stops_render.1 (hstops hq)).2 s₁.host
      rw [r.attend_render_of_ok hrender]
      exact (ih true s₁.host failure hnext s₁).of_step hevents hquiet (by simp [hnone])
        fun _ hf hk => absurd hf hk
    | error halt s₁ =>
      rw [hrender] at hevents hend
      cases halt with
      | unfinished =>
        rw [r.attend_render_of_unfinished hrender]
        exact ⟨new, hevents, fun hq _ => hquiet hq, rfl⟩
      | failed e =>
        have hfirst : firstFailure new = some e := hend _ rfl
        have hnext : quiet → (next false s₁.host).IsAnswer := fun hq =>
          (Expansion.stops_render.1 (hstops hq)).1 s₁.host
        rw [r.attend_render_of_failed hrender]
        exact (ih false s₁.host _ (fun hq => (hnext hq).stops) s₁).of_step hevents hquiet
          (by simp [hfirst]) fun hq _ _ => r.sparesSink_attend (hnext hq)

variable (hstops : quiet → r.host.StopsOnFailure)

include hstops

lemma logs_expandLambda (here : Setting F) (frame : F) (path : Path) (tag : LambdaTag) :
    Logs quiet id (r.expandLambda below here frame path tag) := by
  rw [expandLambda_eq_settle]
  refine .bind (.record rfl) fun _ => .get_bind ?_
  intro s
  exact Keeps.logs_settle (fun _ => rfl) (fun _ => rfl) (fun _ => .pure ())
    (r.keeps_attend hbelow here tag none _ fun hq => hstops hq _ _ _ _) fun _ => rfl

lemma logs_renderNode (fuel : Nat) (here : Setting F) (node : Node) :
    Logs quiet id (r.renderNode below fuel here node) := by
  have h : Relates (fun _ act _ => Logs quiet id act) r r := r.relates_logs
  have hpartial := r.relatesNested_logs.renderPartial below below
    fun template => hbelow (here.nested template)
  exact h.renderNode below below (hbelow here) (r.logs_expandLambda hbelow hstops here) fuel fuel
    (fun elem => hbelow (here.inside elem)) (h.renderElements fuel) hpartial node

end

section

variable {below : Nested F σ τ} (hlogs : ∀ here range, Logs False id (below here range))

include hlogs

lemma grows_attend (here : Setting F) (tag : LambdaTag) (failure : Option RenderError)
    (call : Expansion σ) : Grows (r.attend below here tag failure call) :=
  Keeps.grows (r.keeps_attend hlogs here tag failure call fun h : False => h.elim)

/-- A failure that was kept is returned. -/
lemma attend_some_ne (here : Setting F) (tag : LambdaTag) (e : RenderError) (call : Expansion σ)
    (s : RenderState F σ τ) (result : HostResult) (s' : RenderState F σ τ) :
    r.attend below here tag (some e) call s ≠ .ok (none, result) s' := by
  intro hok
  obtain ⟨new, -, -, hend⟩ :=
    r.keeps_attend hlogs here tag (some e) call (fun h : False => h.elim) s
  rw [hok] at hend
  cases hend

/-- If no failure is returned, the write has succeeded. -/
lemma exists_of_attend_write {here : Setting F} {tag : LambdaTag} {text : Text}
    {next : Bool → Expansion σ} {s s' : RenderState F σ τ} {result : HostResult}
    (hok : r.attend below here tag none (.write text next) s = .ok (none, result) s') :
    ∃ s₁, r.sink.writeData text tag.escapes s = .ok () s₁ ∧
      r.attend below here tag none (next true) s₁ = .ok (none, result) s' := by
  cases hwrite : r.sink.writeData text tag.escapes s with
  | ok u s₁ =>
    rw [r.attend_write_of_ok hwrite] at hok
    exact ⟨s₁, rfl, hok⟩
  | error e s₁ =>
    rw [r.attend_write_of_error hwrite] at hok
    exact absurd hok (r.attend_some_ne hlogs here tag _ _ _ _ _)

/-- If no failure is returned, the text has been rendered. -/
lemma exists_of_attend_render {here : Setting F} {tag : LambdaTag} {text : Text} {host : σ}
    {next : Bool → σ → Expansion σ} {s s' : RenderState F σ τ} {result : HostResult}
    (hok : r.attend below here tag none (.render text host next) s = .ok (none, result) s') :
    ∃ s₁, r.renderLambdaText below here tag text { s with host } = .ok () s₁ ∧
      r.attend below here tag none (next true s₁.host) s₁ = .ok (none, result) s' := by
  rcases hrender : r.renderLambdaText below here tag text { s with host } with
    ⟨u, s₁⟩ | ⟨e | _, s₁⟩
  · rw [r.attend_render_of_ok hrender] at hok
    exact ⟨s₁, rfl, hok⟩
  · rw [r.attend_render_of_failed hrender] at hok
    exact absurd hok (r.attend_some_ne hlogs here tag _ _ _ _ _)
  · rw [r.attend_render_of_unfinished hrender] at hok
    cases hok

/-- What follows a request adds to what carrying it out has added. -/
lemma exists_events_attend_write (here : Setting F) (tag : LambdaTag)
    (failure : Option RenderError) (text : Text)
    (next : Bool → Expansion σ) (s : RenderState F σ τ) :
    ∃ new, (reached (r.attend below here tag failure (.write text next) s)).events =
      (reached (r.sink.writeData text tag.escapes s)).events ++ new := by
  cases hwrite : r.sink.writeData text tag.escapes s with
  | ok a s₁ =>
    rw [r.attend_write_of_ok hwrite]
    exact r.grows_attend hlogs here tag _ (next true) s₁
  | error e s₁ =>
    rw [r.attend_write_of_error hwrite]
    exact r.grows_attend hlogs here tag _ (next false) s₁

lemma exists_events_attend_render (here : Setting F) (tag : LambdaTag)
    (failure : Option RenderError) (text : Text) (host : σ)
    (next : Bool → σ → Expansion σ) (s : RenderState F σ τ) :
    ∃ new, (reached (r.attend below here tag failure (.render text host next) s)).events =
      (reached (r.renderLambdaText below here tag text { s with host })).events ++ new := by
  cases hrender : r.renderLambdaText below here tag text { s with host } with
  | ok a s₁ =>
    rw [r.attend_render_of_ok hrender]
    exact r.grows_attend hlogs here tag _ (next true s₁.host) s₁
  | error halt s₁ =>
    cases halt with
    | unfinished =>
      rw [r.attend_render_of_unfinished hrender]
      exact ⟨[], (List.append_nil _).symm⟩
    | failed e =>
      rw [r.attend_render_of_failed hrender]
      exact r.grows_attend hlogs here tag _ (next false s₁.host) s₁

end

lemma logs_renderNodes (hstops : quiet → r.host.StopsOnFailure) (fuel : Nat) (here : Setting F)
    (range : NodeRange) : Logs quiet id (r.renderNodes fuel here range) := by
  have h : Relates (fun _ act _ => Logs quiet id act) r r := r.relates_logs
  exact h.renderNodes (fun fuel here node hbelow => r.logs_renderNode hbelow hstops fuel here node)
    fuel here range

lemma logs_render (hstops : quiet → r.host.StopsOnFailure) (fuel : Nat) (template : Template)
    (root : F) : Logs quiet id (r.render fuel template root) :=
  (r.logs_renderNodes hstops _ _ _).bind fun _ => .ofWrite r.sink.logs_finish

/-! ### Whole renderings -/

/-- A rendering that ends, with whatever fuel, has failed just if something in its history has, and
with the first failure there, whatever the host made of it. -/
theorem outcome_render_eq_verdict {fuel : Nat} {template : Template} {root : F} {host : σ}
    {sink : τ} (hends : outcome (r.render fuel template root (.start host sink)) ≠
      .error .unfinished) :
    (∀ more, fuel ≤ more → r.render more template root (.start host sink) =
      r.render fuel template root (.start host sink)) ∧
    outcome (r.render fuel template root (.start host sink)) =
      verdict (reached (r.render fuel template root (.start host sink))).events := by
  refine ⟨fun more hle => r.render_eq_of_le hends hle, ?_⟩
  obtain ⟨new, hevents, -, hend⟩ :=
    r.logs_render (fun h : False => h.elim) fuel template root (.start host sink)
  have hnew : (reached (r.render fuel template root (.start host sink))).events = new := hevents
  rw [hnew, verdict]
  cases hrender : outcome (r.render fuel template root (.start host sink)) with
  | ok _ =>
    rw [hrender] at hend
    have hnone : firstFailure new = none := hend
    rw [hnone]
  | error halt =>
    rw [hrender] at hend hends
    cases halt with
    | unfinished => exact absurd rfl hends
    | failed error =>
      have hfirst : firstFailure new = some error := hend error rfl
      rw [hfirst]

/-- A lambda that has a text rendered that is no template and, told of it, writes on. -/
def heedless : Value :=
  .map [(['l'], .lambda 0 ⟨[.tryRender ['{', '{'], .write ['x']], .ok .field⟩)]

/-- A rendering that calls the heedless lambda. -/
def heedlessRun (fuel : Nat) (t : Template) :
    EStateM.Result Halt (RenderState Frame Calls ByteArray) Unit :=
  (⟨Served.host, .buffer, .standard, fun _ => none⟩ : Renderer Frame Calls ByteArray).render fuel t
    (.root heedless) (.start [] .empty)

/-- The heedless lambda answers that all is well, and the rendering fails all the same. -/
theorem outcome_heedlessRun :
    ∃ t, Template.compile "{{#l}}{{/l}}".toList .standard = .ok t ∧
      outcome (heedlessRun 2 t) = .error (.failed (.lambda ⟨.unclosedTag ['}', '}'], ⟨0, 2⟩⟩)) ∧
      (∀ more, 2 ≤ more → heedlessRun more t = heedlessRun 2 t) ∧
      outcome (heedlessRun 2 t) = verdict (reached (heedlessRun 2 t)).events := by
  have hrun : (Template.compile "{{#l}}{{/l}}".toList .standard).map
      (fun t => outcome (heedlessRun 2 t)) =
        .ok (.error (.failed (.lambda ⟨.unclosedTag ['}', '}'], ⟨0, 2⟩⟩))) := by
    decide +kernel
  obtain ⟨t, hcompile, hrun⟩ := exists_eq_ok_of_map_eq_ok hrun
  have hends : outcome (heedlessRun 2 t) ≠ .error .unfinished := by
    rw [hrun]
    simp
  exact ⟨t, hcompile, hrun, outcome_render_eq_verdict _ hends⟩

/-- If the host stops a lambda at the first failure it hears of, the sink is left alone from the
first failure of the rendering on. While a value is written, no host can have it otherwise. -/
theorem quiet_render (hstops : r.host.StopsOnFailure) (fuel : Nat) (template : Template) (root : F)
    (host : σ) (sink : τ) :
    Quiet (reached (r.render fuel template root (.start host sink))).events := by
  obtain ⟨new, hevents, hquiet, -⟩ :=
    r.logs_render (fun _ : True => hstops) fuel template root (.start host sink)
  have hnew : (reached (r.render fuel template root (.start host sink))).events = new := hevents
  rw [hnew]
  exact hquiet trivial

/-- A host of lambdas that have a text rendered and, unless told that it failed, another one
written. -/
def heedful (text : Text) : Host Unit Unit :=
  { Host.constant .lambda with
    expand _ _ _ s := .render text s fun done s =>
      if done then .write ['x'] fun _ => .answer (.ok .field) s
      else .answer (.error .aborted) s }

lemma stopsOnFailure_heedful (text : Text) : (heedful text).StopsOnFailure := by
  intro frame path view s
  refine .render ?_ ?_
  · exact fun s => ⟨.error .aborted, s, rfl⟩
  · exact fun s => .write ⟨.ok .field, s, rfl⟩ (.answer _ _)

/-- A rendering that calls a heedful lambda. -/
def heedfulRun (sink : Sink ByteArray) (text : Text) (t : Template) :
    EStateM.Result Halt (RenderState Unit Unit ByteArray) Unit :=
  (⟨heedful text, sink, .standard, fun _ => none⟩ : Renderer Unit Unit ByteArray).render 3 t ()
    (.start () .empty)

/-- The two requests of the heedless lambda, by one that stops: the rendering fails as well, and the
sink is left alone. -/
theorem quiet_heedfulRun :
    ∃ t, Template.compile "{{#l}}{{/l}}".toList .standard = .ok t ∧
      (heedful ['{', '{']).StopsOnFailure ∧
      outcome (heedfulRun .buffer ['{', '{'] t) =
        .error (.failed (.lambda ⟨.unclosedTag ['}', '}'], ⟨0, 2⟩⟩)) ∧
      Quiet (reached (heedfulRun .buffer ['{', '{'] t)).events := by
  have hrun : (Template.compile "{{#l}}{{/l}}".toList .standard).map
      (fun t => outcome (heedfulRun .buffer ['{', '{'] t)) =
        .ok (.error (.failed (.lambda ⟨.unclosedTag ['}', '}'], ⟨0, 2⟩⟩))) := by
    decide +kernel
  obtain ⟨t, hcompile, hrun⟩ := exists_eq_ok_of_map_eq_ok hrun
  exact ⟨t, hcompile, stopsOnFailure_heedful _, hrun,
    quiet_render _ (stopsOnFailure_heedful _) 3 t () () ByteArray.empty⟩

/-- A lambda that is told of a failure and goes on still has more written. -/
theorem exists_write_after_failure :
    ∃ t, Template.compile "{{#l}}{{/l}}".toList .standard = .ok t ∧
      ∃ before after, (reached (heedlessRun 2 t)).events = before ++ after ∧
        firstFailure before = some (.lambda ⟨.unclosedTag ['}', '}'], ⟨0, 2⟩⟩) ∧
        writes after = [['x']] := by
  have hrun : (Template.compile "{{#l}}{{/l}}".toList .standard).map
      (fun t => (firstFailure ((reached (heedlessRun 2 t)).events.take 3),
        writes ((reached (heedlessRun 2 t)).events.drop 3))) =
        .ok (some (.lambda ⟨.unclosedTag ['}', '}'], ⟨0, 2⟩⟩), [['x']]) := by
    decide +kernel
  obtain ⟨t, hcompile, hrun⟩ := exists_eq_ok_of_map_eq_ok hrun
  obtain ⟨hbefore, hafter⟩ := Prod.mk.inj hrun
  exact ⟨t, hcompile, _, _, (List.take_append_drop 3 _).symm, hbefore, hafter⟩

end Renderer

end Mustache
