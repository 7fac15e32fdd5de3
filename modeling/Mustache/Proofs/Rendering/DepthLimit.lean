import Mustache.Proofs.Rendering.Endless

/-!
# The depth limit

Two renderings that differ only in how deep partials and lambdas may nest are the same up to where
the tighter limit stops something. That is a failure, and the first failure decides how a rendering
ends. So a rendering that did not end for being nested too deep ends in no other way with any looser
limit; and if it is done, nothing was stopped, and the whole rendering is the same.

A lambda that is told of a failure may go on, though, and what it has rendered then may be stopped
by the tighter limit alone. With the looser one it may take for ever, if a section in it has no end.
Where lambdas stop when they are told of a failure, the whole rendering is the same here too.
-/

namespace Mustache

variable {F σ τ ε α β : Type}

/-! ### Runs that part at the limit -/

/-- Since a state, two runs have been alike up to where the first was stopped for being nested too
deep. -/
def Parted (s tight loose : RenderState F σ τ) : Prop :=
  ∃ before limit name after after',
    tight.events = s.events ++ (before ++ .tooDeep limit name :: after) ∧
      loose.events = s.events ++ (before ++ after')

namespace Parted

variable {s s₁ tight tight' loose loose' : RenderState F σ τ} {new more : List (Event F)}

lemma grow (h : Parted s tight loose) (htight : tight'.events = tight.events ++ new)
    (hloose : loose'.events = loose.events ++ more) : Parted s tight' loose' := by
  obtain ⟨before, limit, name, after, after', htight₀, hloose₀⟩ := h
  refine ⟨before, limit, name, after ++ new, after' ++ more, ?_, ?_⟩
  · rw [htight, htight₀]
    simp only [List.append_assoc, List.cons_append]
  · rw [hloose, hloose₀]
    simp only [List.append_assoc]

/-- What was alike before counts too. -/
lemma since (h : Parted s₁ tight loose) (hs : s₁.events = s.events ++ new) :
    Parted s tight loose := by
  obtain ⟨before, limit, name, after, after', htight, hloose⟩ := h
  refine ⟨new ++ before, limit, name, after, after', ?_, ?_⟩
  · rw [htight, hs]
    simp only [List.append_assoc]
  · rw [hloose, hs]
    simp only [List.append_assoc]

/-- If the first failure of the one run is not that something was nested too deep, it is that of the
other run too. -/
lemma firstFailure_eq (h : Parted s tight loose) (htight : tight.events = s.events ++ new)
    (hloose : loose.events = s.events ++ more)
    (hlimit : ∀ limit name, firstFailure new ≠ some (.recursionLimit limit name)) :
    firstFailure new ≠ none ∧ firstFailure more = firstFailure new := by
  obtain ⟨before, limit, name, after, after', htight', hloose'⟩ := h
  obtain rfl := List.append_cancel_left (htight.symm.trans htight')
  obtain rfl := List.append_cancel_left (hloose.symm.trans hloose')
  have hstop : (Event.tooDeep limit name : Event F).failure? = some (.recursionLimit limit name) :=
    rfl
  cases hbefore : firstFailure before with
  | none => exact absurd (by simp [hbefore, hstop]) (hlimit limit name)
  | some e => simp [hbefore]

end Parted

/-- A rendering that was stopped at its limit after it had failed otherwise ends in the same way
where it was not stopped. -/
lemma outcome_eq_of_parted {act act' : RenderM F σ τ Unit} (hact : Logs False id act)
    (hact' : Logs False id act') {s : RenderState F σ τ}
    (hparted : Parted s (reached (act s)) (reached (act' s)))
    (hends : outcome (act s) ≠ .error .unfinished)
    (hlimit : ∀ limit name, outcome (act s) ≠ .error (.failed (.recursionLimit limit name))) :
    outcome (act s) ≠ .ok () ∧
      (outcome (act' s) ≠ .error .unfinished → outcome (act' s) = outcome (act s)) := by
  obtain ⟨new, hnew, -, hend⟩ := hact s
  obtain ⟨more, hmore, -, hend'⟩ := hact' s
  rcases hresult : outcome (act s) with (e | _) | _
  · rw [hresult] at hend
    have hfirst : firstFailure new = some e := hend e rfl
    have hnot : ∀ limit name, firstFailure new ≠ some (.recursionLimit limit name) := by
      intro limit name h
      rw [hfirst, Option.some.injEq] at h
      exact hlimit limit name (hresult.trans (by rw [h]))
    have hfirst' : firstFailure more = some e :=
      (hparted.firstFailure_eq hnew hmore hnot).2.trans hfirst
    refine ⟨by simp, fun hends' => ?_⟩
    rcases hresult' : outcome (act' s) with (e' | _) | _
    · rw [hresult'] at hend'
      obtain rfl : e = e' := Option.some.inj (hfirst'.symm.trans (hend' e' rfl))
      rfl
    · exact absurd hresult' hends'
    · rw [hresult'] at hend'
      exact absurd (hfirst'.symm.trans hend') (by simp)
  · exact absurd hresult hends
  · rw [hresult] at hend
    have hfirst : firstFailure new = none := hend
    exact absurd hfirst (hparted.firstFailure_eq hnew hmore (by simp [hfirst])).1

/-- Two runs of one action from one state: they are the same, or have parted at the limit. -/
def AlikeToLimit (s : RenderState F σ τ) (tight loose : EStateM.Result ε (RenderState F σ τ) α) :
    Prop :=
  loose = tight ∨ Parted s (reached tight) (reached loose)

lemma AlikeToLimit.since {s s₁ : RenderState F σ τ} {new : List (Event F)}
    {tight loose : EStateM.Result ε (RenderState F σ τ) α} (h : AlikeToLimit s₁ tight loose)
    (hs : s₁.events = s.events ++ new) : AlikeToLimit s tight loose :=
  h.imp_right fun hparted => hparted.since hs

/-- From whatever state, the actions are alike up to the limit of the first. -/
structure Loosens (tight loose : EStateM ε (RenderState F σ τ) α) : Prop where
  grows : Grows tight
  grows' : Grows loose
  alike : ∀ s, AlikeToLimit s (tight s) (loose s)

namespace Loosens

variable {tight loose : EStateM ε (RenderState F σ τ) α}

lemma refl (h : Grows tight) : Loosens tight tight := ⟨h, h, fun _ => .inl rfl⟩

lemma pure (a : α) : Loosens (pure a : EStateM ε (RenderState F σ τ) α) (pure a) :=
  refl fun _ => ⟨[], (List.append_nil _).symm⟩

lemma throw (e : ε) : Loosens (throw e : EStateM ε (RenderState F σ τ) α) (throw e) :=
  refl fun _ => ⟨[], (List.append_nil _).symm⟩

lemma record (e : Event F) :
    Loosens (RenderM.record e : RenderM F σ τ Unit) (RenderM.record e) :=
  refl fun s => ⟨[e], RenderState.events_record s e⟩

lemma ofWrite {act : WriteM F σ τ α} (h : Logs False refusal act) :
    Loosens (RenderM.ofWrite act) (RenderM.ofWrite act) :=
  refl (Logs.ofWrite h).grows

lemma bind {next next' : α → EStateM ε (RenderState F σ τ) β} (h : Loosens tight loose)
    (hnext : ∀ a, Loosens (next a) (next' a)) : Loosens (tight >>= next) (loose >>= next') where
  grows := h.grows.bind fun a => (hnext a).grows
  grows' := h.grows'.bind fun a => (hnext a).grows'
  alike s := by
    rcases h.alike s with heq | hparted
    · obtain ⟨new, hnew⟩ := h.grows s
      cases hact : tight s with
      | ok a s' =>
        rw [hact] at heq hnew
        rw [bind_apply_of_ok hact, bind_apply_of_ok heq]
        exact ((hnext a).alike s').since hnew
      | error e s' =>
        rw [hact] at heq
        rw [bind_apply_of_error hact, bind_apply_of_error heq]
        exact .inl rfl
    · obtain ⟨new, hnew⟩ := Grows.exists_events_bind (fun a => (hnext a).grows) s
      obtain ⟨more, hmore⟩ := Grows.exists_events_bind (fun a => (hnext a).grows') s
      exact .inr (hparted.grow hnew hmore)

lemma get_bind {next next' : RenderState F σ τ → EStateM ε (RenderState F σ τ) α}
    (h : ∀ s, Loosens (next s) (next' s)) : Loosens (get >>= next) (get >>= next') where
  grows s := (h s).grows s
  grows' s := (h s).grows' s
  alike s := (h s).alike s

lemma composes : ActionRel.Composes (fun _ => Loosens : ActionRel F σ τ τ) where
  pure := pure
  bind := bind

/-- Events around the actions. -/
lemma bracket {enter : RenderState F σ τ → RenderState F σ τ} {value : α → RenderState F σ τ → β}
    {leave : RenderState F σ τ → RenderState F σ τ → RenderState F σ τ} (h : Loosens tight loose)
    (before after : List (Event F)) (henter : ∀ s, (enter s).events = s.events ++ before)
    (hleave : ∀ s s', (leave s s').events = s'.events ++ after) :
    Loosens (bracket enter value leave tight) (bracket enter value leave loose) where
  grows := h.grows.bracket (fun s => ⟨before, henter s⟩) fun s s' => ⟨after, hleave s s'⟩
  grows' := h.grows'.bracket (fun s => ⟨before, henter s⟩) fun s s' => ⟨after, hleave s s'⟩
  alike s := by
    rcases h.alike (enter s) with heq | hparted
    · exact .inl (by rw [Mustache.bracket, Mustache.bracket, heq])
    · refine .inr ?_
      rw [reached_bracket, reached_bracket]
      exact (hparted.since (henter s)).grow (hleave s _) (hleave s _)

end Loosens

/-! ### Runs that are stopped at the limit -/

/-- The action has failed for something that was nested too deep. -/
def StoppedAtLimit (result : EStateM.Result Halt (RenderState F σ τ) α) : Prop :=
  ∃ limit name, outcome result = .error (.failed (.recursionLimit limit name))

/-- From whatever state, the first action is stopped at its limit, or the two do the same. -/
def SameUnlessStopped (tight loose : RenderM F σ τ α) : Prop :=
  ∀ s, StoppedAtLimit (tight s) ∨ loose s = tight s

namespace SameUnlessStopped

variable {tight loose : RenderM F σ τ α}

lemma refl (act : RenderM F σ τ α) : SameUnlessStopped act act := fun _ => .inr rfl

lemma bind {next next' : α → RenderM F σ τ β} (h : SameUnlessStopped tight loose)
    (hnext : ∀ a, SameUnlessStopped (next a) (next' a)) :
    SameUnlessStopped (tight >>= next) (loose >>= next') := by
  intro s
  rcases h s with ⟨limit, name, hstopped⟩ | heq
  · cases hact : tight s with
    | ok a s' =>
      rw [hact] at hstopped
      cases hstopped
    | error e s' =>
      rw [hact] at hstopped
      cases hstopped
      exact .inl ⟨limit, name, congrArg outcome (bind_apply_of_error hact)⟩
  · cases hact : tight s with
    | ok a s' =>
      rw [hact] at heq
      rw [bind_apply_of_ok hact, bind_apply_of_ok heq]
      exact hnext a s'
    | error e s' =>
      rw [hact] at heq
      rw [bind_apply_of_error hact, bind_apply_of_error heq]
      exact .inr rfl

lemma get_bind {next next' : RenderState F σ τ → RenderM F σ τ α}
    (h : ∀ s, SameUnlessStopped (next s) (next' s)) :
    SameUnlessStopped (get >>= next) (get >>= next') := fun s => h s s

lemma composes : ActionRel.Composes (fun _ => SameUnlessStopped : ActionRel F σ τ τ) where
  pure a := refl (Pure.pure a)
  bind := bind

lemma bracket {enter : RenderState F σ τ → RenderState F σ τ} {value : α → RenderState F σ τ → β}
    {leave : RenderState F σ τ → RenderState F σ τ → RenderState F σ τ}
    (h : SameUnlessStopped tight loose) :
    SameUnlessStopped (bracket enter value leave tight) (bracket enter value leave loose) := by
  intro s
  rw [Mustache.bracket, Mustache.bracket]
  rcases h (enter s) with ⟨limit, name, hstopped⟩ | heq
  · cases hact : tight (enter s) with
    | ok a s' =>
      rw [hact] at hstopped
      cases hstopped
    | error e s' =>
      rw [hact] at hstopped
      cases hstopped
      exact .inl ⟨limit, name, rfl⟩
  · rw [heq]
    exact .inr rfl

end SameUnlessStopped

/-! ### Renderings with another limit -/

namespace Renderer

/-- The same renderings, with another limit to how deep partials and lambdas may nest. -/
def withDepth (r : Renderer F σ τ) (depth : Nat) : Renderer F σ τ :=
  { r with options := { r.options with maxDepth := depth } }

variable (r : Renderer F σ τ)

lemma serve_withDepth (depth : Nat) (escaped : Bool) (failure : Option SinkError)
    (call : Interpolation σ) :
    (r.withDepth depth).serve escaped failure call = r.serve escaped failure call := by
  induction call generalizing failure with
  | answer result host => rfl
  | remark remark next ih =>
    exact funext fun s => congrFun (ih failure) (s.record (.remarked remark))
  | write raw text next ih =>
    simp only [serve, ih]
    rfl

lemma interpolate_withDepth (depth : Nat) (frame : F) (path : Path) (escaped : Bool) :
    (r.withDepth depth).interpolate frame path escaped = r.interpolate frame path escaped := by
  simp only [interpolate, serve_withDepth]
  rfl

section

variable {limit limit' : Nat} (hle : limit ≤ limit')

include hle

/-- The one point at which the two renderings part. -/
lemma loosens_checkDepth_bind {depth : Nat} {name : Text} {next next' : RenderM F σ τ α}
    (h : Loosens next next') :
    Loosens ((r.withDepth limit).checkDepth depth name >>= fun _ => next)
      ((r.withDepth limit').checkDepth depth name >>= fun _ => next') := by
  have hgrows (depth' : Nat) {act : RenderM F σ τ α} (hact : Grows act) :
      Grows ((r.withDepth depth').checkDepth depth name >>= fun _ => act) :=
    ((r.withDepth depth').logs_checkDepth depth name : Logs False id _).grows.bind fun _ => hact
  refine ⟨hgrows limit h.grows, hgrows limit' h.grows', fun s => ?_⟩
  rcases Nat.lt_or_ge limit depth with hlt | hdepth
  · obtain ⟨new, hnew⟩ := hgrows limit' h.grows' s
    refine .inr ⟨[], limit, name, [], new, ?_, hnew⟩
    rw [(r.withDepth limit).checkDepth_bind_of_lt hlt]
    exact RenderState.events_record _ _
  · rw [(r.withDepth limit).checkDepth_bind_of_le hdepth,
      (r.withDepth limit').checkDepth_bind_of_le (hdepth.trans hle)]
    exact h.alike s

end

lemma loosens_enclosed {act act' : RenderM F σ τ Unit} (h : Loosens act act')
    (name indent : Text) : Loosens (enclosed name indent act) (enclosed name indent act') := by
  rw [enclosed_eq_bracket, enclosed_eq_bracket]
  exact h.bracket [.entered name indent] [.left] (fun _ => RenderState.events_record _ _)
    fun _ _ => RenderState.events_record _ _

lemma loosens_indented {act act' : RenderM F σ τ Unit} (h : Loosens act act') (indent : Text) :
    Loosens (indented indent act) (indented indent act') := by
  rw [indented_eq_bracket, indented_eq_bracket]
  exact h.bracket [] [] (fun _ => (List.append_nil _).symm) fun _ _ => (List.append_nil _).symm

lemma loosens_onAside {act act' : RenderM F σ τ Unit} (h : Loosens act act') :
    Loosens (onAside act) (onAside act') := by
  rw [onAside_eq_bracket, onAside_eq_bracket]
  exact h.bracket [] [] (fun _ => (List.append_nil _).symm) fun _ _ => (List.append_nil _).symm

lemma loosens_interpolate (limit limit' : Nat) (frame : F) (path : Path) (escaped : Bool) :
    Loosens ((r.withDepth limit).interpolate frame path escaped)
      ((r.withDepth limit').interpolate frame path escaped) := by
  rw [interpolate_withDepth, interpolate_withDepth]
  exact .refl (r.logs_interpolate frame path escaped : Logs False id _).grows

lemma relates_loosens (limit limit' : Nat) :
    Relates (fun _ => Loosens) (r.withDepth limit) (r.withDepth limit') where
  toComposes := Loosens.composes
  escaping_eq := rfl
  unfinished := .throw _
  lookUp_bind := Loosens.composes.keptByLookUp _ _ (fun _ _ => .throw _)
    fun _ _ _ => .refl fun _ => ⟨_, RenderState.events_record _ _⟩
  interpolate := r.loosens_interpolate limit limit'
  writeText _ := .ofWrite (r.sink.logs_writeText _)

lemma relatesNested_loosens {limit limit' : Nat} (hle : limit ≤ limit') :
    RelatesNested (fun _ => Loosens) (r.withDepth limit) (r.withDepth limit') where
  toComposes := Loosens.composes
  partials_eq := rfl
  checkDepth_bind _ _ _ _ h := r.loosens_checkDepth_bind hle h
  reject _ := (Loosens.record _).bind fun _ => .throw _
  enclosed name indent _ _ h := loosens_enclosed h name indent
  indented indent _ _ h := loosens_indented h indent
  onAside h := loosens_onAside h
  writeData _ _ := .ofWrite (r.sink.logs_writeData _ _)

lemma loosens_settle (path : Path) (done : HostResult → Event F)
    (answer : Option RenderError × HostResult) :
    Loosens (settle id path done (fun _ => pure ()) answer : RenderM F σ τ Unit)
      (settle id path done (fun _ => pure ()) answer) := by
  refine (Loosens.record (done answer.2)).bind fun _ => ?_
  rcases answer with ⟨_ | e, _ | a⟩
  · exact .throw _
  · exact .pure ()
  · exact .throw _
  · exact .throw _

section

variable {below below' : Nested F σ τ}
  (hbelow : ∀ here range, Loosens (below here range) (below' here range))

include hbelow

variable {limit limit' : Nat} (hle : limit ≤ limit')

include hle

variable (hlogs : ∀ here range, Logs False id (below here range))
  (hlogs' : ∀ here range, Logs False id (below' here range))

include hlogs hlogs'

/-- The host may go on when it hears that a text was nested too deep, but the runs have parted. -/
lemma loosens_attend (here : Setting F) (tag : LambdaTag) (failure : Option RenderError)
    (call : Expansion σ) :
    Loosens ((r.withDepth limit).attend below here tag failure call)
      ((r.withDepth limit').attend below' here tag failure call) := by
  refine ⟨(r.withDepth limit).grows_attend hlogs here tag failure call,
    (r.withDepth limit').grows_attend hlogs' here tag failure call, fun s => ?_⟩
  induction call generalizing failure s with
  | answer result host => exact .inl rfl
  | remark remark next ih =>
    exact (ih failure (s.record (.remarked remark))).since (RenderState.events_record _ _)
  | write text next ih =>
    obtain ⟨new, hnew, -⟩ := (r.sink.logs_writeData text tag.escapes : Logs False refusal _) s
    cases hwrite : r.sink.writeData text tag.escapes s with
    | ok a s₁ =>
      rw [hwrite] at hnew
      rw [(r.withDepth limit).attend_write_of_ok hwrite,
        (r.withDepth limit').attend_write_of_ok hwrite]
      exact (ih true failure s₁).since hnew
    | error e s₁ =>
      rw [hwrite] at hnew
      rw [(r.withDepth limit).attend_write_of_error hwrite,
        (r.withDepth limit').attend_write_of_error hwrite]
      exact (ih false _ s₁).since hnew
  | render text host next ih =>
    have hrendered := (r.relatesNested_loosens hle).renderLambdaText below below'
      (fun template => hbelow (here.nested template)) tag text
    rcases hrendered.alike { s with host } with heq | hparted
    · obtain ⟨new, hnew⟩ := hrendered.grows { s with host }
      rcases hrender : (r.withDepth limit).renderLambdaText below here tag text { s with host } with
        ⟨a, s₁⟩ | ⟨e | _, s₁⟩
      · rw [hrender] at heq hnew
        rw [attend_render_of_ok _ hrender, attend_render_of_ok _ heq]
        exact (ih true s₁.host failure s₁).since hnew
      · rw [hrender] at heq hnew
        rw [attend_render_of_failed _ hrender, attend_render_of_failed _ heq]
        exact (ih false s₁.host _ s₁).since hnew
      · rw [hrender] at heq
        rw [attend_render_of_unfinished _ hrender, attend_render_of_unfinished _ heq]
        exact .inl rfl
    · obtain ⟨new, hnew⟩ :=
        (r.withDepth limit).exists_events_attend_render hlogs here tag failure text host next s
      obtain ⟨more, hmore⟩ :=
        (r.withDepth limit').exists_events_attend_render hlogs' here tag failure text host next s
      exact .inr (hparted.grow hnew hmore)

lemma loosens_expandLambda (here : Setting F) (frame : F) (path : Path) (tag : LambdaTag) :
    Loosens ((r.withDepth limit).expandLambda below here frame path tag)
      ((r.withDepth limit').expandLambda below' here frame path tag) := by
  rw [expandLambda_eq_settle, expandLambda_eq_settle]
  refine (Loosens.record _).bind fun _ => .get_bind fun s => ?_
  exact (r.loosens_attend hbelow hle hlogs hlogs' here tag none _).bind fun answer =>
    loosens_settle path _ answer

lemma loosens_renderNode (fuel : Nat) (here : Setting F) (node : Node) :
    Loosens ((r.withDepth limit).renderNode below fuel here node)
      ((r.withDepth limit').renderNode below' fuel here node) := by
  have h := r.relates_loosens limit limit'
  have hexpand := r.loosens_expandLambda hbelow hle hlogs hlogs' here
  have hpartial := (r.relatesNested_loosens hle).renderPartial below below'
    fun template => hbelow (here.nested template)
  exact h.renderNode below below' (hbelow here) hexpand fuel fuel
    (fun elem => hbelow (here.inside elem)) (h.renderElements fuel) hpartial node

end

/-! ### Hosts that stop -/

lemma relates_sameUnlessStopped (limit limit' : Nat) :
    Relates (fun _ => SameUnlessStopped) (r.withDepth limit) (r.withDepth limit') where
  toComposes := SameUnlessStopped.composes
  escaping_eq := rfl
  unfinished := .refl _
  lookUp_bind := SameUnlessStopped.composes.keptByLookUp _ _ (fun _ _ => .refl _)
    fun _ _ _ => .refl _
  interpolate frame path escaped := by
    rw [interpolate_withDepth, interpolate_withDepth]
    exact .refl _
  writeText _ := .refl _

section

variable {limit limit' : Nat} (hle : limit ≤ limit')

include hle

lemma relatesNested_sameUnlessStopped :
    RelatesNested (fun _ => SameUnlessStopped) (r.withDepth limit) (r.withDepth limit') where
  toComposes := SameUnlessStopped.composes
  partials_eq := rfl
  checkDepth_bind depth name next next' h := by
    rcases Nat.lt_or_ge limit depth with hlt | hdepth
    · rw [(r.withDepth limit).checkDepth_bind_of_lt hlt]
      exact fun s => .inl ⟨limit, name, rfl⟩
    · rw [(r.withDepth limit).checkDepth_bind_of_le hdepth,
        (r.withDepth limit').checkDepth_bind_of_le (hdepth.trans hle)]
      exact h
  reject _ := .refl _
  enclosed name indent _ _ h := by
    rw [enclosed_eq_bracket, enclosed_eq_bracket]
    exact h.bracket
  indented indent _ _ h := by
    rw [indented_eq_bracket, indented_eq_bracket]
    exact h.bracket
  onAside h := by
    rw [onAside_eq_bracket, onAside_eq_bracket]
    exact h.bracket
  writeData _ _ := .refl _

variable {below below' : Nested F σ τ}
  (hbelow : ∀ here range, SameUnlessStopped (below here range) (below' here range))

include hbelow

/-- If something was nested too deep, that is the failure which is kept, as the host does no more
when it is told. -/
lemma attend_of_stops (here : Setting F) (tag : LambdaTag) {call : Expansion σ}
    (hstops : call.Stops) (s : RenderState F σ τ) :
    (∃ depth name result s', (r.withDepth limit).attend below here tag none call s =
      .ok (some (.recursionLimit depth name), result) s') ∨
    (r.withDepth limit').attend below' here tag none call s =
      (r.withDepth limit).attend below here tag none call s := by
  induction hstops generalizing s with
  | answer result host => exact .inr rfl
  | remark _ ih => exact ih (s.record (.remarked _))
  | @write text next hfail _ ih =>
    cases hwrite : r.sink.writeData text tag.escapes s with
    | ok a s₁ =>
      rw [(r.withDepth limit).attend_write_of_ok hwrite,
        (r.withDepth limit').attend_write_of_ok hwrite]
      exact ih s₁
    | error e s₁ =>
      obtain ⟨result, host, hanswer⟩ := hfail
      rw [(r.withDepth limit).attend_write_of_error hwrite,
        (r.withDepth limit').attend_write_of_error hwrite, hanswer]
      exact .inr rfl
  | @render text host next hfail _ ih =>
    have hrendered := (r.relatesNested_sameUnlessStopped hle).renderLambdaText below below'
      (fun template => hbelow (here.nested template)) tag text { s with host }
    rcases hrender : (r.withDepth limit).renderLambdaText below here tag text { s with host } with
      ⟨a, s₁⟩ | ⟨e | _, s₁⟩
    · rw [hrender] at hrendered
      rcases hrendered with ⟨depth, name, hstopped⟩ | heq
      · cases hstopped
      · rw [attend_render_of_ok _ hrender, attend_render_of_ok _ heq]
        exact ih s₁.host s₁
    · rw [hrender] at hrendered
      obtain ⟨result, host', hanswer⟩ := hfail s₁.host
      rcases hrendered with ⟨depth, name, hstopped⟩ | heq
      · cases hstopped
        rw [attend_render_of_failed _ hrender, hanswer]
        exact .inl ⟨depth, name, result, _, rfl⟩
      · rw [attend_render_of_failed _ hrender, attend_render_of_failed _ heq, hanswer]
        exact .inr rfl
    · rw [hrender] at hrendered
      rcases hrendered with ⟨depth, name, hstopped⟩ | heq
      · cases hstopped
      · rw [attend_render_of_unfinished _ hrender, attend_render_of_unfinished _ heq]
        exact .inr rfl

variable (hstops : r.host.StopsOnFailure)

include hstops

lemma sameUnlessStopped_expandLambda (here : Setting F) (frame : F) (path : Path)
    (tag : LambdaTag) :
    SameUnlessStopped ((r.withDepth limit).expandLambda below here frame path tag)
      ((r.withDepth limit').expandLambda below' here frame path tag) := by
  rw [expandLambda_eq_settle, expandLambda_eq_settle]
  apply (SameUnlessStopped.refl _).bind
  intro _
  apply SameUnlessStopped.get_bind
  intro s s'
  rcases r.attend_of_stops hle hbelow here tag (hstops frame path tag.view s.host) s' with
    ⟨depth, name, result, s₁, hattend⟩ | heq
  · exact .inl ⟨depth, name, congrArg outcome (bind_apply_of_ok hattend)⟩
  · exact .inr (bind_apply_congr heq _)

lemma sameUnlessStopped_renderNode (fuel : Nat) (here : Setting F) (node : Node) :
    SameUnlessStopped ((r.withDepth limit).renderNode below fuel here node)
      ((r.withDepth limit').renderNode below' fuel here node) := by
  have h := r.relates_sameUnlessStopped limit limit'
  have hexpand := r.sameUnlessStopped_expandLambda hle hbelow hstops here
  have hpartial := (r.relatesNested_sameUnlessStopped hle).renderPartial below below'
    fun template => hbelow (here.nested template)
  exact h.renderNode below below' (hbelow here) hexpand fuel fuel
    (fun elem => hbelow (here.inside elem)) (h.renderElements fuel) hpartial node

omit hbelow in
lemma sameUnlessStopped_render (fuel : Nat) (template : Template) (root : F) :
    SameUnlessStopped ((r.withDepth limit).render fuel template root)
      ((r.withDepth limit').render fuel template root) := by
  have h := r.relates_sameUnlessStopped limit limit'
  apply SameUnlessStopped.bind
  · exact h.renderNodes (fun fuel here node hbelow =>
      r.sameUnlessStopped_renderNode hle hbelow hstops fuel here node) fuel _ _
  · exact fun _ => .refl _

end

/-! ### Whole renderings -/

section

variable {limit limit' : Nat} (hle : limit ≤ limit')

include hle

lemma loosens_renderNodes (fuel : Nat) (here : Setting F) (range : NodeRange) :
    Loosens ((r.withDepth limit).renderNodes fuel here range)
      ((r.withDepth limit').renderNodes fuel here range) := by
  have hlogs (r : Renderer F σ τ) (fuel : Nat) (here : Setting F) (range : NodeRange) :
      Logs False id (r.renderNodes fuel here range) :=
    r.logs_renderNodes (fun h : False => h.elim) fuel here range
  have h := r.relates_loosens limit limit'
  refine h.renderNodes (fun fuel here node hbelow => ?_) fuel here range
  exact r.loosens_renderNode hbelow hle (hlogs _ fuel) (hlogs _ fuel) fuel here node

lemma loosens_render (fuel : Nat) (template : Template) (root : F) :
    Loosens ((r.withDepth limit).render fuel template root)
      ((r.withDepth limit').render fuel template root) :=
  (r.loosens_renderNodes hle fuel _ _).bind fun _ => .ofWrite r.sink.logs_finish

/-- A rendering that does not end for being nested too deep ends in no other way with any looser
limit. If it is done, or lambdas stop when they are told of a failure, it is the same in all that
happens. If it has failed otherwise, and a lambda that was told goes on and has more rendered, the
looser one comes to an end too where the host ends its sections. -/
theorem returns_withDepth {template : Template} {root : F} {host : σ} {sink : τ}
    {result : EStateM.Result Halt (RenderState F σ τ) Unit}
    (hreturns : (r.withDepth limit).Returns template root host sink result)
    (hlimit : ∀ depth name, outcome result ≠ .error (.failed (.recursionLimit depth name))) :
    (outcome result = .ok () ∨ r.host.StopsOnFailure →
      (r.withDepth limit').Returns template root host sink result) ∧
    (∀ result', (r.withDepth limit').Returns template root host sink result' →
      outcome result' = outcome result) ∧
    (r.host.EndsSections → template.WellNested →
      (∀ name partialTemplate, r.partials name = some partialTemplate →
        partialTemplate.WellNested) →
      ∃ result', (r.withDepth limit').Returns template root host sink result') := by
  obtain ⟨hends, htight⟩ := hreturns
  have hlogs (r : Renderer F σ τ) (fuel : Nat) : Logs False id (r.render fuel template root) :=
    r.logs_render (fun h : False => h.elim) fuel template root
  have hparted (fuel : Nat)
      (hfuel : (r.withDepth limit).render fuel template root (.start host sink) = result) :
      (r.withDepth limit').render fuel template root (.start host sink) = result ∨
        outcome result ≠ .ok () ∧
          (outcome ((r.withDepth limit').render fuel template root (.start host sink)) ≠
              .error .unfinished →
            outcome ((r.withDepth limit').render fuel template root (.start host sink)) =
              outcome result) := by
    refine ((r.loosens_render hle fuel template root).alike (.start host sink)).imp
      (fun heq => heq.trans hfuel) fun hparted => ?_
    subst hfuel
    exact outcome_eq_of_parted (hlogs _ fuel) (hlogs _ fuel) hparted hends hlimit
  refine ⟨fun hsame => ⟨hends, ?_⟩, fun result' hloose => ?_,
    fun hsections htemplate hpartials => ?_⟩
  · filter_upwards [htight] with fuel hfuel
    rcases hsame with hok | hstops
    · exact (hparted fuel hfuel).resolve_right fun h => h.1 hok
    · have hstopped := r.sameUnlessStopped_render hle hstops fuel template root (.start host sink)
      rw [hfuel] at hstopped
      exact hstopped.resolve_left fun ⟨depth, name, h⟩ => hlimit depth name h
  · obtain ⟨hends', hloose⟩ := hloose
    obtain ⟨fuel, hfuel, rfl⟩ := (htight.and hloose).exists
    rcases hparted fuel hfuel with heq | ⟨-, hsame⟩
    · exact congrArg outcome heq
    · exact hsame hends'
  · exact (r.withDepth limit').ends_render hsections hpartials htemplate root (.start host sink)

end

/-- A host of lambdas that have a text rendered that is no template, and then a partial. -/
def stubborn : Host Unit Unit :=
  { Host.constant .lambda with
    expand _ _ _ s := .render ['{', '{'] s fun _ s =>
      .render "{{>p}}".toList s fun _ s => .answer (.ok .field) s }

lemma endsSections_stubborn : stubborn.EndsSections :=
  fun _ _ => ⟨0, fun _ _ => by simp [stubborn, Host.constant, Lookup.ofResolution]⟩

/-- Renderings with the stubborn host, for which every partial is one character. -/
def stubbornRenderer : Renderer Unit Unit ByteArray :=
  ⟨stubborn, .buffer, .standard, fun _ => (Template.compile ['x'] .standard).toOption⟩

/-- A rendering with the stubborn host. -/
def stubbornRun (depth : Nat) (t : Template) :
    EStateM.Result Halt (RenderState Unit Unit ByteArray) Unit :=
  (stubbornRenderer.withDepth depth).render 9 t () (.start () .empty)

/-- The partial is too deep for the one limit and not for the other, and more is written with that
one; both renderings end with the failure that came first. -/
theorem returns_withDepth_stubborn :
    ∃ t, Template.compile "{{#l}}{{/l}}".toList .standard = .ok t ∧
      (stubbornRenderer.withDepth 1).Returns t () () .empty (stubbornRun 1 t) ∧
      outcome (stubbornRun 1 t) = .error (.failed (.lambda ⟨.unclosedTag ['}', '}'], ⟨0, 2⟩⟩)) ∧
      writes (reached (stubbornRun 1 t)).events = [] ∧
      writes (reached (stubbornRun 2 t)).events = [['x']] ∧
      ∃ result', (stubbornRenderer.withDepth 2).Returns t () () .empty result' ∧
        outcome result' = .error (.failed (.lambda ⟨.unclosedTag ['}', '}'], ⟨0, 2⟩⟩)) := by
  have hrun : (Template.compile "{{#l}}{{/l}}".toList .standard).map
      (fun t => (outcome (stubbornRun 1 t), writes (reached (stubbornRun 1 t)).events,
        writes (reached (stubbornRun 2 t)).events)) =
        .ok (.error (.failed (.lambda ⟨.unclosedTag ['}', '}'], ⟨0, 2⟩⟩)), [], [['x']]) := by
    decide +kernel
  obtain ⟨t, hcompile, hrun⟩ := exists_eq_ok_of_map_eq_ok hrun
  obtain ⟨hend, hwrites⟩ := Prod.mk.inj hrun
  obtain ⟨htight, hloose⟩ := Prod.mk.inj hwrites
  have hreturns : (stubbornRenderer.withDepth 1).Returns t () () .empty (stubbornRun 1 t) :=
    (stubbornRenderer.withDepth 1).returns_render (by
      show outcome (stubbornRun 1 t) ≠ _
      simp [hend])
  obtain ⟨-, hsame, hexists⟩ := stubbornRenderer.returns_withDepth (Nat.le_succ 1) hreturns
    (by simp [hend])
  obtain ⟨result', hreturns'⟩ := hexists endsSections_stubborn
    (Template.wellNested_of_compile hcompile) fun _ _ h => Template.wellNested_of_toOption h
  exact ⟨t, hcompile, hreturns, hend, htight, hloose, result', hreturns',
    (hsame result' hreturns').trans hend⟩

/-- The stubborn host, with one more element of everything always. -/
def endless : Host Unit Unit := { stubborn with get _ _ _ s := (.ok (.field ()), s) }

/-- Renderings with this host, for which every partial is an empty section. -/
def endlessRenderer (depth : Nat) : Renderer Unit Unit ByteArray :=
  ⟨endless, .buffer, { RenderOptions.standard with maxDepth := depth },
    fun _ => (Template.compile "{{#s}}{{/s}}".toList .standard).toOption⟩

/-- The nodes of a partial tag alone, rendered where one more partial may be nested. -/
lemma unending_partial_endless {t : Template} {tag : Partial}
    (hnodes : t.rootNodes = [.partialTag tag]) :
    Unending ((endlessRenderer 2).renderNodes · ⟨t, [()], 1⟩ t.root) := by
  have hrun : (Template.compile "{{#s}}{{/s}}".toList .standard).map
      (fun p => (p.rootNodes, p.nodes ⟨0, 0⟩)) =
        .ok ([.sectionTag ⟨⟨⟨[['s']]⟩, false, ⟨6, 6⟩, .standard, ⟨0, 6⟩⟩, ⟨0, 0⟩⟩], []) := by
    decide +kernel
  obtain ⟨p, hcompile, hrun⟩ := exists_eq_ok_of_map_eq_ok hrun
  obtain ⟨hsection, hbody⟩ := Prod.mk.inj hrun
  have hendless (path : Path) : endless.EndlessAt () path := fun _ _ => ⟨(), rfl⟩
  have hpartial : (endlessRenderer 2).partials tag.name = some p := by
    show (Template.compile _ _).toOption = _
    rw [hcompile]
    rfl
  have hinside : Unending ((endlessRenderer 2).renderNodes · ⟨p, [()], 2⟩ p.root) := by
    refine unending_renderNodes _ hsection ?_
    exact unending_renderSection _ (hendless _) rfl rfl fun n _ => neverFails_renderNodes _ hbody n
  refine unending_renderNodes _ hnodes ?_
  exact unending_renderPartial _ (Nat.le_refl 2) hinside hpartial

/-- The partial is too deep for the one limit and not for the other, and with that one it is
rendered for ever; so the failure that came first is not returned. -/
theorem not_returns_withDepth_endless :
    ∃ t, Template.compile "{{&l}}".toList .standard = .ok t ∧
      ∃ result, (endlessRenderer 1).Returns t () () .empty result ∧
        outcome result = .error (.failed (.lambda ⟨.unclosedTag ['}', '}'], ⟨0, 2⟩⟩)) ∧
        ∀ result', ¬ (endlessRenderer 2).Returns t () () .empty result' := by
  have hrun : (Template.compile "{{&l}}".toList .standard).map
      (fun t => (t.rootNodes, outcome ((endlessRenderer 1).render 9 t () (.start () .empty)))) =
        .ok ([.variableTag ⟨⟨[['l']]⟩, false, ⟨0, 6⟩⟩],
          .error (.failed (.lambda ⟨.unclosedTag ['}', '}'], ⟨0, 2⟩⟩))) := by
    decide +kernel
  have htext : (Template.compile "{{>p}}".toList .standard).map Template.rootNodes =
      .ok [.partialTag ⟨['p'], [], ⟨0, 6⟩⟩] := by
    decide +kernel
  obtain ⟨t, hcompile, hrun⟩ := exists_eq_ok_of_map_eq_ok hrun
  obtain ⟨hnodes, hend⟩ := Prod.mk.inj hrun
  obtain ⟨inner, hinner, hpartial⟩ := exists_eq_ok_of_map_eq_ok htext
  have hreject : Template.compile ['{', '{'] .standard =
      .error ⟨.unclosedTag ['}', '}'], ⟨0, 2⟩⟩ := by
    decide +kernel
  have hdepth : 0 + 1 ≤ (endlessRenderer 2).options.maxDepth := Nat.le_succ 1
  have hlambda : Unending fun n => (endlessRenderer 2).expandLambda
      ((endlessRenderer 2).renderNodes n) ⟨t, [()], 0⟩ () ⟨[['l']]⟩ (.overVariable false) := by
    apply unending_expandLambda
    intro host
    apply unending_attend_reject _ hdepth hreject
    intro failure host
    apply unending_attend_render
    exact unending_renderLambdaText _ hdepth (unending_partial_endless hpartial) rfl hinner
  have hunending : Unending fun fuel => (endlessRenderer 2).render fuel t () := by
    apply unending_render
    refine unending_renderNodes _ hnodes ?_
    exact unending_writeValue _ (fun s => ⟨_, rfl⟩) hlambda []
  refine ⟨t, hcompile, _, (endlessRenderer 1).returns_render ?_, hend,
    fun result' => hunending.not_concludes (.start () .empty) result'⟩
  rw [hend]
  simp

end Renderer

end Mustache
