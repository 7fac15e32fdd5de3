import Mustache.Proofs.Rendering.Aside

/-!
# Escaping what lambdas write

What a lambda has rendered for an escaped tag is rendered aside, on an output of its own, and then
written as data; for a raw tag it is rendered in place. Where nothing is written under indentation,
the one is the other, escaped. Under indentation it is not: aside there is none, so only the first
line gets the indentation around the tag.
-/

namespace Mustache

variable {F σ τ : Type}

/-! ### The two tags -/

/-- From two states of one host, the one rendering has received this text, escaped, and the other as
it is. -/
structure Escaped (text : Text) (s s' s₁ s₁' : RenderState F σ τ) : Prop where
  host_eq : s₁'.host = s₁.host
  received : Received (escapeHtml text) s s₁
  received' : Received text s' s₁'

/-- As `Escaped`, if in the second rendering nothing was written under indentation. -/
def EscapedOrIndented (s s' s₁ s₁' : RenderState F σ τ) : Prop :=
  IndentedSince s' s₁' ∨ ∃ text, Escaped text s s' s₁ s₁'

namespace EscapedOrIndented

variable {s s' s₁ s₁' s₂ s₂' : RenderState F σ τ}

lemma trans (h : EscapedOrIndented s s' s₁ s₁') (hnew : ∃ new, s₁'.events = s'.events ++ new)
    (hmore : ∃ more, s₂'.events = s₁'.events ++ more) (hindent : s'.output.indent = s.output.indent)
    (hrest : s₁'.host = s₁.host → s₁'.output.indent = s₁.output.indent →
      EscapedOrIndented s₁ s₁' s₂ s₂') : EscapedOrIndented s s' s₂ s₂' := by
  obtain ⟨new, hnew⟩ := hnew
  obtain ⟨more, hmore⟩ := hmore
  rcases h with hindented | ⟨text, hhost, hreceived, hreceived'⟩
  · exact .inl (hindented.grow hmore)
  · have hindent₁ : s₁'.output.indent = s₁.output.indent := by
      rw [hreceived'.indent_eq, hindent, hreceived.indent_eq]
    rcases hrest hhost hindent₁ with hindented | ⟨text', hhost₂, hmore, hmore'⟩
    · exact .inl (hindented.since hnew)
    · refine .inr ⟨text ++ text', hhost₂, ?_, hreceived'.trans hmore'⟩
      rw [escapeHtml_append]
      exact hreceived.trans hmore

/-- The states of the hosts in front do not matter. -/
lemma of_host {host host' : σ}
    (h : EscapedOrIndented { s with host := host } { s' with host := host' } s₁ s₁') :
    EscapedOrIndented s s' s₁ s₁' := by
  refine h.imp (fun hindented => hindented) ?_
  rintro ⟨text, hhost, hreceived, hreceived'⟩
  exact ⟨text, hhost, ⟨hreceived.indent_eq, hreceived.scratch_eq, hreceived.writes_eq⟩,
    ⟨hreceived'.indent_eq, hreceived'.scratch_eq, hreceived'.writes_eq⟩⟩

end EscapedOrIndented

namespace Sink

variable (sink : Sink τ) {s s' s₁ s₁' : RenderState F σ τ}

lemma escapedOrIndented_writeData {text : Text} (hhost : s'.host = s.host)
    (hindent : s'.output.indent = s.output.indent) (hok : sink.writeData text true s = .ok () s₁)
    (hok' : sink.writeData text false s' = .ok () s₁') : EscapedOrIndented s s' s₁ s₁' := by
  by_cases hnil : s'.output.indent = []
  · have htook := (sink.takes_writeData text true).took s s₁ (hindent ▸ hnil) hok
    have htook' := (sink.takes_writeData text false).took s' s₁' hnil hok'
    refine .inr ⟨text, ?_, htook.toReceived, htook'.toReceived⟩
    rw [htook'.host_eq, htook.host_eq, hhost]
  · obtain ⟨rest, hwrite, hrest⟩ : ∃ rest, (sink.writeData text false : WriteM F σ τ Unit) =
        noteOutput >>= rest ∧ ∀ u, Logs False refusal (rest u) :=
      sink.exists_writeData_eq text false
    rw [hwrite] at hok'
    exact .inl (.of_noteOutput (fun u => (hrest u).grows) hnil hok')

end Sink

namespace Renderer

variable (r : Renderer F σ τ) {below : Nested F σ τ}

/-- What has been rendered aside is written as data. -/
lemma escaped_onAside {base text : Text} {s s' s₁ s₂ s₁' : RenderState F σ τ}
    (hindent : s'.output.indent = s.output.indent) (hbase : base = s'.output.indent)
    (hechoed : Echoed base text { s with output := .aside } s' s₁ s₁')
    (hok : r.sink.writeData (readScratch s₁.output) true { s₁ with output := s.output } =
      .ok () s₂) : Escaped text s s' s₂ s₁' := by
  obtain ⟨hapart, hreceived, hreceived', hempty⟩ := hechoed
  have hread : readScratch s₁.output = text := by
    rw [readScratch, hreceived.scratch_eq]
    simp [Output.aside, Text.ofBytes?_bytes]
  have haside : Received [] s { s₁ with output := s.output } :=
    .nil rfl (hreceived.writes_eq.trans (List.append_nil _))
  rw [hread] at hok
  by_cases htext : text = []
  · subst htext
    cases hok
    exact ⟨hapart.host_eq, haside.trans (.record _ rfl), hreceived'⟩
  · have hnil : s.output.indent = [] := by
      rw [← hindent, ← hbase]
      exact hempty htext
    have htook :=
      (r.sink.takes_writeData text true).took { s₁ with output := s.output } s₂ hnil hok
    exact ⟨hapart.host_eq.trans htook.host_eq.symm, haside.trans htook.toReceived, hreceived'⟩

section

variable (hbelow : ∀ here range, Echoes (below here range))

include hbelow

lemma escapedOrIndented_renderLambdaText {here : Setting F} {text : Text}
    {s s' s₁ s₁' : RenderState F σ τ} (hhost : s'.host = s.host)
    (hindent : s'.output.indent = s.output.indent)
    (hok : r.renderLambdaText below here (.overVariable true) text s = .ok () s₁)
    (hok' : r.renderLambdaText below here (.overVariable false) text s' = .ok () s₁') :
    EscapedOrIndented s s' s₁ s₁' := by
  rw [renderLambdaText] at hok hok'
  rcases Nat.lt_or_ge r.options.maxDepth (here.depth + 1) with hlt | hle
  · rw [r.checkDepth_bind_of_lt hlt] at hok
    cases hok
  rw [r.checkDepth_bind_of_le hle] at hok hok'
  cases hcompile : Template.compile text .standard with
  | error e =>
    simp only [LambdaTag.delimiters, hcompile] at hok
    cases hok
  | ok template =>
    simp only [LambdaTag.delimiters, LambdaTag.escapes, hcompile, if_true] at hok
    simp only [LambdaTag.delimiters, LambdaTag.escapes, hcompile, Bool.false_eq_true, if_false]
      at hok'
    have hechoes : Echoes (enclosed LambdaTag.lambdaName []
        (below (here.nested template) template.root)) := echoes_enclosed (hbelow _ _) _ _
    have hapart : Apart s'.output.indent { s with output := .aside } s' :=
      ⟨hhost, (List.append_nil _).symm, rfl⟩
    refine (hechoes.followed _ _ _ hapart () s₁' hok').imp_right ?_
    rintro ⟨s₂, rendered, haside, hechoed⟩
    have honAside : onAside (enclosed LambdaTag.lambdaName []
        (below (here.nested template) template.root)) s =
          .ok (readScratch s₂.output) { s₂ with output := s.output } := by
      rw [onAside, haside]
    rw [bind_apply_of_ok honAside] at hok
    cases hwrite : r.sink.writeData (readScratch s₂.output) true { s₂ with output := s.output } with
    | error e s₃ =>
      rw [RenderM.ofWrite_of_error hwrite] at hok
      cases hok
    | ok u s₃ =>
      rw [RenderM.ofWrite_of_ok hwrite] at hok
      cases hok
      exact ⟨rendered, r.escaped_onAside hindent rfl hechoed hwrite⟩

variable (hlogs : ∀ here range, Logs False id (below here range))

include hlogs

/-- Both tags carry out the same calls of the lambda. -/
lemma escapedOrIndented_attend {here : Setting F} (call : Expansion σ)
    {s s' s₁ s₁' : RenderState F σ τ} {result result' : HostResult} (hhost : s'.host = s.host)
    (hindent : s'.output.indent = s.output.indent)
    (hok : r.attend below here (.overVariable true) none call s = .ok (none, result) s₁)
    (hok' : r.attend below here (.overVariable false) none call s' = .ok (none, result') s₁') :
    EscapedOrIndented s s' s₁ s₁' := by
  have hgrows := r.grows_attend hlogs here (.overVariable false) none
  induction call generalizing s s' with
  | answer answer host =>
    cases hok
    cases hok'
    exact .inr ⟨[], rfl, .nil rfl rfl, .nil rfl rfl⟩
  | remark remark next ih =>
    have hrest : r.attend below here (.overVariable false) none next
        (s'.record (.remarked remark)) = .ok (none, result') s₁' := hok'
    have hmore := (hgrows next).exists_events hrest
    have hremarked : EscapedOrIndented s s' (s.record (.remarked remark))
        (s'.record (.remarked remark)) := .inr ⟨[], hhost, .record s rfl, .record s' rfl⟩
    exact hremarked.trans ⟨_, RenderState.events_record _ _⟩ hmore hindent fun hhost₁ hindent₁ =>
      ih hhost₁ hindent₁ hok hrest
  | write text next ih =>
    obtain ⟨s₂, hwrite, hok⟩ := r.exists_of_attend_write hlogs hok
    obtain ⟨s₂', hwrite', hok'⟩ := r.exists_of_attend_write hlogs hok'
    have hnew := (r.sink.echoes_writeData text false).grows.exists_events hwrite'
    have hmore := (hgrows (next true)).exists_events hok'
    exact (r.sink.escapedOrIndented_writeData hhost hindent hwrite hwrite').trans hnew hmore hindent
      fun hhost₁ hindent₁ => ih true hhost₁ hindent₁ hok hok'
  | render text host next ih =>
    obtain ⟨s₂, hrender, hok⟩ := r.exists_of_attend_render hlogs hok
    obtain ⟨s₂', hrender', hok'⟩ := r.exists_of_attend_render hlogs hok'
    have hechoes := r.echoes_renderLambdaText hbelow here (.overVariable false) text
    have hnew := hechoes.grows.exists_events hrender'
    have hmore := (hgrows (next true s₂'.host)).exists_events hok'
    have hrendered : EscapedOrIndented { s with host } { s' with host } s₂ s₂' :=
      r.escapedOrIndented_renderLambdaText hbelow rfl hindent hrender hrender'
    refine hrendered.of_host.trans hnew hmore hindent fun hhost₁ hindent₁ => ?_
    rw [← hhost₁] at hok
    exact ih true s₂'.host hhost₁ hindent₁ hok hok'

end

end Renderer

/-! ### Whole tags -/

/-- Asked for the value of a path, the host writes nothing and answers this, whether the value is to
be escaped or not. -/
def Host.Answers (host : Host F σ) (frame : F) (path : Path) (answer : Resolution) : Prop :=
  ∀ s, ∃ s', ∀ escaped, host.interpolate frame path escaped s = .answer (.ok answer) s'

/-- The first of the frames that knows the path has a lambda there. -/
inductive Host.FindsLambda (host : Host F σ) (path : Path) : List F → Prop
  | here {frame : F} {frames : List F} (h : host.Answers frame path .lambda) :
      FindsLambda host path (frame :: frames)
  | outside {frame : F} {frames : List F} (h : host.Answers frame path .notFound)
      (hframes : FindsLambda host path frames) : FindsLambda host path (frame :: frames)

/-- Since a state, a lambda has been expanded, and until it was done nothing has failed. What the
host answered in the end does not matter. -/
def CallsSucceed (s : RenderState F σ τ)
    (result : EStateM.Result Halt (RenderState F σ τ) Unit) : Prop :=
  outcome result ≠ .error .unfinished ∧ ∃ new done,
    (reached result).events = s.events ++ (new ++ [done]) ∧ firstFailure new = none

lemma callsSucceed_of_events {s : RenderState F σ τ}
    {result : EStateM.Result Halt (RenderState F σ τ) Unit} (hs : s.events = [])
    (hends : outcome result ≠ .error .unfinished) (hne : (reached result).events ≠ [])
    (hnone : firstFailure (reached result).events = none) : CallsSucceed s result := by
  have hlast := List.dropLast_concat_getLast hne
  refine ⟨hends, _, _, by rw [hs, hlast, List.nil_append], ?_⟩
  rw [← hlast, firstFailure_append, Option.or_eq_none_iff] at hnone
  exact hnone.1

namespace Renderer

variable (r : Renderer F σ τ)

lemma interpolate_of_answers {frame : F} {path : Path} {answer : Resolution}
    (h : r.host.Answers frame path answer) (s : RenderState F σ τ) :
    ∃ s₁, Received [] s s₁ ∧ (∃ new, s₁.events = s.events ++ new) ∧
      ∀ escaped, r.interpolate frame path escaped s = .ok answer s₁ := by
  obtain ⟨host, hhost⟩ := h s.host
  refine ⟨{ s with host }.record (.interpolated frame path (.ok answer)),
    .nil rfl (congrArg List.flatten (RenderState.writes_record { s with host } rfl)),
    ⟨_, RenderState.events_record _ _⟩, fun escaped => ?_⟩
  have hserve : r.serve escaped none (r.host.interpolate frame path escaped s.host) s =
      .ok (none, .ok answer) { s with host } := by
    rw [hhost escaped]
    rfl
  rw [interpolate_eq_settle]
  show (r.serve escaped none (r.host.interpolate frame path escaped s.host) >>= _) s = _
  rw [bind_apply_of_ok hserve]
  rfl

/-- Both tags come to expand the lambda from the same state. -/
lemma exists_writeValue_eq (below : Nested F σ τ) (here : Setting F) {path : Path}
    {frames : List F} (h : r.host.FindsLambda path frames) (s : RenderState F σ τ) :
    ∃ frame s₁, Received [] s s₁ ∧ (∃ new, s₁.events = s.events ++ new) ∧
      ∀ escaped, r.writeValue below here path escaped frames s =
        r.expandLambda below here frame path (.overVariable escaped) s₁ := by
  induction h generalizing s with
  | @here frame frames h =>
    obtain ⟨s₁, hreceived, hnew, hinterpolate⟩ := r.interpolate_of_answers h s
    refine ⟨frame, s₁, hreceived, hnew, fun escaped => ?_⟩
    rw [writeValue, bind_apply_of_ok (hinterpolate escaped)]
  | @outside frame frames h _ ih =>
    obtain ⟨s₁, hreceived, ⟨new, hnew⟩, hinterpolate⟩ := r.interpolate_of_answers h s
    obtain ⟨frame, s₂, hreceived₁, ⟨more, hmore⟩, hwrite⟩ := ih s₁
    refine ⟨frame, s₂, hreceived.trans hreceived₁, ⟨new ++ more, ?_⟩, fun escaped => ?_⟩
    · rw [hmore, hnew, List.append_assoc]
    · rw [writeValue, bind_apply_of_ok (hinterpolate escaped)]
      exact hwrite escaped

lemma reached_settle (path : Path) (done : HostResult → Event F)
    (answer : Option RenderError × HostResult) (s : RenderState F σ τ) :
    reached (settle id path done (fun _ => pure ()) answer s) = s.record (done answer.2) := by
  rcases answer with ⟨_ | e, _ | a⟩ <;> rfl

/-- If no call of a lambda has failed, no failure was kept while it was expanded. -/
lemma exists_attend_of_callsSucceed {below : Nested F σ τ}
    (hlogs : ∀ here range, Logs False id (below here range)) {here : Setting F} {frame : F}
    {path : Path} {tag : LambdaTag} {s s₁ : RenderState F σ τ}
    (hnew : ∃ new, s₁.events = s.events ++ new)
    (h : CallsSucceed s (r.expandLambda below here frame path tag s₁)) :
    ∃ answer s₂, r.attend below here tag none (r.host.expand frame path tag.view s₁.host)
        (s₁.record (.expanding frame path)) = .ok (none, answer) s₂ ∧
      reached (r.expandLambda below here frame path tag s₁) =
        s₂.record (.expanded frame path answer) := by
  obtain ⟨before, hbefore⟩ := hnew
  obtain ⟨hends, new, done, hevents, hfirst⟩ := h
  obtain ⟨more, hmore, -, hend⟩ := r.keeps_attend hlogs here tag none
    (r.host.expand frame path tag.view s₁.host) (fun h : False => h.elim)
    (s₁.record (.expanding frame path))
  have hexpand : r.expandLambda below here frame path tag s₁ =
      (r.attend below here tag none (r.host.expand frame path tag.view s₁.host) >>=
        settle id path (.expanded frame path) fun _ => pure ())
          (s₁.record (.expanding frame path)) := by
    rw [expandLambda_eq_settle]
    rfl
  rw [hexpand] at hends hevents ⊢
  cases hattend : r.attend below here tag none (r.host.expand frame path tag.view s₁.host)
      (s₁.record (.expanding frame path)) with
  | error e s₂ =>
    rw [hattend] at hend
    obtain rfl : e = .unfinished := hend
    rw [bind_apply_of_error hattend] at hends
    exact absurd rfl hends
  | ok answer s₂ =>
    obtain ⟨failure, answer⟩ := answer
    rw [hattend, reached_ok] at hmore
    rw [hattend] at hend
    rw [bind_apply_of_ok hattend, reached_settle] at hevents ⊢
    have hsame : s.events ++ (before ++ ([.expanding frame path] ++ more)) ++
        [.expanded frame path answer] = s.events ++ new ++ [done] := by
      rw [RenderState.events_record] at hevents
      rw [List.append_assoc s.events new, ← hevents, hmore, RenderState.events_record, hbefore]
      simp only [List.append_assoc]
    obtain rfl := List.append_cancel_left (List.append_inj' hsame rfl).1
    have hnone : firstFailure more = none := by
      simp only [firstFailure_append, Option.or_eq_none_iff] at hfirst
      exact hfirst.2.2
    have hkept : failure.map id = none := by
      simpa [hnone] using hend
    obtain rfl : failure = none := by simpa using hkept
    exact ⟨answer, s₂, rfl, rfl⟩

/-- If every call of a lambda succeeds under both tags, and nothing is written under indentation,
the tag that escapes has the output receive what the raw one does, escaped, and leaves the host as
the raw one does. Neither the position on the line matters nor what is around the tag. -/
theorem exists_received_renderVariable (hhtml : r.options.escaping = .html) (fuel : Nat)
    {here : Setting F} {tag : Variable} (hlambda : r.host.FindsLambda tag.path here.scope)
    {s : RenderState F σ τ} {raw escaped : EStateM.Result Halt (RenderState F σ τ) Unit}
    (hraw : r.renderVariable (r.renderNodes fuel) here { tag with escaped := false } s = raw)
    (hescaped : r.renderVariable (r.renderNodes fuel) here { tag with escaped := true } s = escaped)
    (hsucceed : CallsSucceed s raw) (hsucceed' : CallsSucceed s escaped)
    (hindented : ¬ IndentedSince s (reached raw)) :
    ∃ text, (reached raw).received = s.received ++ text.bytes ∧
      (reached escaped).received = s.received ++ (escapeHtml text).bytes ∧
      (reached escaped).host = (reached raw).host := by
  have hlogs : ∀ here range, Logs False id (r.renderNodes fuel here range) :=
    r.logs_renderNodes (fun h : False => h.elim) fuel
  obtain ⟨frame, s₁, hreceived, ⟨new, hnew⟩, hwrite⟩ :=
    r.exists_writeValue_eq (r.renderNodes fuel) here hlambda s
  rw [renderVariable, hhtml] at hraw hescaped
  simp only [Bool.false_and, Bool.true_and, decide_true, hwrite] at hraw hescaped
  subst hraw hescaped
  obtain ⟨answer, s₂', hattend', hreached'⟩ :=
    r.exists_attend_of_callsSucceed hlogs ⟨new, hnew⟩ hsucceed
  obtain ⟨answer', s₂, hattend, hreached⟩ :=
    r.exists_attend_of_callsSucceed hlogs ⟨new, hnew⟩ hsucceed'
  rw [hreached'] at hindented ⊢
  rw [hreached]
  have hboth : EscapedOrIndented (s₁.record (.expanding frame tag.path))
      (s₁.record (.expanding frame tag.path)) s₂ s₂' :=
    r.escapedOrIndented_attend (r.echoes_renderNodes fuel) hlogs _ rfl rfl hattend hattend'
  have hstart : Received [] s (s₁.record (.expanding frame tag.path)) :=
    hreceived.trans (.record s₁ rfl)
  rcases hboth with hsince | ⟨text, hhost, htext, htext'⟩
  · refine absurd ((hsince.since (RenderState.events_record _ _)).since hnew) fun h => ?_
    exact hindented (h.grow (RenderState.events_record _ _))
  · refine ⟨text, ?_, ?_, hhost.symm⟩
    · exact ((hstart.trans htext').trans (.record s₂' rfl)).received_eq.trans (by simp)
    · exact ((hstart.trans htext).trans (.record s₂ rfl)).received_eq.trans (by simp)

/-- Data with a lambda, which follows a script. -/
def calling (steps : List ExpandStep) : Value :=
  .map [(['l'], .lambda 0 ⟨steps, .ok .field⟩)]

/-- Renderings of served values, with one partial under every name. -/
def servedWith (source : Text) : Renderer Frame Calls ByteArray :=
  ⟨Served.host, .buffer, .standard, fun _ => (Template.compile source .standard).toOption⟩

/-- A lambda that writes a reserved character and has two lines rendered, the second a partial. -/
def reserved : Value := calling [.write ['<'], .render "&\n{{>p}}\n".toList]

/-- The state of a rendering that is in the middle of a line, and has written nothing yet. -/
def midLine : RenderState Frame Calls ByteArray :=
  { RenderState.start [] .empty with output := ⟨[], false, none⟩ }

/-- Renderings where every partial is a quotation mark. -/
def reservedRenderer : Renderer Frame Calls ByteArray := servedWith ['"']

/-- Within an element that does not know this lambda, of data that does. -/
def reservedHere (t : Template) : Setting Frame := ⟨t, [.root .null, .root reserved], 0⟩

/-- The raw tag for this lambda. -/
def reservedTag : Variable := ⟨⟨[['l']]⟩, false, ⟨0, 7⟩⟩

/-- One of the two tags for this lambda, in the middle of a line. -/
def reservedRun (escaped : Bool) (t : Template) :
    EStateM.Result Halt (RenderState Frame Calls ByteArray) Unit :=
  reservedRenderer.renderVariable (reservedRenderer.renderNodes 2) (reservedHere t)
    { reservedTag with escaped } midLine

lemma findsLambda_reserved (t : Template) :
    reservedRenderer.host.FindsLambda reservedTag.path (reservedHere t).scope :=
  .outside (fun s => ⟨s, fun _ => rfl⟩) (.here fun s => ⟨s, fun _ => rfl⟩)

/-- Both tags have the output receive three characters and a line feed. The lambda itself wrote the
first of them, the partial the last. -/
theorem exists_received_reservedRun :
    ∃ t, Template.compile "{{{l}}}".toList .standard = .ok t ∧
      reservedRenderer.host.FindsLambda reservedTag.path (reservedHere t).scope ∧
      CallsSucceed midLine (reservedRun false t) ∧ CallsSucceed midLine (reservedRun true t) ∧
      (writes (reached (reservedRun false t)).events).flatten = "<&\n\"".toList ∧
      ∃ text, (reached (reservedRun false t)).received = midLine.received ++ text.bytes ∧
        (reached (reservedRun true t)).received = midLine.received ++ (escapeHtml text).bytes ∧
        (reached (reservedRun true t)).host = (reached (reservedRun false t)).host := by
  have hrun : (Template.compile "{{{l}}}".toList .standard).map
      (fun t => ((reached (reservedRun false t)).events.all (·.indent = []),
        [false, true].map fun escaped => (decide (outcome (reservedRun escaped t) = .ok () ∧
            firstFailure (reached (reservedRun escaped t)).events = none),
          (writes (reached (reservedRun escaped t)).events).flatten))) =
      .ok (true, [(true, "<&\n\"".toList), (true, "&lt;&amp;\n&quot;".toList)]) := by
    decide +kernel
  obtain ⟨t, hcompile, hrun⟩ := exists_eq_ok_of_map_eq_ok hrun
  simp only [Prod.mk.injEq, List.map_cons, List.cons.injEq, decide_eq_true_eq] at hrun
  obtain ⟨hindent, ⟨⟨hraw, hnone⟩, hwrites⟩, ⟨⟨hescaped, hnone'⟩, hwrites'⟩, -⟩ := hrun
  have hsucceed : CallsSucceed midLine (reservedRun false t) :=
    callsSucceed_of_events rfl (by simp [hraw]) (fun h => by simp [h, writes] at hwrites) hnone
  have hsucceed' : CallsSucceed midLine (reservedRun true t) :=
    callsSucceed_of_events rfl (by simp [hescaped]) (fun h => by simp [h, writes] at hwrites')
      hnone'
  refine ⟨t, hcompile, findsLambda_reserved t, hsucceed, hsucceed', hwrites, ?_⟩
  have hindented : ¬ IndentedSince midLine (reached (reservedRun false t)) := by
    rintro ⟨new, hnew, e, hmem, hne⟩
    have hmem' : e ∈ (reached (reservedRun false t)).events := hnew ▸ hmem
    exact hne (by simpa using List.all_eq_true.1 hindent e hmem')
  exact exists_received_renderVariable reservedRenderer rfl 2 (findsLambda_reserved t) rfl rfl
    hsucceed hsucceed' hindented

/-- A template that is indented as a partial, with one of the two tags for a lambda that has two
lines rendered. -/
def twoLinesRun (tag : Text) (t : Template) :
    EStateM.Result Halt (RenderState Frame Calls ByteArray) Unit :=
  (servedWith tag).render 3 t (.root (calling [.render "a\nb".toList])) (.start [] .empty)

/-- Under indentation the tags do not agree: the one that escapes leaves the second line where it
is. -/
theorem exists_escaped_not_indented :
    ∃ t, Template.compile "  {{>p}}\n".toList .standard = .ok t ∧
      outcome (twoLinesRun "{{{l}}}".toList t) = .ok () ∧
      outcome (twoLinesRun "{{l}}".toList t) = .ok () ∧
      (writes (reached (twoLinesRun "{{{l}}}".toList t)).events).flatten = "  a\n  b".toList ∧
      escapeHtml "  a\n  b".toList = "  a\n  b".toList ∧
      (writes (reached (twoLinesRun "{{l}}".toList t)).events).flatten = "  a\nb".toList := by
  have hrun : (Template.compile "  {{>p}}\n".toList .standard).map
      (fun t => (outcome (twoLinesRun "{{{l}}}".toList t), outcome (twoLinesRun "{{l}}".toList t),
        (writes (reached (twoLinesRun "{{{l}}}".toList t)).events).flatten,
        (writes (reached (twoLinesRun "{{l}}".toList t)).events).flatten)) =
      .ok (.ok (), .ok (), "  a\n  b".toList, "  a\nb".toList) := by
    decide +kernel
  obtain ⟨t, hcompile, hrun⟩ := exists_eq_ok_of_map_eq_ok hrun
  simp only [Prod.mk.injEq] at hrun
  obtain ⟨hraw, hescaped, hwrites, hwrites'⟩ := hrun
  exact ⟨t, hcompile, hraw, hescaped, hwrites, by decide +kernel, hwrites'⟩

end Renderer

end Mustache
