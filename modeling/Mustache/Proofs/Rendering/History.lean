import Mustache.Proofs.Rendering.Steps

/-!
# The history of a rendering

An action only adds to the history. What it adds tells how it ends: with the first failure among
the events, or well if there is none. And it tells whether the sink has been left alone since. Both
are known of a sequence of actions once they are known of each of them.
-/

namespace Mustache

variable {F σ τ ε α β : Type}

/-! ### Failures among events -/

/-- A query as an error shows it: the first element goes by the path alone. -/
def Query.reported (q : Query) : Query :=
  if q.index = some 0 then { q with index := none } else q

lemma Query.display_reported_element_zero (path : Path) :
    (Query.element path 0).reported.display = path.display := by
  rw [← Query.display_whole path]
  rfl

lemma Query.reported_element_of_ne_zero {path : Path} {index : Nat} (h : index ≠ 0) :
    (Query.element path index).reported = .element path index := by
  rw [Query.reported, if_neg]
  simpa [Query.element] using h

namespace Event

/-- The error that a rendering ends with if this is the first failure in it. -/
def failure? : Event F → Option RenderError
  | got _ query (.error e)         => some (.interpolation query.reported.display e)
  | interpolated _ path (.error e) => some (.interpolation path.display e)
  | expanded _ path (.error e)     => some (.interpolation path.display e)
  | refused e                      => some (.write e)
  | flushed (.error e)             => some (.write e)
  | rejected e                     => some (.lambda e)
  | tooDeep limit name             => some (.recursionLimit limit name)
  | _                              => none

/-- Whether the sink was asked for something. -/
def asksSink : Event F → Bool
  | wrote _   => true
  | refused _ => true
  | flushed _ => true
  | _         => false

end Event

/-- The error of the first failure among events. -/
def firstFailure (events : List (Event F)) : Option RenderError :=
  events.findSome? Event.failure?

/-- How a rendering with this history ends. -/
def verdict (events : List (Event F)) : Except Halt Unit :=
  match firstFailure events with
  | none       => .ok ()
  | some error => .error (.failed error)

/-- After the first failure the sink is asked for nothing. -/
def Quiet : List (Event F) → Prop
  | []          => True
  | e :: events =>
    if e.failure?.isSome then ∀ later ∈ events, later.asksSink = false else Quiet events

/-- What comes after the first failure is looked through event by event. -/
instance decidableQuiet : (events : List (Event F)) → Decidable (Quiet events)
  | []          => isTrue trivial
  | e :: events =>
    if h : e.failure?.isSome then
      decidable_of_iff (∀ later ∈ events, later.asksSink = false) (by rw [Quiet, if_pos h])
    else
      have := decidableQuiet events
      decidable_of_iff (Quiet events) (by rw [Quiet, if_neg h])

@[simp] lemma firstFailure_nil : firstFailure ([] : List (Event F)) = none := rfl

@[simp] lemma firstFailure_cons (e : Event F) (events : List (Event F)) :
    firstFailure (e :: events) = (e.failure?).or (firstFailure events) := by
  rw [firstFailure, List.findSome?_cons]
  cases e.failure? <;> rfl

@[simp] lemma firstFailure_append (events later : List (Event F)) :
    firstFailure (events ++ later) = (firstFailure events).or (firstFailure later) := by
  rw [firstFailure, List.findSome?_append]
  rfl

lemma Quiet.append_of_none {events later : List (Event F)} (h : firstFailure events = none)
    (hlater : Quiet later) : Quiet (events ++ later) := by
  induction events with
  | nil => exact hlater
  | cons e events ih =>
    rw [firstFailure_cons, Option.or_eq_none_iff] at h
    rw [List.cons_append, Quiet, if_neg (by simp [h.1])]
    exact ih h.2

lemma quiet_of_asksSink_eq_false {events : List (Event F)}
    (h : ∀ e ∈ events, e.asksSink = false) : Quiet events := by
  induction events with
  | nil => trivial
  | cons e events ih =>
    have hlater : ∀ later ∈ events, later.asksSink = false := fun later hlater =>
      h later (List.mem_cons_of_mem e hlater)
    rw [Quiet]
    split
    · exact hlater
    · exact ih hlater

lemma Quiet.append_of_asksSink_eq_false {events later : List (Event F)} (h : Quiet events)
    (hlater : ∀ e ∈ later, e.asksSink = false) : Quiet (events ++ later) := by
  induction events with
  | nil => exact quiet_of_asksSink_eq_false hlater
  | cons e events ih =>
    rw [Quiet] at h
    rw [List.cons_append, Quiet]
    split
    · next he =>
      rw [if_pos he] at h
      intro e' he'
      rcases List.mem_append.1 he' with he' | he'
      · exact h e' he'
      · exact hlater e' he'
    · next he =>
      rw [if_neg he] at h
      exact ih h

example : Quiet [.wrote ['x'], (.refused ⟨.full, []⟩ : Event Unit), .left] := by decide

example : ¬ Quiet [(.refused ⟨.full, []⟩ : Event Unit), .wrote ['x']] := by decide

/-! ### What has been written -/

/-- The text that the sink took at an event. -/
def Event.written? : Event F → Option Text
  | wrote text => some text
  | _          => none

/-- What the sink has taken, write by write. -/
def writes (events : List (Event F)) : List Text := events.filterMap Event.written?

@[simp] lemma writes_append (events later : List (Event F)) :
    writes (events ++ later) = writes events ++ writes later := List.filterMap_append

lemma writes_eq_nil {events : List (Event F)} (h : ∀ e ∈ events, e.asksSink = false) :
    writes events = [] := by
  rw [writes, List.filterMap_eq_nil_iff]
  intro e he
  have hasks := h e he
  cases e with
  | wrote text => simp [Event.asksSink] at hasks
  | _ => rfl

/-! ### The state and its events -/

namespace RenderState

@[simp] lemma events_record (s : RenderState F σ τ) (e : Event F) :
    (s.record e).events = s.events ++ [e] := by
  simp [events, record]

end RenderState

/-- From the one state to the other, things have happened, but the sink was asked for nothing. -/
structure SparesSink (s s' : RenderState F σ τ) : Prop where
  sink_eq : s'.sink = s.sink
  exists_events_eq : ∃ new, s'.events = s.events ++ new ∧ ∀ e ∈ new, e.asksSink = false

namespace SparesSink

variable {s s₁ s₂ : RenderState F σ τ}

lemma of_events_eq (hsink : s₁.sink = s.sink) (hevents : s₁.events = s.events) :
    SparesSink s s₁ :=
  ⟨hsink, [], hevents.trans (List.append_nil _).symm, by simp⟩

lemma record (s : RenderState F σ τ) {e : Event F} (h : e.asksSink = false) :
    SparesSink s (s.record e) :=
  ⟨rfl, [e], RenderState.events_record s e, by simp [h]⟩

lemma exists_events (h : SparesSink s s₁) : ∃ new, s₁.events = s.events ++ new := by
  obtain ⟨-, new, hevents, -⟩ := h
  exact ⟨new, hevents⟩

lemma trans (h : SparesSink s s₁) (h₁ : SparesSink s₁ s₂) : SparesSink s s₂ := by
  obtain ⟨hsink, new, hevents, hasks⟩ := h
  obtain ⟨hsink₁, more, hevents₁, hasks₁⟩ := h₁
  refine ⟨hsink₁.trans hsink, new ++ more, ?_, ?_⟩
  · rw [hevents₁, hevents, List.append_assoc]
  · intro e he
    rcases List.mem_append.1 he with he | he
    · exact hasks e he
    · exact hasks₁ e he

end SparesSink

/-- Whatever the state, the action only adds to the history. -/
def Grows (act : EStateM ε (RenderState F σ τ) α) : Prop :=
  ∀ s, ∃ new, (reached (act s)).events = s.events ++ new

namespace Grows

variable {act : EStateM ε (RenderState F σ τ) α} {next : α → EStateM ε (RenderState F σ τ) β}

lemma exists_events (h : Grows act) {s s₁ : RenderState F σ τ} {a : α} (hact : act s = .ok a s₁) :
    ∃ new, s₁.events = s.events ++ new := by
  obtain ⟨new, hnew⟩ := h s
  rw [hact] at hnew
  exact ⟨new, hnew⟩

/-- What follows an action adds to what the action has added. -/
lemma exists_events_bind (hnext : ∀ a, Grows (next a)) (s : RenderState F σ τ) :
    ∃ new, (reached ((act >>= next) s)).events = (reached (act s)).events ++ new := by
  cases hact : act s with
  | ok a s' =>
    rw [bind_apply_of_ok hact]
    exact hnext a s'
  | error e s' =>
    rw [bind_apply_of_error hact]
    exact ⟨[], (List.append_nil _).symm⟩

lemma bind (h : Grows act) (hnext : ∀ a, Grows (next a)) : Grows (act >>= next) := by
  intro s
  obtain ⟨new, hnew⟩ := h s
  obtain ⟨more, hmore⟩ := exists_events_bind hnext s
  exact ⟨new ++ more, by rw [hmore, hnew, List.append_assoc]⟩

lemma ofWrite {act : WriteM F σ τ α} (h : Grows act) : Grows (RenderM.ofWrite act) := by
  intro s
  rw [RenderM.reached_ofWrite]
  exact h s

/-- What happens around the action is added as well. -/
lemma bracket {enter : RenderState F σ τ → RenderState F σ τ} {value : α → RenderState F σ τ → β}
    {leave : RenderState F σ τ → RenderState F σ τ → RenderState F σ τ} (h : Grows act)
    (henter : ∀ s, ∃ new, (enter s).events = s.events ++ new)
    (hleave : ∀ s s', ∃ new, (leave s s').events = s'.events ++ new) :
    Grows (bracket enter value leave act) := by
  intro s
  obtain ⟨before, hbefore⟩ := henter s
  obtain ⟨new, hnew⟩ := h (enter s)
  obtain ⟨after, hafter⟩ := hleave s (reached (act (enter s)))
  refine ⟨before ++ (new ++ after), ?_⟩
  rw [reached_bracket, hafter, hnew, hbefore]
  simp only [List.append_assoc]

end Grows

/-- Whatever the state, the action only adds to the history; if it is done, what it adds holds no
failure, and if it fails, the first failure there is its error. If `quiet`, the sink is left alone
from then on. -/
def Logs (quiet : Prop) (halt : ε → Halt) (act : EStateM ε (RenderState F σ τ) α) : Prop :=
  ∀ s, ∃ new, (reached (act s)).events = s.events ++ new ∧ (quiet → Quiet new) ∧
    match outcome (act s) with
    | .ok _    => firstFailure new = none
    | .error e => ∀ error, halt e = .failed error → firstFailure new = some error

/-- The refusal of a write, as it ends a rendering. -/
def refusal (e : SinkError) : Halt := .failed (.write e)

namespace Logs

variable {quiet : Prop} {halt : ε → Halt} {act : EStateM ε (RenderState F σ τ) α}

lemma grows (h : Logs quiet halt act) : Grows act := fun s =>
  have ⟨new, hevents, _⟩ := h s
  ⟨new, hevents⟩

lemma pure (a : α) : Logs quiet halt (pure a : EStateM ε (RenderState F σ τ) α) := by
  intro s
  exact ⟨[], (List.append_nil _).symm, fun _ => trivial, rfl⟩

lemma bind {next : α → EStateM ε (RenderState F σ τ) β} (h : Logs quiet halt act)
    (hnext : ∀ a, Logs quiet halt (next a)) : Logs quiet halt (act >>= next) := by
  intro s
  obtain ⟨new, hevents, hquiet, hend⟩ := h s
  cases hact : act s with
  | error e s' =>
    rw [hact] at hevents hend
    rw [bind_apply_of_error hact]
    exact ⟨new, hevents, hquiet, hend⟩
  | ok a s' =>
    rw [hact] at hevents hend
    rw [bind_apply_of_ok hact]
    obtain ⟨more, hmore, hquiet', hend'⟩ := hnext a s'
    have hnone : firstFailure new = none := hend
    refine ⟨new ++ more, ?_, fun hq => .append_of_none hnone (hquiet' hq), ?_⟩
    · rw [hmore, ← List.append_assoc]
      exact congrArg (· ++ more) hevents
    · rw [firstFailure_append, hnone]
      exact hend'

/-- The state may be read first. -/
lemma get_bind {next : RenderState F σ τ → EStateM ε (RenderState F σ τ) α}
    (h : ∀ s, Logs quiet halt (next s)) : Logs quiet halt (get >>= next) := fun s => h s s

/-- An event that is no failure. -/
lemma modify_record {e : RenderState F σ τ → Event F} (h : ∀ s, (e s).failure? = none) :
    Logs quiet halt (modify fun s => s.record (e s) : EStateM ε (RenderState F σ τ) PUnit) := by
  intro s
  refine ⟨[e s], RenderState.events_record s (e s), fun _ => ?_, ?_⟩
  · simp [Quiet, h s]
  · show firstFailure [e s] = none
    simp [h s]

/-- A change of the state that leaves the history alone. -/
lemma modify {f : RenderState F σ τ → RenderState F σ τ} (h : ∀ s, (f s).events = s.events) :
    Logs quiet halt (modify f : EStateM ε (RenderState F σ τ) PUnit) := by
  intro s
  exact ⟨[], (h s).trans (List.append_nil _).symm, fun _ => trivial, rfl⟩

lemma forM {γ : Type} {step : γ → EStateM ε (RenderState F σ τ) PUnit} {xs : List γ}
    (h : ∀ x ∈ xs, Logs quiet halt (step x)) : Logs quiet halt (xs.forM step) := by
  induction xs with
  | nil => exact pure _
  | cons x xs ih =>
    exact (h x List.mem_cons_self).bind fun _ => ih fun y hy => h y (List.mem_cons_of_mem x hy)

/-- Events around the action that are no failures, and after which the sink is left alone. -/
lemma bracket {enter : RenderState F σ τ → RenderState F σ τ} {value : α → RenderState F σ τ → β}
    {leave : RenderState F σ τ → RenderState F σ τ → RenderState F σ τ} (h : Logs quiet halt act)
    (before after : List (Event F)) (hbefore : firstFailure before = none)
    (hafter : firstFailure after = none) (hasks : ∀ e ∈ after, e.asksSink = false)
    (henter : ∀ s, (enter s).events = s.events ++ before)
    (hleave : ∀ s s', (leave s s').events = s'.events ++ after) :
    Logs quiet halt (bracket enter value leave act) := by
  intro s
  obtain ⟨new, hevents, hquiet, hend⟩ := h (enter s)
  have hfirst : firstFailure (before ++ (new ++ after)) = firstFailure new := by
    simp [hbefore, hafter]
  have hquiet' : quiet → Quiet (before ++ (new ++ after)) := fun hq =>
    .append_of_none hbefore ((hquiet hq).append_of_asksSink_eq_false hasks)
  have hleft : (leave s (reached (act (enter s)))).events =
      s.events ++ (before ++ (new ++ after)) := by
    simp only [hleave, hevents, henter, List.append_assoc]
  rw [Mustache.bracket]
  cases hact : act (enter s) with
  | ok a s' =>
    rw [hact] at hleft hend
    exact ⟨_, hleft, hquiet', hfirst.trans hend⟩
  | error e s' =>
    rw [hact] at hleft hend
    exact ⟨_, hleft, hquiet', fun error he => hfirst.trans (hend error he)⟩

lemma ofWrite {act : WriteM F σ τ α} (h : Logs quiet refusal act) :
    Logs quiet id (RenderM.ofWrite act) := by
  intro s
  obtain ⟨new, hevents, hquiet, hend⟩ := h s
  cases hact : act s with
  | error e s' =>
    rw [hact] at hevents hend
    rw [RenderM.ofWrite_of_error hact]
    exact ⟨new, hevents, hquiet, hend⟩
  | ok a s' =>
    rw [hact] at hevents hend
    rw [RenderM.ofWrite_of_ok hact]
    exact ⟨new, hevents, hquiet, hend⟩

end Logs

/-! ### Writing -/

namespace Sink

variable (sink : Sink τ) {quiet : Prop}

/-- A write is the one thing that the sink is asked for; if it refuses, that is the failure. -/
lemma logs_put (text : Text) : Logs quiet refusal (sink.put text : WriteM F σ τ Unit) := by
  intro s
  rw [put]
  cases s.output.scratch with
  | some kept => exact ⟨[], (List.append_nil _).symm, fun _ => trivial, rfl⟩
  | none =>
    cases hwrite : sink.write text.bytes s.sink with
    | mk result after =>
      cases result with
      | ok _ =>
        refine ⟨[.wrote text], RenderState.events_record _ _, fun _ => ?_, rfl⟩
        simp [Quiet, Event.failure?]
      | error e =>
        refine ⟨[.refused e], RenderState.events_record _ _, fun _ => ?_, ?_⟩
        · simp [Quiet, Event.failure?]
        · simp [Event.failure?, refusal]

lemma logs_endText (text : Text) : Logs quiet refusal (endText text : WriteM F σ τ Unit) :=
  .modify fun _ => rfl

lemma logs_noteOutput : Logs quiet refusal (noteOutput : WriteM F σ τ Unit) :=
  .modify_record fun _ => rfl

lemma logs_emit (text : Text) : Logs quiet refusal (sink.emit text : WriteM F σ τ Unit) :=
  (sink.logs_put text).bind fun _ => logs_endText text

lemma logs_emitEscaped (text : Text) :
    Logs quiet refusal (sink.emitEscaped text : WriteM F σ τ Unit) := by
  refine .bind (.forM ?_) fun _ => logs_endText text
  intro piece _
  exact sink.logs_put piece

lemma logs_indent : Logs quiet refusal (sink.indent : WriteM F σ τ Unit) := by
  refine .get_bind ?_
  intro s
  dsimp only
  split
  · exact sink.logs_put s.output.indent
  · exact .pure _

/-- Before literal text is written, it is noted where the output stands. -/
lemma exists_writeText_eq (text : Text) :
    ∃ rest, (sink.writeText text : WriteM F σ τ Unit) = noteOutput >>= rest ∧
      ∀ u, Logs quiet refusal (rest u) := by
  refine ⟨_, rfl, fun _ => ?_⟩
  split
  · exact .pure _
  · refine .get_bind ?_
    intro s
    split
    · exact sink.logs_emit text
    · refine .forM ?_
      intro line _
      exact sink.logs_indent.bind fun _ => sink.logs_emit line

lemma logs_writeText (text : Text) :
    Logs quiet refusal (sink.writeText text : WriteM F σ τ Unit) := by
  obtain ⟨rest, hwrite, hrest⟩ := sink.exists_writeText_eq text
  rw [hwrite]
  exact logs_noteOutput.bind hrest

/-- And so before data is written. -/
lemma exists_writeData_eq (text : Text) (escaped : Bool) :
    ∃ rest, (sink.writeData text escaped : WriteM F σ τ Unit) = noteOutput >>= rest ∧
      ∀ u, Logs quiet refusal (rest u) := by
  refine ⟨_, rfl, fun _ => ?_⟩
  split
  · exact .pure _
  · refine sink.logs_indent.bind fun _ => ?_
    cases escaped with
    | true => exact sink.logs_emitEscaped text
    | false => exact sink.logs_emit text

lemma logs_writeData (text : Text) (escaped : Bool) :
    Logs quiet refusal (sink.writeData text escaped : WriteM F σ τ Unit) := by
  obtain ⟨rest, hwrite, hrest⟩ := sink.exists_writeData_eq text escaped
  rw [hwrite]
  exact logs_noteOutput.bind hrest

lemma logs_finish : Logs quiet refusal (sink.finish : WriteM F σ τ Unit) := by
  intro s
  rw [finish]
  cases hflush : sink.flush s.sink with
  | mk result after =>
    cases result with
    | ok _ =>
      refine ⟨[.flushed (.ok ())], RenderState.events_record _ _, fun _ => ?_, rfl⟩
      simp [Quiet, Event.failure?]
    | error e =>
      refine ⟨[.flushed (.error e)], RenderState.events_record _ _, fun _ => ?_, ?_⟩
      · simp [Quiet, Event.failure?]
      · simp [Event.failure?, refusal]

end Sink

end Mustache
