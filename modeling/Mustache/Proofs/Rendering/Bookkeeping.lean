import Mustache.Proofs.Rendering.Escaping
import Mustache.Proofs.Rendering.Laying
import Mustache.Proofs.Rendering.Nesting

/-!
# Where the output stands

The output keeps its indentation and whether it stands at the start of a line. The history tells
both as well: the indentation is that of the partials being rendered, and a line starts where
nothing has been written or a line feed was written last. As long as no write is refused the output
stands where the history says, whenever a write begins, whatever failed before: partials take their
indentation away even if they stop in the middle, and a lambda may go on after that.
-/

namespace Mustache

open Text

variable {F σ τ ε α β : Type}

/-! ### What the history tells -/

/-- The indentations of what is being rendered after an event, innermost first. -/
def Event.indents : List Text → Event F → List Text
  | indents, entered _ indent => indent :: indents
  | indents, left             => indents.tail
  | indents, _                => indents

/-- The indentations of the partials that are being rendered after these events, innermost first.
The text of a lambda counts as a partial that is not indented. -/
def indents (events : List (Event F)) : List Text := events.foldl Event.indents []

/-- All of them put together, outermost first. -/
def indentation (events : List (Event F)) : Text := (indents events).reverse.flatten

/-- The sink has refused no write. -/
def NoneRefused (events : List (Event F)) : Prop := ∀ e, .refused e ∉ events

/-- The output stands where it should after these events. -/
structure Output.Follows (o : Output) (events : List (Event F)) : Prop where
  indent_eq : o.indent = indentation events
  atLineStart_eq : NoneRefused events →
    o.atLineStart = startsLineAfter true (writes events).flatten

/-- Where the output stood at an event, if something was about to be written then. -/
def Event.writing? : Event F → Option Output
  | .writing o => some o
  | _          => none

/-- Whenever something was about to be written to the sink, the output stood where it should. -/
def Noted (events : List (Event F)) : Prop :=
  ∀ before o after, events = before ++ .writing o :: after → o.scratch = none → o.Follows before

lemma Event.indents_of_isNesting_eq_false {e : Event F} (h : e.isNesting = false)
    (indents : List Text) : e.indents indents = indents := by
  cases e with
  | entered name indent => cases h
  | left => cases h
  | _ => rfl

@[simp] lemma indents_concat (events : List (Event F)) (e : Event F) :
    indents (events ++ [e]) = e.indents (indents events) := by
  simp [indents]

lemma indents_append {new : List (Event F)} (h : ∀ e ∈ new, e.isNesting = false)
    (events : List (Event F)) : indents (events ++ new) = indents events := by
  induction new generalizing events with
  | nil => simp
  | cons e new ih =>
    rw [List.append_cons, ih (fun e' he' => h e' (List.mem_cons_of_mem e he')), indents_concat]
    exact e.indents_of_isNesting_eq_false (h e List.mem_cons_self) _

lemma NoneRefused.of_append {events new : List (Event F)} (h : NoneRefused (events ++ new)) :
    NoneRefused events := fun e he => h e (List.mem_append_left new he)

/-- What happens while the sink is left alone does not matter if as much is nested afterwards. -/
lemma Output.Follows.append {o : Output} {events new : List (Event F)} (h : o.Follows events)
    (hindents : indents (events ++ new) = indents events)
    (hasks : ∀ e ∈ new, e.asksSink = false) : o.Follows (events ++ new) where
  indent_eq := by rw [h.indent_eq, indentation, indentation, hindents]
  atLineStart_eq hnone := by
    rw [h.atLineStart_eq hnone.of_append, writes_append, writes_eq_nil hasks, List.append_nil]

namespace Noted

variable {events new : List (Event F)} {e : Event F}

lemma nil : Noted ([] : List (Event F)) := by
  intro before o after h
  cases before <;> cases h

lemma concat (h : Noted events)
    (he : ∀ o, e = .writing o → o.scratch = none → o.Follows events) : Noted (events ++ [e]) := by
  intro before o after hevents
  rcases List.eq_nil_or_concat after with rfl | ⟨init, last, rfl⟩
  · obtain ⟨rfl, hlast⟩ := List.append_inj' hevents rfl
    exact he o (List.cons.inj hlast).1
  · have hinit : events ++ [e] = (before ++ .writing o :: init) ++ [last] := by
      simpa using hevents
    exact h before o init (List.append_inj' hinit rfl).1

/-- Most events begin no write. -/
lemma concat_of_none (h : Noted events) (he : e.writing? = none) : Noted (events ++ [e]) := by
  apply h.concat
  rintro o rfl
  cases he

/-- What is asked of the sink later is no beginning of a write. -/
lemma append (h : Noted events) (hasks : ∀ e ∈ new, e.asksSink = true) :
    Noted (events ++ new) := by
  induction new generalizing events with
  | nil => simpa using h
  | cons e new ih =>
    rw [List.append_cons]
    apply ih
    · apply h.concat_of_none
      have he := hasks e List.mem_cons_self
      cases e with
      | writing o => cases he
      | _ => rfl
    · exact fun e' he' => hasks e' (List.mem_cons_of_mem e he')

end Noted

namespace RenderState

/-- The output knows whether it stands at the start of a line. -/
def Level (s : RenderState F σ τ) : Prop :=
  s.output.scratch = none → NoneRefused s.events →
    s.output.atLineStart = startsLineAfter true (writes s.events).flatten

/-- The output stands where it should, and did so whenever a write began. What is written aside does
not matter. -/
structure Tidy (s : RenderState F σ τ) : Prop where
  indent_eq : s.output.scratch = none → s.output.indent = indentation s.events
  level : s.Level
  noted : Noted s.events

lemma Tidy.follows {s : RenderState F σ τ} (h : s.Tidy) (hs : s.output.scratch = none) :
    s.output.Follows s.events := ⟨h.indent_eq hs, h.level hs⟩

lemma level_of_refused {s : RenderState F σ τ} {e : SinkError} (h : .refused e ∈ s.events) :
    s.Level := fun _ hnone => absurd h (hnone e)

/-- An event that leaves the sink alone says nothing about lines. -/
lemma Level.concat {s s₁ : RenderState F σ τ} (h : s.Level) {e : Event F}
    (hasks : e.asksSink = false) (hevents : s₁.events = s.events ++ [e])
    (hscratch : s₁.output.scratch = s.output.scratch)
    (hstart : s₁.output.atLineStart = s.output.atLineStart) : s₁.Level := by
  intro hnone hrefused
  rw [hevents] at hrefused
  have hwrites : writes [e] = [] := writes_eq_nil (by simp [hasks])
  rw [hstart, h (hscratch ▸ hnone) hrefused.of_append, hevents, writes_append, hwrites,
    List.append_nil]

lemma tidy_start (host : σ) (sink : τ) : (start host sink : RenderState F σ τ).Tidy where
  indent_eq _ := rfl
  level _ _ := rfl
  noted := .nil

end RenderState

/-! ### Writing -/

/-- Escaped or not, a text ends a line if it ends in a line feed. -/
lemma endsLine_escapeHtml {text : Text} (hne : text ≠ []) :
    escapeHtml text ≠ [] ∧ text.endsLine = (escapeHtml text).endsLine := by
  obtain ⟨init, c, rfl⟩ := (List.eq_nil_or_concat text).resolve_left hne
  obtain ⟨-, hchar, hends⟩ := isLine_escapeHtml (t := [c]) (by simp [IsLine])
    (List.cons_ne_nil c [])
  have hne' : escapeHtml (init ++ [c]) ≠ [] := by
    rw [escapeHtml_append]
    exact List.append_ne_nil_of_right_ne_nil _ hchar
  rw [List.concat_eq_append] at hne ⊢
  refine ⟨hne', ?_⟩
  rw [← startsLineAfter_of_ne_nil hne true, ← startsLineAfter_of_ne_nil hne' true,
    escapeHtml_append, startsLineAfter_append, startsLineAfter_append,
    startsLineAfter_of_ne_nil (List.cons_ne_nil c []), startsLineAfter_of_ne_nil hchar, hends]

/-- From the one state to the other, the sink has been asked for writes and for nothing else; the
indentation is what it was. -/
structure Poured (s s₁ : RenderState F σ τ) : Prop where
  indent_eq : s₁.output.indent = s.output.indent
  scratch_eq_none : s₁.output.scratch = none ↔ s.output.scratch = none
  spares : s.output.scratch ≠ none → SparesSink s s₁
  exists_events_eq : ∃ new, s₁.events = s.events ++ new ∧ ∀ e ∈ new, e.asksSink = true

lemma Poured.trans {s s₁ s₂ : RenderState F σ τ} (h : Poured s s₁) (h₁ : Poured s₁ s₂) :
    Poured s s₂ where
  indent_eq := h₁.indent_eq.trans h.indent_eq
  scratch_eq_none := h₁.scratch_eq_none.trans h.scratch_eq_none
  spares hs := (h.spares hs).trans (h₁.spares fun hnone => hs (h.scratch_eq_none.1 hnone))
  exists_events_eq := by
    obtain ⟨new, hnew, hasks⟩ := h.exists_events_eq
    obtain ⟨more, hmore, hasks'⟩ := h₁.exists_events_eq
    refine ⟨new ++ more, by rw [hmore, hnew, List.append_assoc], ?_⟩
    intro e he
    rcases List.mem_append.1 he with he | he
    · exact hasks e he
    · exact hasks' e he

/-- Whatever the state, the action writes and does nothing else; it fails only if the sink refuses a
write. -/
structure Pours (act : WriteM F σ τ α) : Prop where
  poured : ∀ s, Poured s (reached (act s))
  refused_mem : ∀ {s e s₁}, act s = .error e s₁ → .refused e ∈ s₁.events

/-- Whatever the state, behind the action the output knows whether a line starts. -/
def Levels (act : WriteM F σ τ α) : Prop := ∀ s, (reached (act s)).Level

namespace Pours

variable {act : WriteM F σ τ α}

lemma of_eq {f : RenderState F σ τ → RenderState F σ τ}
    (hindent : ∀ s, (f s).output.indent = s.output.indent)
    (hscratch : ∀ s, (f s).output.scratch = s.output.scratch) (hsink : ∀ s, (f s).sink = s.sink)
    (hevents : ∀ s, (f s).events = s.events) : Pours (modify f : WriteM F σ τ PUnit) where
  poured s := {
    indent_eq := hindent s
    scratch_eq_none := iff_of_eq (congrArg (· = none) (hscratch s))
    spares := fun _ => .of_events_eq (hsink s) (hevents s)
    exists_events_eq := ⟨[], (hevents s).trans (List.append_nil _).symm, by simp⟩ }
  refused_mem h := by cases h

lemma pure (a : α) : Pours (pure a : WriteM F σ τ α) where
  poured s := ⟨rfl, .rfl, fun _ => .of_events_eq rfl rfl, [], (List.append_nil _).symm, by simp⟩
  refused_mem h := by cases h

lemma bind {next : α → WriteM F σ τ β} (h : Pours act) (hnext : ∀ a, Pours (next a)) :
    Pours (act >>= next) where
  poured s := by
    have hact := h.poured s
    cases hresult : act s with
    | ok a s₁ =>
      rw [hresult] at hact
      rw [bind_apply_of_ok hresult]
      exact hact.trans ((hnext a).poured s₁)
    | error e s₁ =>
      rw [hresult] at hact
      rw [bind_apply_of_error hresult]
      exact hact
  refused_mem {s e s₁} hfail := by
    rcases bind_eq_iff.1 hfail with ⟨a, s₂, -, hfail⟩ | ⟨e', s₂, hact, hfail⟩
    · exact (hnext a).refused_mem hfail
    · cases hfail
      exact h.refused_mem hact

lemma get_bind {next : RenderState F σ τ → WriteM F σ τ α} (h : ∀ s, Pours (next s)) :
    Pours (get >>= next) where
  poured s := (h s).poured s
  refused_mem {s _ _} hfail := (h s).refused_mem hfail

lemma forM {γ : Type} {step : γ → WriteM F σ τ PUnit} (xs : List γ) (h : ∀ x, Pours (step x)) :
    Pours (xs.forM step) := by
  induction xs with
  | nil => exact pure _
  | cons x xs ih => exact (h x).bind fun _ => ih

/-- What follows an action decides, as what has failed does not matter. -/
lemma levels_bind {next : α → WriteM F σ τ β} (h : Pours act) (hnext : ∀ a, Levels (next a)) :
    Levels (act >>= next) := by
  intro s
  cases hresult : act s with
  | ok a s₁ =>
    rw [bind_apply_of_ok hresult]
    exact hnext a s₁
  | error e s₁ =>
    rw [bind_apply_of_error hresult]
    exact RenderState.level_of_refused (h.refused_mem hresult)

end Pours

namespace Sink

variable (sink : Sink τ)

lemma pours_put (text : Text) : Pours (sink.put text : WriteM F σ τ Unit) where
  poured s := by
    rw [put]
    cases hscratch : s.output.scratch with
    | some kept =>
      refine ⟨rfl, ?_, fun _ => .of_events_eq rfl rfl, [], (List.append_nil _).symm, by simp⟩
      simp [hscratch]
    | none =>
      cases sink.write text.bytes s.sink with
      | mk result after =>
        cases result with
        | ok _ =>
          exact ⟨rfl, .rfl, fun h => absurd hscratch h, [.wrote text],
            RenderState.events_record _ _, by simp [Event.asksSink]⟩
        | error e =>
          exact ⟨rfl, .rfl, fun h => absurd hscratch h, [.refused e],
            RenderState.events_record _ _, by simp [Event.asksSink]⟩
  refused_mem {s e s₁} hfail := by
    cases hscratch : s.output.scratch with
    | some kept =>
      rw [put, hscratch] at hfail
      cases hfail
    | none =>
      rcases sink.put_cases hscratch text with ⟨s₂, hput, -⟩ | ⟨e', s₂, hput, hevents⟩
      · cases hput.symm.trans hfail
      · cases hput.symm.trans hfail
        simp [hevents]

lemma pours_endText (text : Text) : Pours (endText text : WriteM F σ τ Unit) :=
  .of_eq (fun _ => rfl) (fun _ => rfl) (fun _ => rfl) fun _ => rfl

lemma pours_emit (text : Text) : Pours (sink.emit text : WriteM F σ τ Unit) :=
  (sink.pours_put text).bind fun _ => pours_endText text

lemma pours_emitEscaped (text : Text) : Pours (sink.emitEscaped text : WriteM F σ τ Unit) :=
  (Pours.forM _ sink.pours_put).bind fun _ => pours_endText text

lemma pours_indent : Pours (sink.indent : WriteM F σ τ Unit) := by
  apply Pours.get_bind
  intro s
  dsimp only
  split
  · exact sink.pours_put s.output.indent
  · exact .pure _

variable {sink}

/-- It has been noted how the text ends that was written last. -/
lemma levels_endText {act : WriteM F σ τ Unit} (hact : Pours act) {text ended : Text}
    (hne : text ≠ []) (hended : ended.endsLine = text.endsLine)
    (hwrites : ∀ s s₁, s.output.scratch = none → act s = .ok () s₁ →
      (writes s₁.events).flatten = (writes s.events).flatten ++ text) :
    Levels (act >>= fun _ => endText ended) := by
  intro s
  cases hresult : act s with
  | error e s₁ =>
    rw [bind_apply_of_error hresult]
    exact RenderState.level_of_refused (hact.refused_mem hresult)
  | ok u s₁ =>
    have hpoured := hact.poured s
    rw [hresult] at hpoured
    rw [bind_apply_of_ok hresult]
    intro hnone _
    have hs := hpoured.scratch_eq_none.1 hnone
    show ended.endsLine = startsLineAfter true (writes s₁.events).flatten
    rw [hwrites s s₁ hs hresult, startsLineAfter_append, startsLineAfter_of_ne_nil hne, hended]

lemma levels_emit {text : Text} (hne : text ≠ []) :
    Levels (sink.emit text : WriteM F σ τ Unit) := by
  apply levels_endText (sink.pours_put text) hne rfl
  intro s s₁ hs hput
  rcases sink.put_cases hs text with ⟨s₂, hput', -, hevents⟩ | ⟨e, s₂, hput', -⟩
  · cases hput'.symm.trans hput
    rw [hevents, writes_append, List.flatten_append]
    simp [writes, Event.written?]
  · cases hput'.symm.trans hput

lemma levels_emitEscaped {text : Text} (hne : text ≠ []) :
    Levels (sink.emitEscaped text : WriteM F σ τ Unit) := by
  obtain ⟨hne', hends⟩ := endsLine_escapeHtml hne
  apply levels_endText (Pours.forM _ sink.pours_put) hne' hends
  intro s s₁ hs hparts
  rcases sink.forM_put_cases hs (escapedPieces text) with
    ⟨s₂, hparts', hevents⟩ | ⟨_, _, _, e, s₂, -, hparts', -⟩
  · cases hparts'.symm.trans hparts
    rw [hevents, writes_append, writes_map_wrote, List.flatten_append, flatten_escapedPieces]
  · cases hparts'.symm.trans hparts

/-- Lines are written one after the other, so the last one decides, if there is one. -/
lemma level_emitLines (lines : List Text) (h : ∀ line ∈ lines, line ≠ []) {s : RenderState F σ τ}
    (hs : s.Level) :
    (reached ((lines.forM fun line => do sink.indent; sink.emit line) s)).Level := by
  induction lines generalizing s with
  | nil => exact hs
  | cons line lines ih =>
    have hline : Levels (do sink.indent; sink.emit line : WriteM F σ τ Unit) :=
      sink.pours_indent.levels_bind fun _ => levels_emit (h line List.mem_cons_self)
    have hfirst := hline s
    show (reached (((do sink.indent; sink.emit line : WriteM F σ τ Unit) >>= fun _ =>
      lines.forM fun line => do sink.indent; sink.emit line) s)).Level
    cases hresult : (do sink.indent; sink.emit line : WriteM F σ τ Unit) s with
    | ok u s₁ =>
      rw [hresult] at hfirst
      rw [bind_apply_of_ok hresult]
      exact ih (fun l hl => h l (List.mem_cons_of_mem line hl)) hfirst
    | error e s₁ =>
      rw [hresult] at hfirst
      rw [bind_apply_of_error hresult]
      exact hfirst

end Sink

/-! ### States one after the other -/

/-- From the one state to the other, as much has begun to be rendered as has come to its end; the
indentation is what it was, and if the output stood where it should, it still does. -/
structure StaysTidy (s s₁ : RenderState F σ τ) : Prop where
  indent_eq : s₁.output.indent = s.output.indent
  scratch_eq_none : s₁.output.scratch = none ↔ s.output.scratch = none
  indents_eq : indents s₁.events = indents s.events
  spares : s.output.scratch ≠ none → SparesSink s s₁
  tidy : s.Tidy → s₁.Tidy

namespace StaysTidy

variable {s s₁ s₂ : RenderState F σ τ}

lemma trans (h : StaysTidy s s₁) (h₁ : StaysTidy s₁ s₂) : StaysTidy s s₂ where
  indent_eq := h₁.indent_eq.trans h.indent_eq
  scratch_eq_none := h₁.scratch_eq_none.trans h.scratch_eq_none
  indents_eq := h₁.indents_eq.trans h.indents_eq
  spares hs := (h.spares hs).trans (h₁.spares fun hnone => hs (h.scratch_eq_none.1 hnone))
  tidy hs := h₁.tidy (h.tidy hs)

lemma of_eq (houtput : s₁.output = s.output) (hsink : s₁.sink = s.sink)
    (hevents : s₁.events = s.events) : StaysTidy s s₁ where
  indent_eq := by rw [houtput]
  scratch_eq_none := by rw [houtput]
  indents_eq := by rw [hevents]
  spares _ := .of_events_eq hsink hevents
  tidy hs := {
    indent_eq := by
      rw [houtput, hevents]
      exact hs.indent_eq
    level := by
      rw [RenderState.Level, houtput, hevents]
      exact hs.level
    noted := hevents ▸ hs.noted }

lemma refl (s : RenderState F σ τ) : StaysTidy s s := of_eq rfl rfl rfl

/-- An event that leaves the sink alone. -/
lemma of_concat (s : RenderState F σ τ) {e : Event F} (hnesting : e.isNesting = false)
    (hasks : e.asksSink = false) (hnoted : s.Tidy → Noted (s.events ++ [e])) :
    StaysTidy s (s.record e) where
  indent_eq := rfl
  scratch_eq_none := .rfl
  indents_eq := by
    rw [RenderState.events_record, indents_concat]
    exact e.indents_of_isNesting_eq_false hnesting _
  spares _ := .record s hasks
  tidy hs := by
    refine ⟨fun hnone => ?_, hs.level.concat hasks (RenderState.events_record s e) rfl rfl, ?_⟩
    · rw [RenderState.events_record, indentation, indents_concat,
        e.indents_of_isNesting_eq_false hnesting]
      exact hs.indent_eq hnone
    · rw [RenderState.events_record]
      exact hnoted hs

lemma record (s : RenderState F σ τ) {e : Event F} (hnesting : e.isNesting = false)
    (hasks : e.asksSink = false) (hwriting : e.writing? = none) : StaysTidy s (s.record e) :=
  of_concat s hnesting hasks fun hs => hs.noted.concat_of_none hwriting

/-- Before something is written, it is noted where the output stands. -/
lemma record_writing (s : RenderState F σ τ) : StaysTidy s (s.record (.writing s.output)) := by
  apply of_concat s rfl rfl
  intro hs
  apply hs.noted.concat
  rintro o ⟨⟩ hnone
  exact hs.follows hnone

lemma of_poured (h : Poured s s₁) (hlevel : s.Level → s₁.Level) : StaysTidy s s₁ := by
  obtain ⟨new, hnew, hasks⟩ := h.exists_events_eq
  have hindents : indents s₁.events = indents s.events := by
    rw [hnew]
    apply indents_append
    intro e he
    cases e with
    | entered name indent => cases hasks _ he
    | left => cases hasks _ he
    | _ => rfl
  refine ⟨h.indent_eq, h.scratch_eq_none, hindents, h.spares, fun hs => ⟨?_, hlevel hs.level, ?_⟩⟩
  · intro hnone
    rw [h.indent_eq, hs.indent_eq (h.scratch_eq_none.1 hnone), indentation, indentation, hindents]
  · rw [hnew]
    exact hs.noted.append hasks

/-- A nested rendering: its indentation is put behind what is there, and taken away afterwards. -/
lemma nested {name indent : Text} {inside before : RenderState F σ τ}
    (hevents : before.events = s.events ++ [.entered name indent])
    (houtput : before.output = { s.output with indent := s.output.indent ++ indent })
    (hsink : before.sink = s.sink) (h : StaysTidy before inside)
    (hevents₁ : s₁.events = inside.events ++ [.left])
    (houtput₁ : s₁.output = { inside.output with indent := s.output.indent })
    (hsink₁ : s₁.sink = inside.sink) : StaysTidy s s₁ := by
  have hindents : indents inside.events = indent :: indents s.events := by
    rw [h.indents_eq, hevents, indents_concat]
    rfl
  have hindents₁ : indents s₁.events = indents s.events := by
    rw [hevents₁, indents_concat, hindents]
    rfl
  have hscratch : before.output.scratch = s.output.scratch := by rw [houtput]
  have hscratch₁ : s₁.output.scratch = inside.output.scratch := by rw [houtput₁]
  refine ⟨by rw [houtput₁], ?_, hindents₁, fun hs => ?_, fun hs => ?_⟩
  · rw [hscratch₁, h.scratch_eq_none, hscratch]
  · have henter : SparesSink s before := ⟨hsink, _, hevents, by simp [Event.asksSink]⟩
    have hleave : SparesSink inside s₁ := ⟨hsink₁, _, hevents₁, by simp [Event.asksSink]⟩
    exact (henter.trans (h.spares (hscratch ▸ hs))).trans hleave
  · have hbefore : before.Tidy := by
      refine ⟨fun hnone => ?_, hs.level.concat rfl hevents hscratch (by rw [houtput]), ?_⟩
      · rw [hevents, indentation, indents_concat, houtput]
        show s.output.indent ++ indent = (indent :: indents s.events).reverse.flatten
        rw [hs.indent_eq (hscratch ▸ hnone), List.reverse_cons, List.flatten_append]
        simp [indentation]
      · rw [hevents]
        exact hs.noted.concat_of_none rfl
    have hinside := h.tidy hbefore
    refine ⟨fun hnone => ?_, hinside.level.concat rfl hevents₁ hscratch₁ (by rw [houtput₁]), ?_⟩
    · have hs' : s.output.scratch = none := by
        rwa [hscratch₁, h.scratch_eq_none, hscratch] at hnone
      rw [houtput₁, indentation, hindents₁]
      exact hs.indent_eq hs'
    · rw [hevents₁]
      exact hinside.noted.concat_of_none rfl

/-- A rendering aside: it leaves the sink alone, and the output is put back. -/
lemma aside {inside : RenderState F σ τ} (h : StaysTidy { s with output := .aside } inside) :
    StaysTidy s { inside with output := s.output } := by
  have hspares := h.spares (Option.some_ne_none _)
  refine ⟨rfl, .rfl, h.indents_eq, fun _ => ⟨hspares.sink_eq, hspares.exists_events_eq⟩,
    fun hs => ?_⟩
  have haside : RenderState.Tidy { s with output := .aside } :=
    ⟨fun hnone => absurd hnone (Option.some_ne_none _),
      fun hnone => absurd hnone (Option.some_ne_none _), hs.noted⟩
  obtain ⟨new, hnew, hasks⟩ := hspares.exists_events_eq
  have hfollows (hnone : s.output.scratch = none) : s.output.Follows inside.events := by
    have hindents := h.indents_eq
    rw [hnew] at hindents ⊢
    exact (hs.follows hnone).append hindents hasks
  exact ⟨fun hnone => (hfollows hnone).indent_eq, fun hnone => (hfollows hnone).atLineStart_eq,
    (h.tidy haside).noted⟩

end StaysTidy

/-- Whatever the state, the action keeps the output where it should stand. -/
def KeepsTidy (act : EStateM ε (RenderState F σ τ) α) : Prop := ∀ s, StaysTidy s (reached (act s))

namespace KeepsTidy

variable {act : EStateM ε (RenderState F σ τ) α}

lemma pure (a : α) : KeepsTidy (pure a : EStateM ε (RenderState F σ τ) α) := .refl

lemma throw (e : ε) : KeepsTidy (throw e : EStateM ε (RenderState F σ τ) α) := .refl

lemma bind {next : α → EStateM ε (RenderState F σ τ) β} (h : KeepsTidy act)
    (hnext : ∀ a, KeepsTidy (next a)) : KeepsTidy (act >>= next) := by
  intro s
  have hact := h s
  cases hresult : act s with
  | ok a s₁ =>
    rw [hresult] at hact
    rw [bind_apply_of_ok hresult]
    exact hact.trans (hnext a s₁)
  | error e s₁ =>
    rw [hresult] at hact
    rw [bind_apply_of_error hresult]
    exact hact

lemma get_bind {next : RenderState F σ τ → EStateM ε (RenderState F σ τ) α}
    (h : ∀ s, KeepsTidy (next s)) : KeepsTidy (get >>= next) := fun s => h s s

lemma record {e : Event F} (hnesting : e.isNesting = false) (hasks : e.asksSink = false)
    (hwriting : e.writing? = none) : KeepsTidy (RenderM.record e : RenderM F σ τ Unit) :=
  fun s => .record s hnesting hasks hwriting

lemma ofWrite {act : WriteM F σ τ α} (h : KeepsTidy act) : KeepsTidy (RenderM.ofWrite act) := by
  intro s
  rw [RenderM.reached_ofWrite]
  exact h s

lemma composes : ActionRel.Composes fun α (act _ : RenderM F σ τ α) => KeepsTidy act where
  pure := pure
  bind := bind

end KeepsTidy

namespace Sink

variable (sink : Sink τ)

lemma keepsTidy_writeText (text : Text) :
    KeepsTidy (sink.writeText text : WriteM F σ τ Unit) := by
  intro s
  apply (StaysTidy.record_writing s).trans
  show StaysTidy _ (reached ((if text = [] then pure () else
    get >>= fun now : RenderState F σ τ => if now.output.indent = [] then sink.emit text
      else text.lines.forM fun line => do sink.indent; sink.emit line)
    (s.record (.writing s.output))))
  split
  · exact .refl _
  · next hne =>
    show StaysTidy _ (reached ((if s.output.indent = [] then sink.emit text else _) _))
    split
    · exact .of_poured ((sink.pours_emit text).poured _) fun _ => levels_emit hne _
    · have hlines : Pours (text.lines.forM fun line => do sink.indent; sink.emit line :
          WriteM F σ τ Unit) :=
        Pours.forM _ fun line => sink.pours_indent.bind fun _ => sink.pours_emit line
      exact .of_poured (hlines.poured _)
        (level_emitLines text.lines fun line hline => (isLine_of_mem_lines hline).1)

lemma keepsTidy_writeData (text : Text) (escaped : Bool) :
    KeepsTidy (sink.writeData text escaped : WriteM F σ τ Unit) := by
  intro s
  apply (StaysTidy.record_writing s).trans
  show StaysTidy _ (reached ((if text = [] then pure () else
    sink.indent >>= fun _ => if escaped then sink.emitEscaped text else sink.emit text)
    (s.record (.writing s.output))))
  split
  · exact .refl _
  · next hne =>
    cases escaped with
    | true =>
      exact .of_poured ((sink.pours_indent.bind fun _ => sink.pours_emitEscaped text).poured _)
        fun _ => sink.pours_indent.levels_bind (fun _ => levels_emitEscaped hne) _
    | false =>
      exact .of_poured ((sink.pours_indent.bind fun _ => sink.pours_emit text).poured _)
        fun _ => sink.pours_indent.levels_bind (fun _ => levels_emit hne) _

end Sink

end Mustache
