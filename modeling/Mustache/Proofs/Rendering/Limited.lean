import Mustache.Proofs.Rendering.FirstFailure
import Mustache.Proofs.Text.Bytes

/-!
# Limited sinks

A rendering into a buffer, and the same rendering into a sink with room for so many bytes. The two
go through the same states as long as everything fits. When a write does not fit, the limited
rendering comes to its end with the error of the sink and asks the sink for nothing more, if the
host stops a lambda at the first failure it hears of; the other one may only write more. So the
limited sink takes the longest beginning of the writes that fits.
-/

namespace Mustache

variable {F σ τ ω ε α β : Type}

/-! ### The longest beginning that fits -/

/-- The longest beginning of a list of texts that has no more than so many bytes. -/
structure LongestWithin (room : Nat) (texts taken : List Text) : Prop where
  isPrefix : taken <+: texts
  byteSize_le : Text.byteSize taken.flatten ≤ room
  longest : ∀ more, more <+: texts → Text.byteSize more.flatten ≤ room → more <+: taken

lemma LongestWithin.self {room : Nat} {texts : List Text} (h : Text.byteSize texts.flatten ≤ room) :
    LongestWithin room texts texts :=
  ⟨List.prefix_rfl, h, fun _ hmore _ => hmore⟩

/-- The beginning after which the next text does not fit. -/
lemma LongestWithin.of_lt {room : Nat} {text : Text} {taken later : List Text}
    (h : Text.byteSize taken.flatten ≤ room)
    (hlt : room < Text.byteSize taken.flatten + text.byteSize) :
    LongestWithin room (taken ++ text :: later) taken := by
  refine ⟨List.prefix_append _ _, h, ?_⟩
  intro more hmore hsize
  rcases List.prefix_or_prefix_of_prefix hmore (List.prefix_append taken (text :: later)) with
    hle | ⟨extra, rfl⟩
  · exact hle
  · rw [List.prefix_append_right_inj] at hmore
    cases extra with
    | nil => simp
    | cons t extra =>
      obtain ⟨rfl, -⟩ := List.cons_prefix_cons.1 hmore
      simp only [List.flatten_append, List.flatten_cons, Text.byteSize_append] at hsize
      omega

/-! ### Runs in lockstep -/

/-- The sink has taken just what the history tells, and no more than so many bytes. -/
structure Within (room : Nat) (s : RenderState F σ ByteArray) : Prop where
  sink_eq : s.sink = Text.bytes (writes s.events).flatten
  size_le : s.sink.size ≤ room

/-- A write that the one run has made did not fit in the other, and that one has asked the sink for
nothing since. -/
structure CutShort (room : Nat) (error : SinkError) (full cut : RenderState F σ ByteArray) :
    Prop where
  within : Within room cut
  exists_events_eq : ∃ before after, cut.events = before ++ .refused error :: after ∧
    ∀ e ∈ after, e.asksSink = false
  exists_writes_eq : ∃ text later, writes full.events = writes cut.events ++ text :: later ∧
    room < cut.sink.size + text.byteSize

variable {room : Nat} {error : SinkError}

lemma Within.spares {s s' : RenderState F σ ByteArray} (h : Within room s) (hs : SparesSink s s') :
    Within room s' := by
  obtain ⟨hsink, new, hevents, hasks⟩ := hs
  refine ⟨?_, hsink ▸ h.size_le⟩
  rw [hsink, h.sink_eq, hevents, writes_append, writes_eq_nil hasks, List.append_nil]

namespace CutShort

variable {full full' cut cut' : RenderState F σ ByteArray}

lemma grow {new : List (Event F)} (h : CutShort room error full cut)
    (hfull : full'.events = full.events ++ new) : CutShort room error full' cut := by
  obtain ⟨hwithin, hevents, text, later, hwrites, hlt⟩ := h
  refine ⟨hwithin, hevents, text, later ++ writes new, ?_, hlt⟩
  rw [hfull, writes_append, hwrites, List.append_assoc, List.cons_append]

lemma spares (h : CutShort room error full cut) (hcut : SparesSink cut cut') :
    CutShort room error full cut' := by
  have hwithin := h.within.spares hcut
  obtain ⟨-, ⟨before, after, hevents, hasks⟩, text, later, hwrites, hlt⟩ := h
  obtain ⟨hsink, new, hnew, hasksNew⟩ := hcut
  refine ⟨hwithin, ⟨before, after ++ new, ?_, ?_⟩, text, later, ?_, hsink ▸ hlt⟩
  · rw [hnew, hevents, List.append_assoc, List.cons_append]
  · intro e he
    rcases List.mem_append.1 he with he | he
    · exact hasks e he
    · exact hasksNew e he
  · rw [hnew, writes_append, writes_eq_nil hasksNew, List.append_nil, hwrites]

end CutShort

/-- Two runs of one action from one state: they are the same, or the second has failed with the
error of the sink at a write that the first has made. -/
def Agree (room : Nat) (error : SinkError) (halt : ε → Halt)
    (full cut : EStateM.Result ε (RenderState F σ ByteArray) α) : Prop :=
  cut = full ∧ Within room (reached full) ∨
    ∃ e s, cut = .error e s ∧ halt e = .failed (.write error) ∧
      CutShort room error (reached full) s

/-- Begun in a state in which everything has fitted, the actions agree. -/
structure Lockstep (room : Nat) (error : SinkError) (halt : ε → Halt)
    (full cut : EStateM ε (RenderState F σ ByteArray) α) : Prop where
  grows : Grows full
  agree : ∀ s, Within room s → Agree room error halt (full s) (cut s)

namespace Lockstep

variable {halt : ε → Halt} {full cut : EStateM ε (RenderState F σ ByteArray) α}

/-- What leaves the sink alone is the same in both runs. -/
lemma same (h : ∀ s, SparesSink s (reached (full s))) : Lockstep room error halt full full where
  grows s := (h s).exists_events
  agree s hs := .inl ⟨rfl, hs.spares (h s)⟩

lemma pure (a : α) : Lockstep room error halt
    (pure a : EStateM ε (RenderState F σ ByteArray) α) (pure a) :=
  same fun _ => .of_events_eq rfl rfl

lemma throw (e : ε) : Lockstep room error halt
    (throw e : EStateM ε (RenderState F σ ByteArray) α) (throw e) :=
  same fun _ => .of_events_eq rfl rfl

lemma bind {next next' : α → EStateM ε (RenderState F σ ByteArray) β}
    (h : Lockstep room error halt full cut)
    (hnext : ∀ a, Lockstep room error halt (next a) (next' a)) :
    Lockstep room error halt (full >>= next) (cut >>= next') where
  grows := h.grows.bind fun a => (hnext a).grows
  agree s hs := by
    rcases h.agree s hs with ⟨hcut, hwithin⟩ | ⟨e, s', hcut, hhalt, hshort⟩
    · cases hfull : full s with
      | ok a s' =>
        rw [hfull] at hcut hwithin
        rw [bind_apply_of_ok hfull, bind_apply_of_ok hcut]
        exact (hnext a).agree s' hwithin
      | error e s' =>
        rw [hfull] at hcut hwithin
        rw [bind_apply_of_error hfull, bind_apply_of_error hcut]
        exact .inl ⟨rfl, hwithin⟩
    · obtain ⟨new, hnew⟩ := Grows.exists_events_bind (fun a => (hnext a).grows) s
      exact .inr ⟨e, s', bind_apply_of_error hcut, hhalt, hshort.grow hnew⟩

lemma get_bind
    {next next' : RenderState F σ ByteArray → EStateM ε (RenderState F σ ByteArray) α}
    (h : ∀ s, Lockstep room error halt (next s) (next' s)) :
    Lockstep room error halt (get >>= next) (get >>= next') where
  grows s := (h s).grows s
  agree s hs := (h s).agree s hs

lemma forM {γ : Type} {step step' : γ → EStateM ε (RenderState F σ ByteArray) PUnit}
    {xs : List γ} (h : ∀ x ∈ xs, Lockstep room error halt (step x) (step' x)) :
    Lockstep room error halt (xs.forM step) (xs.forM step') := by
  induction xs with
  | nil => exact pure _
  | cons x xs ih =>
    exact (h x List.mem_cons_self).bind fun _ => ih fun y hy => h y (List.mem_cons_of_mem x hy)

lemma record {e : Event F} (h : e.asksSink = false) :
    Lockstep room error id (RenderM.record e : RenderM F σ ByteArray Unit) (RenderM.record e) :=
  same fun s => .record s h

lemma fail (e : RenderError) :
    Lockstep room error id (RenderM.fail e : RenderM F σ ByteArray α) (RenderM.fail e) :=
  throw _

lemma ofWrite {full cut : WriteM F σ ByteArray α} (h : Lockstep room error refusal full cut) :
    Lockstep room error id (RenderM.ofWrite full) (RenderM.ofWrite cut) := by
  have hreached (s : RenderState F σ ByteArray) := RenderM.reached_ofWrite full s
  refine ⟨h.grows.ofWrite, fun s hs => ?_⟩
  rcases h.agree s hs with ⟨hcut, hwithin⟩ | ⟨e, s', hcut, hhalt, hshort⟩
  · refine .inl ⟨?_, hreached s ▸ hwithin⟩
    rw [RenderM.ofWrite, RenderM.ofWrite, EStateM.adaptExcept, EStateM.adaptExcept, hcut]
  · exact .inr ⟨_, s', RenderM.ofWrite_of_error hcut, hhalt, hreached s ▸ hshort⟩

lemma bracket {enter : RenderState F σ ByteArray → RenderState F σ ByteArray}
    {value : α → RenderState F σ ByteArray → β}
    {leave : RenderState F σ ByteArray → RenderState F σ ByteArray → RenderState F σ ByteArray}
    (h : Lockstep room error halt full cut) (henter : ∀ s, SparesSink s (enter s))
    (hleave : ∀ s s', SparesSink s' (leave s s')) :
    Lockstep room error halt (bracket enter value leave full) (bracket enter value leave cut) where
  grows := h.grows.bracket (fun s => (henter s).exists_events)
    fun s s' => (hleave s s').exists_events
  agree s hs := by
    rcases h.agree (enter s) (hs.spares (henter s)) with
      ⟨hcut, hwithin⟩ | ⟨e, s', hcut, hhalt, hshort⟩
    · refine .inl ⟨?_, ?_⟩
      · rw [Mustache.bracket, Mustache.bracket, hcut]
      · rw [reached_bracket]
        exact hwithin.spares (hleave s _)
    · obtain ⟨-, after, hafter, -⟩ := hleave s (reached (full (enter s)))
      refine .inr ⟨e, leave s s', ?_, hhalt, ?_⟩
      · rw [Mustache.bracket, hcut]
      · rw [reached_bracket]
        exact (hshort.spares (hleave s s')).grow hafter

end Lockstep

/-! ### Writing -/

namespace Sink

/-- The one point at which the two runs part. -/
lemma lockstep_put (text : Text) :
    Lockstep room error refusal (buffer.put text : WriteM F σ ByteArray Unit)
      ((limited ⟨some room, error, false⟩).put text) where
  grows := (buffer.logs_put text : Logs False refusal _).grows
  agree s hs := by
    cases hscratch : s.output.scratch with
    | some kept =>
      refine .inl ⟨?_, ?_⟩
      · simp only [put, hscratch]
      · simp only [put, hscratch]
        exact hs.spares (.of_events_eq rfl rfl)
    | none =>
      have hfull : buffer.put text s =
          .ok () ({ s with sink := s.sink ++ text.bytes }.record (.wrote text)) := by
        simp only [put, hscratch, buffer]
      have hwrites : writes ({ s with sink := s.sink ++ text.bytes }.record (.wrote text)).events =
          writes s.events ++ [text] := by
        rw [RenderState.events_record, writes_append]
        rfl
      rw [hfull]
      by_cases hfits : s.sink.size + text.byteSize ≤ room
      · have hwrite : (limited ⟨some room, error, false⟩).write text.bytes s.sink =
            (.ok (), s.sink ++ text.bytes) := by
          simp [limited, Limit.allows, hfits]
        refine .inl ⟨?_, ?_, ?_⟩
        · simp only [put, hscratch, hwrite]
        · rw [reached_ok, hwrites, List.flatten_append, List.flatten_singleton, Text.bytes_append,
            ← hs.sink_eq]
          rfl
        · show (s.sink ++ text.bytes).size ≤ room
          rwa [ByteArray.size_append, Text.size_bytes]
      · have hwrite : (limited ⟨some room, error, false⟩).write text.bytes s.sink =
            (.error error, s.sink) := by
          simp [limited, Limit.allows, hfits]
        have hrefused : writes (s.record (.refused error)).events = writes s.events := by
          rw [RenderState.events_record, writes_append]
          exact List.append_nil _
        refine .inr ⟨error, s.record (.refused error), ?_, rfl, ⟨?_, hs.size_le⟩,
          ⟨s.events, [], RenderState.events_record _ _, by simp⟩, text, [], ?_,
          Nat.lt_of_not_le hfits⟩
        · simp only [put, hscratch, hwrite]
        · rw [hrefused]
          exact hs.sink_eq
        · rw [reached_ok, hwrites, hrefused]

lemma lockstep_emit (text : Text) :
    Lockstep room error refusal (buffer.emit text : WriteM F σ ByteArray Unit)
      ((limited ⟨some room, error, false⟩).emit text) :=
  (lockstep_put text).bind fun _ => .same fun _ => .of_events_eq rfl rfl

lemma lockstep_emitEscaped (text : Text) :
    Lockstep room error refusal (buffer.emitEscaped text : WriteM F σ ByteArray Unit)
      ((limited ⟨some room, error, false⟩).emitEscaped text) := by
  refine .bind (.forM ?_) fun _ => .same fun _ => .of_events_eq rfl rfl
  intro piece _
  exact lockstep_put piece

lemma lockstep_indent :
    Lockstep room error refusal (buffer.indent : WriteM F σ ByteArray Unit)
      (limited ⟨some room, error, false⟩).indent := by
  refine .get_bind ?_
  intro s
  dsimp only
  split
  · exact lockstep_put s.output.indent
  · exact .pure _

lemma lockstep_noteOutput :
    Lockstep room error refusal (noteOutput : WriteM F σ ByteArray Unit) noteOutput :=
  .same fun s => .record s rfl

lemma lockstep_writeText (text : Text) :
    Lockstep room error refusal (buffer.writeText text : WriteM F σ ByteArray Unit)
      ((limited ⟨some room, error, false⟩).writeText text) := by
  refine lockstep_noteOutput.bind fun _ => ?_
  split
  · exact .pure _
  · refine .get_bind ?_
    intro s
    split
    · exact lockstep_emit text
    · refine .forM ?_
      intro line _
      exact lockstep_indent.bind fun _ => lockstep_emit line

lemma lockstep_writeData (text : Text) (escaped : Bool) :
    Lockstep room error refusal (buffer.writeData text escaped : WriteM F σ ByteArray Unit)
      ((limited ⟨some room, error, false⟩).writeData text escaped) := by
  refine lockstep_noteOutput.bind fun _ => ?_
  split
  · exact .pure _
  · refine lockstep_indent.bind fun _ => ?_
    cases escaped with
    | true => exact lockstep_emitEscaped text
    | false => exact lockstep_emit text

lemma lockstep_finish :
    Lockstep room error refusal (buffer.finish : WriteM F σ ByteArray Unit)
      (limited ⟨some room, error, false⟩).finish where
  grows := (buffer.logs_finish : Logs False refusal _).grows
  agree s hs := by
    refine .inl ⟨rfl, ?_⟩
    have hwrites : writes (reached (buffer.finish s)).events = writes s.events := by
      show writes (s.record (.flushed (.ok ()))).events = _
      rw [RenderState.events_record, writes_append]
      exact List.append_nil _
    refine ⟨?_, hs.size_le⟩
    rw [hwrites]
    exact hs.sink_eq

end Sink

/-! ### While the host goes on -/

/-- As `Agree`, where a failure does not end the run: the second one has kept the error. -/
def AgreeKept (room : Nat) (error : SinkError) (report : ε → RenderError)
    (full cut : EStateM.Result Halt (RenderState F σ ByteArray) (Option ε × HostResult)) : Prop :=
  cut = full ∧ Within room (reached full) ∨
    ∃ e result s, cut = .ok (some e, result) s ∧ report e = .write error ∧
      CutShort room error (reached full) s

section

variable {report : ε → RenderError} {path : Path} {done : HostResult → Event F}
  {next next' : Resolution → RenderM F σ ByteArray α}

lemma lockstep_settle (hasks : ∀ result, (done result).asksSink = false)
    (hnext : ∀ a, Lockstep room error id (next a) (next' a)) (answer : Option ε × HostResult) :
    Lockstep room error id (settle report path done next answer)
      (settle report path done next' answer) := by
  refine (Lockstep.record (hasks answer.2)).bind fun _ => ?_
  rcases answer with ⟨_ | e, _ | a⟩
  · exact .fail _
  · exact hnext a
  · exact .fail _
  · exact .fail _

/-- When the host is done, the limited run fails with the error that was kept. -/
lemma AgreeKept.lockstep_bind {act act' : RenderM F σ ByteArray (Option ε × HostResult)}
    (hgrows : Grows act)
    (h : ∀ s, Within room s → AgreeKept room error report (act s) (act' s))
    (hasks : ∀ result, (done result).asksSink = false)
    (hnext : ∀ a, Lockstep room error id (next a) (next' a)) :
    Lockstep room error id (act >>= settle report path done next)
      (act' >>= settle report path done next') where
  grows := hgrows.bind fun answer => (lockstep_settle hasks hnext answer).grows
  agree s hs := by
    rcases h s hs with ⟨hcut, hwithin⟩ | ⟨e, result, s', hcut, hreport, hshort⟩
    · cases hfull : act s with
      | ok answer s' =>
        rw [hfull] at hcut hwithin
        rw [bind_apply_of_ok hfull, bind_apply_of_ok hcut]
        exact (lockstep_settle hasks hnext answer).agree s' hwithin
      | error halt s' =>
        rw [hfull] at hcut hwithin
        rw [bind_apply_of_error hfull, bind_apply_of_error hcut]
        exact .inl ⟨rfl, hwithin⟩
    · have hsettle (answer : Option ε × HostResult) :=
        (lockstep_settle hasks hnext answer : Lockstep _ error id
          (settle report path done next answer) _).grows
      obtain ⟨new, hnew⟩ := Grows.exists_events_bind hsettle s
      refine .inr ⟨.failed (.write error), s'.record (done result), ?_, rfl,
        (hshort.spares (.record s' (hasks result))).grow hnew⟩
      rw [bind_apply_of_ok hcut, ← hreport]
      rfl

end

/-! ### Rendering -/

namespace Renderer

section

variable (r : Renderer F σ τ)

lemma exists_events_serve_write (escaped raw : Bool) (text : Text)
    (next : Except SinkErrorKind Unit → Interpolation σ) (s : RenderState F σ τ) :
    ∃ new, (reached (r.serve escaped none (.write raw text next) s)).events =
      (reached (r.sink.writeData text (escaped && !raw) s)).events ++ new := by
  cases hwrite : r.sink.writeData text (escaped && !raw) s with
  | ok a s₁ =>
    rw [r.serve_write_of_ok hwrite]
    exact Keeps.grows (r.keeps_serve escaped (next (.ok ()))) s₁
  | error e s₁ =>
    obtain ⟨result, s', hnext, -, new, hnew, -⟩ :=
      r.exists_serve_of_failure escaped e (next (.error e.kind)) s₁
    rw [r.serve_write_of_error hwrite, hnext]
    exact ⟨new, hnew⟩

end

/-- The same renderings, into another sink. -/
def into (r : Renderer F σ τ) (sink : Sink ω) : Renderer F σ ω :=
  ⟨r.host, sink, r.options, r.partials⟩

variable (r : Renderer F σ τ)

lemma lockstep_lookUp (frame : F) (path : Path) (index : Nat) :
    Lockstep room error id ((r.into .buffer : Renderer F σ ByteArray).lookUp frame path index)
      ((r.into (.limited ⟨some room, error, false⟩)).lookUp frame path index) :=
  .same fun _ => ⟨rfl, _, RenderState.events_record _ _, by simp [Event.asksSink]⟩

/-- Once a write was refused, the host is served without the sink. -/
lemma serve_some_into (sink sink' : Sink ω) (escaped : Bool) (e : SinkError)
    (call : Interpolation σ) (s : RenderState F σ ω) :
    (r.into sink).serve escaped (some e) call s = (r.into sink').serve escaped (some e) call s := by
  induction call generalizing s with
  | answer result host => rfl
  | write raw text next ih => exact ih (.error e.kind) s
  | remark remark next ih => exact ih (s.record (.remarked remark))

lemma agreeKept_serve (escaped : Bool) (call : Interpolation σ) (s : RenderState F σ ByteArray)
    (hs : Within room s) :
    AgreeKept room error RenderError.write ((r.into .buffer).serve escaped none call s)
      ((r.into (.limited ⟨some room, error, false⟩)).serve escaped none call s) := by
  induction call generalizing s with
  | answer result host => exact .inl ⟨rfl, hs.spares (.of_events_eq rfl rfl)⟩
  | remark remark next ih =>
    exact ih (s.record (.remarked remark)) (hs.spares (.record s rfl))
  | write raw text next ih =>
    have hwrite : Agree room error refusal
        ((r.into .buffer).sink.writeData text (escaped && !raw) s)
        ((r.into (.limited ⟨some room, error, false⟩)).sink.writeData text (escaped && !raw) s) :=
      (Sink.lockstep_writeData _ _).agree s hs
    rcases hwrite with ⟨hcut, hwithin⟩ | ⟨e, s', hcut, hhalt, hshort⟩
    · cases hfull : (r.into .buffer).sink.writeData text (escaped && !raw) s with
      | ok a s' =>
        rw [hfull] at hcut hwithin
        rw [serve_write_of_ok _ hfull, serve_write_of_ok _ hcut]
        exact ih (.ok ()) s' hwithin
      | error e s' =>
        rw [hfull] at hcut hwithin
        obtain ⟨result, s'', hserve, hspares⟩ :=
          (r.into .buffer).exists_serve_of_failure escaped e (next (.error e.kind)) s'
        -- a buffer refuses nothing, but there is no need to know: without the sink both go on alike
        rw [serve_write_of_error _ hfull, serve_write_of_error _ hcut]
        refine .inl ⟨r.serve_some_into _ _ _ _ _ _, ?_⟩
        rw [hserve]
        exact hwithin.spares hspares
    · obtain ⟨result, s'', hserve, hspares⟩ :=
        (r.into (.limited ⟨some room, error, false⟩)).exists_serve_of_failure escaped e
          (next (.error e.kind)) s'
      obtain ⟨new, hnew⟩ :=
        (r.into .buffer).exists_events_serve_write escaped raw text next s
      refine .inr ⟨e, result, s'', ?_, Halt.failed.inj hhalt, (hshort.spares hspares).grow hnew⟩
      rw [serve_write_of_error _ hcut, hserve]

lemma lockstep_interpolate (frame : F) (path : Path) (escaped : Bool) :
    Lockstep room error id ((r.into .buffer).interpolate frame path escaped)
      ((r.into (.limited ⟨some room, error, false⟩)).interpolate frame path escaped) := by
  rw [interpolate_eq_settle, interpolate_eq_settle]
  refine .get_bind fun s => ?_
  exact AgreeKept.lockstep_bind (Keeps.grows ((r.into .buffer).keeps_serve escaped _))
    (r.agreeKept_serve escaped _) (fun _ => rfl) fun answer => .pure answer

/-! ### Nesting -/

lemma lockstep_checkDepth (depth : Nat) (name : Text) :
    Lockstep room error id ((r.into .buffer : Renderer F σ ByteArray).checkDepth depth name)
      ((r.into (.limited ⟨some room, error, false⟩)).checkDepth depth name) := by
  have hsame : (r.into (.limited ⟨some room, error, false⟩)).checkDepth depth name =
      (r.into .buffer : Renderer F σ ByteArray).checkDepth depth name := rfl
  rw [hsame, checkDepth]
  split
  · exact .bind (.record rfl) fun _ => .fail _
  · exact .pure _

section

variable {act act' : RenderM F σ ByteArray Unit} (h : Lockstep room error id act act')

include h

lemma lockstep_enclosed (name indent : Text) :
    Lockstep room error id (enclosed name indent act) (enclosed name indent act') := by
  rw [enclosed_eq_bracket, enclosed_eq_bracket]
  exact h.bracket (fun s => .record s rfl) fun _ s' => .record s' rfl

lemma lockstep_indented (indent : Text) :
    Lockstep room error id (indented indent act) (indented indent act') := by
  rw [indented_eq_bracket, indented_eq_bracket]
  exact h.bracket (fun _ => .of_events_eq rfl rfl) fun _ _ => .of_events_eq rfl rfl

lemma lockstep_onAside : Lockstep room error id (onAside act) (onAside act') := by
  rw [onAside_eq_bracket, onAside_eq_bracket]
  exact h.bracket (fun _ => .of_events_eq rfl rfl) fun _ _ => .of_events_eq rfl rfl

end

lemma composes_lockstep : ActionRel.Composes
    (fun _ => Lockstep room error id : ActionRel F σ ByteArray ByteArray) where
  pure := .pure
  bind := .bind

lemma relates_lockstep : Relates (fun _ => Lockstep room error id) (r.into .buffer)
    (r.into (.limited ⟨some room, error, false⟩)) where
  toComposes := composes_lockstep
  escaping_eq := rfl
  unfinished := .throw _
  lookUp_bind := composes_lockstep.keptByLookUp _ _ (fun _ e => .fail e) r.lockstep_lookUp
  interpolate := r.lockstep_interpolate
  writeText _ := .ofWrite (Sink.lockstep_writeText _)

lemma relatesNested_lockstep : RelatesNested (fun _ => Lockstep room error id) (r.into .buffer)
    (r.into (.limited ⟨some room, error, false⟩)) where
  toComposes := composes_lockstep
  partials_eq := rfl
  checkDepth_bind depth name _ _ h := (r.lockstep_checkDepth depth name).bind fun _ => h
  reject _ := .bind (.record rfl) fun _ => .fail _
  enclosed name indent _ _ h := lockstep_enclosed h name indent
  indented indent _ _ h := lockstep_indented h indent
  onAside h := lockstep_onAside h
  writeData _ _ := .ofWrite (Sink.lockstep_writeData _ _)

/-! ### Lambdas -/

/-- A host that asks for nothing more goes on alike in both runs. -/
lemma agreeKept_of_isAnswer {below below' : Nested F σ ByteArray} {here : Setting F}
    {tag : LambdaTag} {failure : Option RenderError} {call : Expansion σ} (h : call.IsAnswer)
    {s : RenderState F σ ByteArray} (hs : Within room s) :
    AgreeKept room error id ((r.into .buffer).attend below here tag failure call s)
      ((r.into (.limited ⟨some room, error, false⟩)).attend below' here tag failure call s) := by
  obtain ⟨result, state, rfl⟩ := h
  exact .inl ⟨rfl, hs.spares (.of_events_eq rfl rfl)⟩

section

variable {below below' : Nested F σ ByteArray}
  (hbelow : ∀ here range, Lockstep room error id (below here range) (below' here range))

include hbelow

lemma lockstep_renderLambdaText (here : Setting F) (tag : LambdaTag) (text : Text) :
    Lockstep room error id ((r.into .buffer).renderLambdaText below here tag text)
      ((r.into (.limited ⟨some room, error, false⟩)).renderLambdaText below' here tag text) :=
  r.relatesNested_lockstep.renderLambdaText below below'
    (fun template => hbelow (here.nested template)) tag text

variable (hlogs : ∀ here range, Logs False id (below here range))

include hlogs

lemma agreeKept_attend (here : Setting F) (tag : LambdaTag) (call : Expansion σ)
    (hstops : call.Stops) (s : RenderState F σ ByteArray) (hs : Within room s) :
    AgreeKept room error id ((r.into .buffer).attend below here tag none call s)
      ((r.into (.limited ⟨some room, error, false⟩)).attend below' here tag none call s) := by
  induction call generalizing s with
  | answer result host => exact .inl ⟨rfl, hs.spares (.of_events_eq rfl rfl)⟩
  | remark remark next ih =>
    exact ih (Expansion.stops_remark.1 hstops) (s.record (.remarked remark))
      (hs.spares (.record s rfl))
  | write text next ih =>
    obtain ⟨hanswer, hstops⟩ := Expansion.stops_write.1 hstops
    have hwrite : Agree room error refusal ((r.into .buffer).sink.writeData text tag.escapes s)
        ((r.into (.limited ⟨some room, error, false⟩)).sink.writeData text tag.escapes s) :=
      (Sink.lockstep_writeData _ _).agree s hs
    rcases hwrite with ⟨hcut, hwithin⟩ | ⟨e, s', hcut, hhalt, hshort⟩
    · cases hfull : (r.into .buffer).sink.writeData text tag.escapes s with
      | ok a s' =>
        rw [hfull] at hcut hwithin
        rw [attend_write_of_ok _ hfull, attend_write_of_ok _ hcut]
        exact ih true hstops s' hwithin
      | error e s' =>
        rw [hfull] at hcut hwithin
        rw [attend_write_of_error _ hfull, attend_write_of_error _ hcut]
        exact agreeKept_of_isAnswer r hanswer hwithin
    · obtain ⟨result, s'', hattend, hspares⟩ :=
        (r.into (.limited ⟨some room, error, false⟩)).exists_attend_of_isAnswer hanswer
      obtain ⟨new, hnew⟩ :=
        (r.into .buffer).exists_events_attend_write hlogs here tag none text next s
      refine .inr ⟨.write e, result, s'', ?_, ?_, (hshort.spares hspares).grow hnew⟩
      · rw [attend_write_of_error _ hcut]
        exact hattend
      · exact Halt.failed.inj hhalt
  | render text host next ih =>
    obtain ⟨hanswer, hstops⟩ := Expansion.stops_render.1 hstops
    have hhost : Within room { s with host } := hs.spares (.of_events_eq rfl rfl)
    rcases (r.lockstep_renderLambdaText hbelow here tag text).agree _ hhost with
      ⟨hcut, hwithin⟩ | ⟨e, s', hcut, hhalt, hshort⟩
    · cases hfull : (r.into .buffer).renderLambdaText below here tag text { s with host } with
      | ok a s' =>
        rw [hfull] at hcut hwithin
        rw [attend_render_of_ok _ hfull, attend_render_of_ok _ hcut]
        exact ih true s'.host (hstops s'.host) s' hwithin
      | error halt s' =>
        rw [hfull] at hcut hwithin
        cases halt with
        | unfinished =>
          rw [attend_render_of_unfinished _ hfull, attend_render_of_unfinished _ hcut]
          exact .inl ⟨rfl, hwithin⟩
        | failed e =>
          rw [attend_render_of_failed _ hfull, attend_render_of_failed _ hcut]
          exact agreeKept_of_isAnswer r (hanswer s'.host) hwithin
    · obtain rfl : e = .failed (.write error) := hhalt
      obtain ⟨result, s'', hattend, hspares⟩ :=
        (r.into (.limited ⟨some room, error, false⟩)).exists_attend_of_isAnswer (hanswer s'.host)
      obtain ⟨new, hnew⟩ :=
        (r.into .buffer).exists_events_attend_render hlogs here tag none text host next s
      refine .inr ⟨.write error, result, s'', ?_, rfl, (hshort.spares hspares).grow hnew⟩
      rw [attend_render_of_failed _ hcut]
      exact hattend

variable (hstops : r.host.StopsOnFailure)

include hstops

lemma lockstep_expandLambda (here : Setting F) (frame : F) (path : Path) (tag : LambdaTag) :
    Lockstep room error id ((r.into .buffer).expandLambda below here frame path tag)
      ((r.into (.limited ⟨some room, error, false⟩)).expandLambda below' here frame path tag) := by
  rw [expandLambda_eq_settle, expandLambda_eq_settle]
  refine .bind (.record rfl) fun _ => .get_bind fun s => ?_
  exact AgreeKept.lockstep_bind ((r.into .buffer).grows_attend hlogs here tag none _)
    (r.agreeKept_attend hbelow hlogs here tag _ (hstops frame path tag.view s.host))
    (fun _ => rfl) fun _ => .pure ()

lemma lockstep_renderNode (fuel : Nat) (here : Setting F) (node : Node) :
    Lockstep room error id ((r.into .buffer).renderNode below fuel here node)
      ((r.into (.limited ⟨some room, error, false⟩)).renderNode below' fuel here node) := by
  have h : Relates (fun _ => Lockstep room error id) (r.into .buffer) _ := r.relates_lockstep
  have hexpand := r.lockstep_expandLambda hbelow hlogs hstops here
  have hpartial := r.relatesNested_lockstep.renderPartial below below'
    fun template => hbelow (here.nested template)
  exact h.renderNode below below' (hbelow here) hexpand fuel fuel
    (fun elem => hbelow (here.inside elem)) (h.renderElements fuel) hpartial node

end

lemma lockstep_renderNodes (hstops : r.host.StopsOnFailure) (fuel : Nat) (here : Setting F)
    (range : NodeRange) :
    Lockstep room error id ((r.into .buffer).renderNodes fuel here range)
      ((r.into (.limited ⟨some room, error, false⟩)).renderNodes fuel here range) := by
  refine r.relates_lockstep.renderNodes (fun fuel here node hbelow => ?_) fuel here range
  exact r.lockstep_renderNode hbelow
    ((r.into .buffer).logs_renderNodes (fun h : False => h.elim) fuel) hstops fuel here node

lemma lockstep_render (hstops : r.host.StopsOnFailure) (fuel : Nat) (template : Template)
    (root : F) :
    Lockstep room error id ((r.into .buffer).render fuel template root)
      ((r.into (.limited ⟨some room, error, false⟩)).render fuel template root) :=
  (r.lockstep_renderNodes hstops _ _ _).bind fun _ => .ofWrite Sink.lockstep_finish

/-! ### Whole renderings -/

/-- How a run into a sink with room for so many bytes relates to the run into a buffer. -/
structure Truncates (room : Nat) (error : SinkError)
    (full cut : EStateM.Result Halt (RenderState F σ ByteArray) Unit) : Prop where
  buffer_eq : (reached full).sink = Text.bytes (writes (reached full).events).flatten
  sink_eq : (reached cut).sink = Text.bytes (writes (reached cut).events).flatten
  longest : LongestWithin room (writes (reached full).events) (writes (reached cut).events)
  /-- If everything was taken, the runs are the same. -/
  eq_of_writes_eq : writes (reached cut).events = writes (reached full).events → cut = full
  /-- If not, the run has failed with the error of the sink, and has asked it for nothing since. -/
  refused_of_writes_ne : writes (reached cut).events ≠ writes (reached full).events →
    outcome cut = .error (.failed (.write error)) ∧
    ∃ before after, (reached cut).events = before ++ .refused error :: after ∧
      ∀ e ∈ after, e.asksSink = false

lemma within_start (host : σ) :
    Within room (RenderState.start host .empty : RenderState F σ ByteArray) :=
  ⟨Text.bytes_nil.symm, Nat.zero_le room⟩

/-- A buffer holds the writes of a rendering, as it has as much room as they take. -/
lemma sink_render_buffer (hstops : r.host.StopsOnFailure) (fuel : Nat) (template : Template)
    (root : F) (host : σ) :
    (reached ((r.into .buffer).render fuel template root (.start host .empty))).sink =
      Text.bytes (writes (reached ((r.into .buffer).render fuel template root
        (.start host .empty))).events).flatten := by
  set full := (r.into .buffer).render fuel template root (.start host .empty)
  -- with just that much room a limited sink refuses nothing
  have hagree : Agree (Text.byteSize (writes (reached full).events).flatten) ⟨.full, []⟩ id
      full _ :=
    (r.lockstep_render hstops fuel template root).agree _ (within_start host)
  rcases hagree with ⟨-, hwithin⟩ | ⟨e, s, -, -, hshort⟩
  · exact hwithin.sink_eq
  · obtain ⟨hwithin, -, text, later, hwrites, hlt⟩ := hshort
    rw [hwithin.sink_eq, hwrites, Text.size_bytes, List.flatten_append, List.flatten_cons,
      Text.byteSize_append, Text.byteSize_append] at hlt
    omega

/-- A limited sink takes the longest beginning of the writes that fits. If that is all of them the
rendering ends as it would have otherwise, and if not, with the error of the sink at once. -/
theorem truncates_render_limited (hstops : r.host.StopsOnFailure) (room : Nat) (error : SinkError)
    (fuel : Nat) (template : Template) (root : F) (host : σ) :
    Truncates room error ((r.into .buffer).render fuel template root (.start host .empty))
      ((r.into (.limited ⟨some room, error, false⟩)).render fuel template root
        (.start host .empty)) := by
  have hbuffer := r.sink_render_buffer hstops fuel template root host
  rcases (r.lockstep_render hstops fuel template root).agree (.start host .empty)
    (within_start host) with ⟨hcut, hwithin⟩ | ⟨e, s, hcut, hhalt, hshort⟩
  · rw [hcut]
    have hsize : Text.byteSize (writes (reached ((r.into .buffer).render fuel template root
        (.start host .empty))).events).flatten ≤ room := by
      rw [← Text.size_bytes, ← hwithin.sink_eq]
      exact hwithin.size_le
    exact ⟨hbuffer, hwithin.sink_eq, .self hsize, fun _ => rfl, fun hne => absurd rfl hne⟩
  · obtain ⟨hwithin, hevents, text, later, hwrites, hlt⟩ := hshort
    have hsize : s.sink.size = Text.byteSize (writes s.events).flatten := by
      rw [hwithin.sink_eq, Text.size_bytes]
    obtain rfl : e = .failed (.write error) := hhalt
    rw [hcut]
    refine ⟨hbuffer, hwithin.sink_eq, ?_, fun heq => ?_, fun _ => ⟨rfl, hevents⟩⟩
    · rw [reached_error, hwrites]
      exact .of_lt (hsize ▸ hwithin.size_le) (hsize ▸ hlt)
    · rw [reached_error, hwrites] at heq
      simp at heq

/-- A lambda has three bytes written and then one more; there is room for the three. -/
theorem truncates_heedfulRun :
    ∃ t, Template.compile "{{#l}}{{/l}}".toList .standard = .ok t ∧
      (heedful ['<', 'b', '>']).StopsOnFailure ∧
      writes (reached (heedfulRun .buffer ['<', 'b', '>'] t)).events = [['<', 'b', '>'], ['x']] ∧
      Truncates 3 ⟨.full, []⟩ (heedfulRun .buffer ['<', 'b', '>'] t)
        (heedfulRun (.limited ⟨some 3, ⟨.full, []⟩, false⟩) ['<', 'b', '>'] t) := by
  have hrun : (Template.compile "{{#l}}{{/l}}".toList .standard).map
      (fun t => writes (reached (heedfulRun .buffer ['<', 'b', '>'] t)).events) =
        .ok [['<', 'b', '>'], ['x']] := by
    decide +kernel
  obtain ⟨t, hcompile, hrun⟩ := exists_eq_ok_of_map_eq_ok hrun
  exact ⟨t, hcompile, stopsOnFailure_heedful _, hrun, truncates_render_limited
    ⟨heedful ['<', 'b', '>'], Sink.buffer, .standard, fun _ => none⟩ (stopsOnFailure_heedful _) 3
    ⟨.full, []⟩ 3 t () ()⟩

end Renderer

end Mustache
