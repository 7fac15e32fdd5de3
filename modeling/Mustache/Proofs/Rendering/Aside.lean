import Mustache.Proofs.Rendering.Receiving

/-!
# Rendering aside

A text may be rendered in place, or aside, on an output of its own, where no partials are around
it. What was done in place can be done aside, since nothing is refused there. If nothing was written
under indentation in place, both outputs have received the same; otherwise they may differ, as
aside there is no such indentation.
-/

namespace Mustache

variable {F σ τ ε ε' α β : Type}

/-- The indentation under which something is about to be written. -/
def Event.indent : Event F → Text
  | .writing output => output.indent
  | _               => []

/-- From the one state to the other, something was written under indentation. -/
def IndentedSince (s s₁ : RenderState F σ τ) : Prop :=
  ∃ new, s₁.events = s.events ++ new ∧ ∃ e ∈ new, e.indent ≠ []

namespace IndentedSince

variable {s s₁ s₂ : RenderState F σ τ} {new : List (Event F)}

lemma grow (h : IndentedSince s s₁) (hnew : s₂.events = s₁.events ++ new) : IndentedSince s s₂ := by
  obtain ⟨before, hbefore, e, hmem, hindent⟩ := h
  refine ⟨before ++ new, ?_, e, List.mem_append_left new hmem, hindent⟩
  rw [hnew, hbefore, List.append_assoc]

lemma since (h : IndentedSince s₁ s₂) (hnew : s₁.events = s.events ++ new) :
    IndentedSince s s₂ := by
  obtain ⟨after, hafter, e, hmem, hindent⟩ := h
  refine ⟨new ++ after, ?_, e, List.mem_append_right new hmem, hindent⟩
  rw [hafter, hnew, List.append_assoc]

/-- Before anything is written, it is noted where the output stands. -/
lemma of_noteOutput {rest : Unit → WriteM F σ τ Unit} (hrest : ∀ u, Grows (rest u))
    (hindent : s.output.indent ≠ []) (hok : (Sink.noteOutput >>= rest) s = .ok () s₁) :
    IndentedSince s s₁ := by
  obtain ⟨new, hnew⟩ := hrest () (s.record (.writing s.output))
  have hok' : rest () (s.record (.writing s.output)) = .ok () s₁ := hok
  rw [hok', reached_ok, RenderState.events_record, List.append_assoc] at hnew
  exact ⟨_, hnew, .writing s.output, by simp, hindent⟩

end IndentedSince

/-- The first state renders aside, and the second with so much more indentation around it. -/
structure Apart (base : Text) (s s' : RenderState F σ τ) : Prop where
  host_eq : s'.host = s.host
  indent_eq : s'.output.indent = base ++ s.output.indent
  isSome : s.output.scratch.isSome

/-- Both outputs have received this text; some only if there is no indentation around it. -/
structure Echoed (base text : Text) (s s' s₁ s₁' : RenderState F σ τ) : Prop where
  apart : Apart base s₁ s₁'
  received : Received text s s₁
  received' : Received text s' s₁'
  base_eq : text ≠ [] → base = []

lemma Echoed.trans {base text more : Text} {s s' s₁ s₁' s₂ s₂' : RenderState F σ τ}
    (h : Echoed base text s s' s₁ s₁') (h₁ : Echoed base more s₁ s₁' s₂ s₂') :
    Echoed base (text ++ more) s s' s₂ s₂' where
  apart := h₁.apart
  received := h.received.trans h₁.received
  received' := h.received'.trans h₁.received'
  base_eq hne := by
    by_cases htext : text = []
    · exact h₁.base_eq fun hmore => hne (by rw [htext, hmore, List.append_nil])
    · exact h.base_eq htext

/-- The run in place has come to this value. If nothing was written under indentation, the run aside
has come to it too, and both outputs have received the same. -/
def Followed (base : Text) (s s' : RenderState F σ τ)
    (aside : EStateM.Result ε (RenderState F σ τ) α) (a : α) (s₁' : RenderState F σ τ) : Prop :=
  IndentedSince s' s₁' ∨ ∃ s₁ text, aside = .ok a s₁ ∧ Echoed base text s s' s₁ s₁'

namespace Followed

variable {base : Text} {s s' s₁' s₂' : RenderState F σ τ}

lemma trans {aside : EStateM.Result ε (RenderState F σ τ) α}
    {rest : EStateM.Result ε' (RenderState F σ τ) β} {a : α} {b : β}
    (h : Followed base s s' aside a s₁') (hnew : ∃ new, s₁'.events = s'.events ++ new)
    (hmore : ∃ more, s₂'.events = s₁'.events ++ more)
    (hrest : ∀ s₁, aside = .ok a s₁ → Apart base s₁ s₁' → Followed base s₁ s₁' rest b s₂') :
    Followed base s s' rest b s₂' := by
  obtain ⟨new, hnew⟩ := hnew
  obtain ⟨more, hmore⟩ := hmore
  rcases h with hindented | ⟨s₁, text, haside, hechoed⟩
  · exact .inl (hindented.grow hmore)
  · rcases hrest s₁ haside hechoed.apart with hindented | ⟨s₂, text', hrest, hechoed'⟩
    · exact .inl (hindented.since hnew)
    · exact .inr ⟨s₂, text ++ text', hrest, hechoed.trans hechoed'⟩

/-- Both go on without having received anything. -/
lemma of_nil {s₁ : RenderState F σ τ} {a : α} (hapart : Apart base s₁ s₁')
    (h : Received [] s s₁) (h' : Received [] s' s₁') :
    Followed base s s' (.ok a s₁ : EStateM.Result ε _ _) a s₁' :=
  .inr ⟨s₁, [], rfl, hapart, h, h', fun hne => absurd rfl hne⟩

/-- The states of the hosts in front do not matter. -/
lemma of_host {host host' : σ} {aside : EStateM.Result ε (RenderState F σ τ) α} {a : α}
    (h : Followed base { s with host := host } { s' with host := host' } aside a s₁') :
    Followed base s s' aside a s₁' := by
  refine h.imp (fun hindented => hindented) ?_
  rintro ⟨s₁, text, haside, hapart, hreceived, hreceived', hbase⟩
  exact ⟨s₁, text, haside, hapart,
    ⟨hreceived.indent_eq, hreceived.scratch_eq, hreceived.writes_eq⟩,
    ⟨hreceived'.indent_eq, hreceived'.scratch_eq, hreceived'.writes_eq⟩, hbase⟩

lemma record {e : Event F} (hapart : Apart base s s') (he : e.written? = none) (a : α) :
    Followed base s s' (.ok a (s.record e) : EStateM.Result ε _ _) a (s'.record e) :=
  of_nil ⟨hapart.host_eq, hapart.indent_eq, hapart.isSome⟩ (.record s he) (.record s' he)

end Followed

/-- Whatever is around it, the action is followed by itself aside. -/
structure Echoes (act : EStateM ε (RenderState F σ τ) α) : Prop where
  grows : Grows act
  followed : ∀ base s s', Apart base s s' → ∀ a s₁', act s' = .ok a s₁' →
    Followed base s s' (act s) a s₁'

namespace Echoes

variable {act : EStateM ε (RenderState F σ τ) α}

lemma pure (a : α) : Echoes (pure a : EStateM ε (RenderState F σ τ) α) where
  grows s := ⟨[], (List.append_nil _).symm⟩
  followed := by
    rintro base s s' hapart _ _ ⟨⟩
    exact .of_nil hapart (.nil rfl rfl) (.nil rfl rfl)

lemma throw (e : ε) : Echoes (throw e : EStateM ε (RenderState F σ τ) α) where
  grows s := ⟨[], (List.append_nil _).symm⟩
  followed := by
    rintro base s s' - a s₁' ⟨⟩

lemma bind {next : α → EStateM ε (RenderState F σ τ) β} (h : Echoes act)
    (hnext : ∀ a, Echoes (next a)) : Echoes (act >>= next) where
  grows := h.grows.bind fun a => (hnext a).grows
  followed base s s' hapart b s₂' hok := by
    rcases bind_eq_iff.1 hok with ⟨a, s₁', hact, hrest⟩ | ⟨e, s₁', -, hne⟩
    · have hnew := h.grows.exists_events hact
      have hmore := (hnext a).grows.exists_events hrest
      refine (h.followed base s s' hapart a s₁' hact).trans hnew hmore fun s₁ haside hapart₁ => ?_
      rw [bind_apply_of_ok haside]
      exact (hnext a).followed base s₁ s₁' hapart₁ b s₂' hrest
    · cases hne

/-- Of the state, only that of the host may be read. -/
lemma get_bind {next : RenderState F σ τ → EStateM ε (RenderState F σ τ) α}
    (hnext : ∀ s s', s'.host = s.host → next s' = next s) (h : ∀ s, Echoes (next s)) :
    Echoes (get >>= next) where
  grows s := (h s).grows s
  followed base s s' hapart a s₁' hok := by
    have hfollowed := (h s').followed base s s' hapart a s₁' hok
    rw [hnext s s' hapart.host_eq] at hfollowed
    exact hfollowed

lemma composes : ActionRel.Composes fun α (act _ : RenderM F σ τ α) => Echoes act where
  pure := pure
  bind := bind

lemma record {e : Event F} (he : e.written? = none) :
    Echoes (RenderM.record e : RenderM F σ τ Unit) where
  grows s := ⟨[e], RenderState.events_record s e⟩
  followed := by
    rintro base s s' hapart _ _ ⟨⟩
    exact .record hapart he ()

lemma ofWrite {act : WriteM F σ τ α} (h : Echoes act) : Echoes (RenderM.ofWrite act) where
  grows := h.grows.ofWrite
  followed base s s' hapart a s₁' hok := by
    cases hact : act s' with
    | error e s₂' =>
      rw [RenderM.ofWrite_of_error hact] at hok
      cases hok
    | ok a' s₂' =>
      rw [RenderM.ofWrite_of_ok hact] at hok
      cases hok
      refine (h.followed base s s' hapart _ _ hact).imp_right ?_
      rintro ⟨s₁, text, haside, hechoed⟩
      exact ⟨s₁, text, RenderM.ofWrite_of_ok haside, hechoed⟩

/-- What is written without indentation is written aside too. -/
lemma of_takes {text : Text} {rest : Unit → WriteM F σ τ Unit}
    (htakes : Takes text (Sink.noteOutput >>= rest)) (hrest : ∀ u, Grows (rest u)) :
    Echoes (Sink.noteOutput >>= rest) where
  grows := (Sink.logs_noteOutput : Logs False refusal _).grows.bind hrest
  followed base s s' hapart a s₁' hok := by
    by_cases hindent : s'.output.indent = []
    · obtain ⟨hbase, hs⟩ := List.append_eq_nil_iff.1 (hapart.indent_eq.symm.trans hindent)
      obtain ⟨s₁, haside⟩ := htakes.exists_ok s hs hapart.isSome
      have htook := htakes.took s s₁ hs haside
      have htook' := htakes.took s' s₁' hindent hok
      refine .inr ⟨s₁, text, haside, ⟨?_, ?_, ?_⟩, htook.toReceived, htook'.toReceived,
        fun _ => hbase⟩
      · rw [htook'.host_eq, htook.host_eq, hapart.host_eq]
      · rw [htook'.indent_eq, htook.indent_eq, hapart.indent_eq]
      · rw [htook.isSome_eq]
        exact hapart.isSome
    · exact .inl (.of_noteOutput hrest hindent hok)

end Echoes

namespace Sink

variable (sink : Sink τ)

lemma echoes_writeText (text : Text) : Echoes (sink.writeText text : WriteM F σ τ Unit) := by
  obtain ⟨rest, hwrite, hrest⟩ : ∃ rest, (sink.writeText text : WriteM F σ τ Unit) =
      noteOutput >>= rest ∧ ∀ u, Logs False refusal (rest u) := sink.exists_writeText_eq text
  have htakes : Takes text (sink.writeText text : WriteM F σ τ Unit) := sink.takes_writeText text
  rw [hwrite] at htakes ⊢
  exact .of_takes htakes fun u => (hrest u).grows

lemma echoes_writeData (text : Text) (escaped : Bool) :
    Echoes (sink.writeData text escaped : WriteM F σ τ Unit) := by
  obtain ⟨rest, hwrite, hrest⟩ : ∃ rest, (sink.writeData text escaped : WriteM F σ τ Unit) =
      noteOutput >>= rest ∧ ∀ u, Logs False refusal (rest u) :=
    sink.exists_writeData_eq text escaped
  have htakes : Takes _ (sink.writeData text escaped : WriteM F σ τ Unit) :=
    sink.takes_writeData text escaped
  rw [hwrite] at htakes ⊢
  exact .of_takes htakes fun u => (hrest u).grows

end Sink

/-! ### Asking the host -/

/-- Once the host is done and no call of it has failed, both go on with its answer. -/
lemma Echoes.settle_bind {act : RenderM F σ τ (Option ε × HostResult)} (hgrows : Grows act)
    (hact : ∀ base s s', Apart base s s' → ∀ result s₁', act s' = .ok (none, result) s₁' →
      Followed base s s' (act s) (none, result) s₁')
    {report : ε → RenderError} {path : Path} {done : HostResult → Event F}
    {next : Resolution → RenderM F σ τ α} (hdone : ∀ result, (done result).written? = none)
    (hnext : ∀ answer, Echoes (next answer)) :
    Echoes (act >>= settle report path done next) := by
  have hsettle (answer : Option ε × HostResult) : Echoes (settle report path done next answer) := by
    refine (Echoes.record (hdone answer.2)).bind fun _ => ?_
    rcases answer with ⟨_ | e, _ | a⟩
    · exact .throw _
    · exact hnext a
    · exact .throw _
    · exact .throw _
  refine ⟨hgrows.bind fun answer => (hsettle answer).grows, fun base s s' hapart b s₂' hok => ?_⟩
  rcases bind_eq_iff.1 hok with ⟨⟨failure, result⟩, s₁', hact', hrest⟩ | ⟨e, s₁', -, hne⟩
  · cases failure with
    | some e => cases hrest
    | none =>
      have hnew := hgrows.exists_events hact'
      have hmore := (hsettle (none, result)).grows.exists_events hrest
      refine (hact base s s' hapart result s₁' hact').trans hnew hmore fun s₁ haside hapart₁ => ?_
      rw [bind_apply_of_ok haside]
      exact (hsettle (none, result)).followed base s₁ s₁' hapart₁ b s₂' hrest
  · cases hne

namespace Renderer

variable (r : Renderer F σ τ)

lemma echoes_lookUp (frame : F) (path : Path) (index : Nat) :
    Echoes (r.lookUp frame path index) where
  grows _ := ⟨_, RenderState.events_record _ _⟩
  followed := by
    rintro base s s' hapart _ _ ⟨⟩
    rw [hapart.host_eq]
    exact .of_nil ⟨rfl, hapart.indent_eq, hapart.isSome⟩
      (.nil rfl (congrArg List.flatten (RenderState.writes_record { s with host := _ } rfl)))
      (.nil rfl (congrArg List.flatten (RenderState.writes_record { s' with host := _ } rfl)))

lemma followed_serve (escaped : Bool) (call : Interpolation σ) {base : Text}
    {s s' : RenderState F σ τ} (hapart : Apart base s s') {result : HostResult}
    {s₁' : RenderState F σ τ} (hok : r.serve escaped none call s' = .ok (none, result) s₁') :
    Followed base s s' (r.serve escaped none call s) (none, result) s₁' := by
  have hgrows (call : Interpolation σ) : Grows (r.serve escaped none call : RenderM F σ τ _) :=
    Keeps.grows (r.keeps_serve escaped call)
  induction call generalizing s s' with
  | answer result host =>
    cases hok
    exact .of_nil ⟨rfl, hapart.indent_eq, hapart.isSome⟩ (.nil rfl rfl) (.nil rfl rfl)
  | remark remark next ih =>
    have hok' : r.serve escaped none next (s'.record (.remarked remark)) = .ok (none, result) s₁' :=
      hok
    have hremarked : Followed base s s' (.ok () (s.record (.remarked remark)) :
        EStateM.Result Halt _ _) () (s'.record (.remarked remark)) := .record hapart rfl ()
    refine hremarked.trans ⟨_, RenderState.events_record _ _⟩ ((hgrows next).exists_events hok') ?_
    rintro _ ⟨⟩ hapart₁
    exact ih hapart₁ hok'
  | write raw text next ih =>
    have hechoes : Echoes (r.sink.writeData text (escaped && !raw) : WriteM F σ τ Unit) :=
      r.sink.echoes_writeData text _
    cases hwrite : r.sink.writeData text (escaped && !raw) s' with
    | error e s₂' =>
      obtain ⟨result', s₃', hserve, -⟩ :=
        r.exists_serve_of_failure escaped e (next (.error e.kind)) s₂'
      rw [r.serve_write_of_error hwrite, hserve] at hok
      cases hok
    | ok a s₂' =>
      rw [r.serve_write_of_ok hwrite] at hok
      have hnew := hechoes.grows.exists_events hwrite
      have hmore := (hgrows (next (.ok ()))).exists_events hok
      refine (hechoes.followed base s s' hapart a s₂' hwrite).trans hnew hmore ?_
      intro s₁ haside hapart₁
      rw [r.serve_write_of_ok haside]
      exact ih (.ok ()) hapart₁ hok

lemma echoes_interpolate (frame : F) (path : Path) (escaped : Bool) :
    Echoes (r.interpolate frame path escaped) := by
  rw [interpolate_eq_settle]
  refine .get_bind (fun s s' h => by rw [h]) fun s => ?_
  exact .settle_bind (Keeps.grows (r.keeps_serve escaped _))
    (fun _ _ _ hapart _ _ hok => r.followed_serve escaped _ hapart hok) (fun _ => rfl)
    fun answer => .pure answer

/-! ### Nested renderings -/

lemma echoes_checkDepth (depth : Nat) (name : Text) : Echoes (r.checkDepth depth name) := by
  rw [checkDepth]
  split
  · exact (Echoes.record rfl).bind fun _ => .throw _
  · exact .pure _

section

variable {act : RenderM F σ τ Unit} (h : Echoes act)

include h

lemma echoes_enclosed (name indent : Text) : Echoes (enclosed name indent act) where
  grows := by
    rw [enclosed_eq_bracket]
    exact h.grows.bracket (fun _ => ⟨_, RenderState.events_record _ _⟩)
      fun _ _ => ⟨_, RenderState.events_record _ _⟩
  followed base s s' hapart a s₂' hok := by
    rw [enclosed] at hok
    cases hact : act (s'.record (.entered name indent)) with
    | error e s₁' =>
      rw [hact] at hok
      cases hok
    | ok u s₁' =>
      rw [hact] at hok
      cases hok
      obtain ⟨new, hnew⟩ := h.grows.exists_events hact
      have hleft : (s₁'.record .left).events =
          (s'.record (.entered name indent)).events ++ (new ++ [.left]) := by
        rw [RenderState.events_record, hnew, List.append_assoc]
      have hentered : Followed base s s' (.ok () (s.record (.entered name indent)) :
          EStateM.Result Halt _ _) () (s'.record (.entered name indent)) := .record hapart rfl ()
      refine hentered.trans ⟨_, RenderState.events_record _ _⟩ ⟨_, hleft⟩ ?_
      rintro _ ⟨⟩ hapart₀
      refine (h.followed base _ _ hapart₀ u s₁' hact).trans ⟨new, hnew⟩
        ⟨_, RenderState.events_record _ _⟩ fun s₁ haside hapart₁ => ?_
      rw [enclosed, haside]
      exact .record hapart₁ rfl ()

lemma echoes_indented (indent : Text) : Echoes (indented indent act) where
  grows := by
    rw [indented_eq_bracket]
    exact h.grows.bracket (fun _ => ⟨[], (List.append_nil _).symm⟩)
      fun _ _ => ⟨[], (List.append_nil _).symm⟩
  followed base s s' hapart a s₂' hok := by
    rw [indented] at hok
    cases hact : act
        { s' with output := { s'.output with indent := s'.output.indent ++ indent } } with
    | error e s₁' =>
      rw [hact] at hok
      cases hok
    | ok u s₁' =>
      rw [hact] at hok
      cases hok
      have hinside : Apart base
          { s with output := { s.output with indent := s.output.indent ++ indent } }
          { s' with output := { s'.output with indent := s'.output.indent ++ indent } } :=
        ⟨hapart.host_eq, by simp [hapart.indent_eq], hapart.isSome⟩
      refine (h.followed base _ _ hinside u s₁' hact).imp (fun hindented => hindented) ?_
      rintro ⟨s₁, text, haside, hapart₁, hreceived, hreceived', hbase⟩
      have hindent : s₁.output.indent.take s.output.indent.length = s.output.indent := by
        rw [hreceived.indent_eq, List.take_left]
      have hindent' : s₁'.output.indent.take s'.output.indent.length = s'.output.indent := by
        rw [hreceived'.indent_eq, List.take_left]
      refine ⟨{ s₁ with output :=
          { s₁.output with indent := s₁.output.indent.take s.output.indent.length } }, text,
        by rw [indented, haside], ⟨hapart₁.host_eq, ?_, hapart₁.isSome⟩,
        ⟨hindent, hreceived.scratch_eq, hreceived.writes_eq⟩,
        ⟨hindent', hreceived'.scratch_eq, hreceived'.writes_eq⟩, hbase⟩
      exact hindent'.trans (hapart.indent_eq.trans (congrArg (base ++ ·) hindent.symm))

/-- Aside, both outputs start empty and receive the same. -/
lemma echoes_onAside : Echoes (onAside act) where
  grows := by
    rw [onAside_eq_bracket]
    exact h.grows.bracket (fun _ => ⟨[], (List.append_nil _).symm⟩)
      fun _ _ => ⟨[], (List.append_nil _).symm⟩
  followed base s s' hapart a s₂' hok := by
    rw [onAside] at hok
    cases hact : act { s' with output := .aside } with
    | error e s₁' =>
      rw [hact] at hok
      cases hok
    | ok u s₁' =>
      rw [hact] at hok
      cases hok
      have hinside : Apart [] { s with output := .aside } { s' with output := .aside } :=
        ⟨hapart.host_eq, rfl, rfl⟩
      refine (h.followed [] _ _ hinside u s₁' hact).imp (fun hindented => hindented) ?_
      rintro ⟨s₁, text, haside, hapart₁, hreceived, hreceived', -⟩
      have hread : readScratch s₁'.output = readScratch s₁.output := by
        rw [readScratch, readScratch, hreceived.scratch_eq, hreceived'.scratch_eq]
      refine ⟨{ s₁ with output := s.output }, [], ?_,
        ⟨hapart₁.host_eq, hapart.indent_eq, hapart.isSome⟩, ?_, ?_, fun hne => absurd rfl hne⟩
      · rw [onAside, haside, hread]
      · exact .nil rfl (hreceived.writes_eq.trans (List.append_nil _))
      · exact .nil rfl (hreceived'.writes_eq.trans (List.append_nil _))

end

lemma relates_echoes : Relates (fun _ act _ => Echoes act) r r where
  toComposes := Echoes.composes
  escaping_eq := rfl
  unfinished := .throw _
  lookUp_bind := Echoes.composes.keptByLookUp r r (fun _ _ => .throw _) r.echoes_lookUp
  interpolate := r.echoes_interpolate
  writeText _ := .ofWrite (r.sink.echoes_writeText _)

lemma relatesNested_echoes : RelatesNested (fun _ act _ => Echoes act) r r where
  toComposes := Echoes.composes
  partials_eq := rfl
  checkDepth_bind depth name _ _ h := (r.echoes_checkDepth depth name).bind fun _ => h
  reject _ := (Echoes.record rfl).bind fun _ => .throw _
  enclosed name indent _ _ h := echoes_enclosed h name indent
  indented indent _ _ h := echoes_indented h indent
  onAside h := echoes_onAside h
  writeData _ _ := .ofWrite (r.sink.echoes_writeData _ _)

/-! ### Lambdas and nodes -/

section

variable {below : Nested F σ τ} (hbelow : ∀ here range, Echoes (below here range))

include hbelow

lemma echoes_renderLambdaText (here : Setting F) (tag : LambdaTag) (text : Text) :
    Echoes (r.renderLambdaText below here tag text) :=
  r.relatesNested_echoes.renderLambdaText below below
    (fun template => hbelow (here.nested template)) tag text

variable (hlogs : ∀ here range, Logs False id (below here range))

include hlogs

/-- A lambda none of whose calls has failed. -/
lemma followed_attend (here : Setting F) (tag : LambdaTag) (call : Expansion σ) {base : Text}
    {s s' : RenderState F σ τ} (hapart : Apart base s s') {result : HostResult}
    {s₁' : RenderState F σ τ}
    (hok : r.attend below here tag none call s' = .ok (none, result) s₁') :
    Followed base s s' (r.attend below here tag none call s) (none, result) s₁' := by
  have hgrows := r.grows_attend hlogs here tag none
  induction call generalizing s s' with
  | answer result host =>
    cases hok
    exact .of_nil ⟨rfl, hapart.indent_eq, hapart.isSome⟩ (.nil rfl rfl) (.nil rfl rfl)
  | remark remark next ih =>
    have hok' : r.attend below here tag none next (s'.record (.remarked remark)) =
        .ok (none, result) s₁' := hok
    have hmore := (hgrows next).exists_events hok'
    have hremarked : Followed base s s' (.ok () (s.record (.remarked remark)) :
        EStateM.Result Halt _ _) () (s'.record (.remarked remark)) := .record hapart rfl ()
    refine hremarked.trans ⟨_, RenderState.events_record _ _⟩ hmore ?_
    rintro _ ⟨⟩ hapart₁
    exact ih hapart₁ hok'
  | write text next ih =>
    obtain ⟨s₂', hwrite, hok⟩ := r.exists_of_attend_write hlogs hok
    have hechoes : Echoes (r.sink.writeData text tag.escapes : WriteM F σ τ Unit) :=
      r.sink.echoes_writeData text _
    have hnew := hechoes.grows.exists_events hwrite
    have hmore := (hgrows (next true)).exists_events hok
    refine (hechoes.followed base s s' hapart () s₂' hwrite).trans hnew hmore ?_
    intro s₁ haside hapart₁
    rw [r.attend_write_of_ok haside]
    exact ih true hapart₁ hok
  | render text host next ih =>
    obtain ⟨s₂', hrender, hok⟩ := r.exists_of_attend_render hlogs hok
    have hechoes := r.echoes_renderLambdaText hbelow here tag text
    have hhost : Apart base { s with host } { s' with host } :=
      ⟨rfl, hapart.indent_eq, hapart.isSome⟩
    have hnew := hechoes.grows.exists_events hrender
    have hmore := (hgrows (next true s₂'.host)).exists_events hok
    refine (hechoes.followed base _ _ hhost () s₂' hrender).of_host.trans hnew hmore ?_
    intro s₁ haside hapart₁
    rw [r.attend_render_of_ok haside, ← hapart₁.host_eq]
    exact ih true s₂'.host hapart₁ hok

lemma echoes_expandLambda (here : Setting F) (frame : F) (path : Path) (tag : LambdaTag) :
    Echoes (r.expandLambda below here frame path tag) := by
  rw [expandLambda_eq_settle]
  refine (Echoes.record rfl).bind fun _ => .get_bind (fun s s' h => by rw [h]) fun s => ?_
  exact .settle_bind (r.grows_attend hlogs here tag none _)
    (fun _ _ _ hapart _ _ hok => r.followed_attend hbelow hlogs here tag _ hapart hok)
    (fun _ => rfl) fun _ => .pure ()

lemma echoes_renderNode (fuel : Nat) (here : Setting F) (node : Node) :
    Echoes (r.renderNode below fuel here node) := by
  have h := r.relates_echoes
  have hpartial := r.relatesNested_echoes.renderPartial below below
    fun template => hbelow (here.nested template)
  exact h.renderNode below below (hbelow here) (r.echoes_expandLambda hbelow hlogs here) fuel fuel
    (fun elem => hbelow (here.inside elem)) (h.renderElements fuel) hpartial node

end

lemma echoes_renderNodes (fuel : Nat) (here : Setting F) (range : NodeRange) :
    Echoes (r.renderNodes fuel here range) := by
  have hlogs := r.logs_renderNodes (fun h : False => h.elim)
  refine r.relates_echoes.renderNodes (fun fuel here node hbelow => ?_) fuel here range
  exact r.echoes_renderNode hbelow (hlogs fuel) fuel here node

end Renderer

end Mustache
