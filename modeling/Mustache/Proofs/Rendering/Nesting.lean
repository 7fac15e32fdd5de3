import Mustache.Proofs.Rendering.FirstFailure

/-!
# Nesting

Partials and the texts that lambdas have rendered are nested in one another, with sections between
them. The history tells when each begins and ends, so it tells at each moment which of them are
being rendered. What an action adds to the history begins and ends as many, and at no moment are
more of them under way than the options allow.

Each time one more is to be rendered, the history tells what came of it, and this tells in turn how
many were under way: one is said to be nested too deep just when there were as many as the options
allow, and a text is rejected just when there were less and it is no template.
-/

namespace Mustache

variable {F σ τ ε α β : Type}

/-! ### What is being rendered -/

/-- What is being rendered after an event, innermost first. -/
def Event.underway : List Text → Event F → List Text
  | names, entered name _ => name :: names
  | names, left           => names.tail
  | names, _              => names

/-- The partials and texts of lambdas that are being rendered after these events, innermost
first. -/
def underway (events : List (Event F)) : List Text := events.foldl Event.underway []

/-- Whether a nested rendering begins or ends. -/
def Event.isNesting : Event F → Bool
  | entered _ _ => true
  | left        => true
  | _           => false

lemma Event.underway_of_isNesting_eq_false {e : Event F} (h : e.isNesting = false)
    (names : List Text) : e.underway names = names := by
  cases e with
  | entered name indent => simp [isNesting] at h
  | left => simp [isNesting] at h
  | _ => rfl

/-! ### What is said of the nesting -/

/-- As the host goes on, it may have this text rendered. -/
inductive Expansion.Asks (text : Text) : Expansion σ → Prop
  | render (state : σ) (next : Bool → σ → Expansion σ) : Asks text (.render text state next)
  | afterRender {other : Text} {state : σ} {next : Bool → σ → Expansion σ} (done : Bool) (s : σ)
      (h : Asks text (next done s)) : Asks text (.render other state next)
  | afterWrite {written : Text} {next : Bool → Expansion σ} (done : Bool)
      (h : Asks text (next done)) : Asks text (.write written next)
  | afterRemark {remark : Remark} {next : Expansion σ} (h : Asks text next) :
      Asks text (.remark remark next)

/-- Some lambda of the host may have this text rendered. -/
def Host.Asks (host : Host F σ) (text : Text) : Prop :=
  ∃ frame path view s, (host.expand frame path view s).Asks text

/-- How many nested renderings there may be at once, and with which errors a text that is no
template may be rejected. -/
structure NestingRules where
  limit : Nat
  Rejects : ParseError → Prop

/-- The rules of a renderer: a text is rejected with the error that it does not compile for. -/
def Renderer.rules (r : Renderer F σ τ) : NestingRules where
  limit := r.options.maxDepth
  Rejects e := ∃ text d, r.host.Asks text ∧ Template.compile text d = .error e

/-- Whether the event says what came of a request for one more nested rendering. -/
def Event.answersRequest : Event F → Bool
  | entered _ _ => true
  | tooDeep _ _ => true
  | rejected _  => true
  | _           => false

/-- What an event says of the moment at which it happens, with so many nested renderings under
way. -/
def Event.Fits (rules : NestingRules) (level : Nat) : Event F → Prop
  | entered _ _     => level < rules.limit
  | tooDeep limit _ => limit = rules.limit ∧ level = rules.limit
  | rejected e      => level < rules.limit ∧ rules.Rejects e
  | _               => True

/-- Each of the events fits the moment at which it happens, if these are under way before. -/
def FitFrom (rules : NestingRules) : List Text → List (Event F) → Prop
  | _,     []          => True
  | names, e :: events => e.Fits rules names.length ∧ FitFrom rules (e.underway names) events

lemma fitFrom_append {rules : NestingRules} {names : List Text} {events later : List (Event F)} :
    FitFrom rules names (events ++ later) ↔
      FitFrom rules names events ∧ FitFrom rules (events.foldl Event.underway names) later := by
  induction events generalizing names with
  | nil => simp [FitFrom]
  | cons e events ih => simp [FitFrom, ih, and_assoc]

/-- Where one more is begun, there were less than there may be. -/
lemma FitFrom.length_le {rules : NestingRules} {names : List Text} {events : List (Event F)}
    (h : FitFrom rules names events) (hnames : names.length ≤ rules.limit) :
    (events.foldl Event.underway names).length ≤ rules.limit := by
  induction events generalizing names with
  | nil => exact hnames
  | cons e events ih =>
    obtain ⟨hfits, hlater⟩ := h
    apply ih hlater
    cases e with
    | entered name indent => exact hfits
    | left => exact Nat.le_trans (List.tail_sublist names).length_le hnames
    | _ => exact hnames

/-- With `depth` nested renderings under way, these events begin and end as many, and each of them
fits the moment at which it happens. -/
structure NestsWithin (rules : NestingRules) (depth : Nat) (events : List (Event F)) : Prop where
  foldl_eq : ∀ names, events.foldl Event.underway names = names
  fitFrom : ∀ names, names.length = depth → FitFrom rules names events

namespace NestsWithin

variable {rules : NestingRules} {depth : Nat} {events more : List (Event F)}

lemma nil : NestsWithin rules depth ([] : List (Event F)) where
  foldl_eq _ := rfl
  fitFrom _ _ := trivial

lemma append (h : NestsWithin rules depth events) (hmore : NestsWithin rules depth more) :
    NestsWithin rules depth (events ++ more) where
  foldl_eq names := by rw [List.foldl_append, h.foldl_eq, hmore.foldl_eq]
  fitFrom names hnames := by
    rw [fitFrom_append, h.foldl_eq]
    exact ⟨h.fitFrom names hnames, hmore.fitFrom names hnames⟩

/-- An event of its own. -/
lemma singleton {e : Event F} (he : e.isNesting = false) (hfits : e.Fits rules depth) :
    NestsWithin rules depth [e] where
  foldl_eq names := e.underway_of_isNesting_eq_false he names
  fitFrom _ hnames := ⟨hnames ▸ hfits, trivial⟩

/-- One more nested rendering, from its beginning to its end. -/
lemma enclosed (h : NestsWithin rules (depth + 1) events) (hlt : depth < rules.limit)
    (name indent : Text) :
    NestsWithin rules depth (.entered name indent :: (events ++ [.left])) where
  foldl_eq names := by
    rw [List.foldl_cons, List.foldl_append, h.foldl_eq]
    rfl
  fitFrom names hnames := by
    constructor
    · exact hnames ▸ hlt
    · rw [fitFrom_append]
      exact ⟨h.fitFrom (name :: names) (congrArg (· + 1) hnames), trivial, trivial⟩

end NestsWithin

/-- What has happened from one state to the other nests within the rules. -/
def WithinDepth (rules : NestingRules) (depth : Nat) (s s₁ : RenderState F σ τ) : Prop :=
  ∃ new, s₁.events = s.events ++ new ∧ NestsWithin rules depth new

/-- Whatever the state, what the action adds to the history nests within the rules. -/
def KeepsDepth (rules : NestingRules) (depth : Nat) (act : EStateM ε (RenderState F σ τ) α) :
    Prop :=
  ∀ s, WithinDepth rules depth s (reached (act s))

namespace WithinDepth

variable {rules : NestingRules} {depth : Nat} {s s₁ s₂ : RenderState F σ τ}

lemma of_events_eq (h : s₁.events = s.events) : WithinDepth rules depth s s₁ :=
  ⟨[], h.trans (List.append_nil _).symm, .nil⟩

lemma record (s : RenderState F σ τ) {e : Event F} (he : e.isNesting = false)
    (hfits : e.Fits rules depth) : WithinDepth rules depth s (s.record e) :=
  ⟨[e], RenderState.events_record s e, .singleton he hfits⟩

lemma trans (h : WithinDepth rules depth s s₁) (h₁ : WithinDepth rules depth s₁ s₂) :
    WithinDepth rules depth s s₂ := by
  obtain ⟨new, hnew, hnests⟩ := h
  obtain ⟨more, hmore, hnests₁⟩ := h₁
  exact ⟨new ++ more, by rw [hmore, hnew, List.append_assoc], hnests.append hnests₁⟩

end WithinDepth

namespace KeepsDepth

variable {rules : NestingRules} {depth : Nat} {act : EStateM ε (RenderState F σ τ) α}

lemma pure (a : α) : KeepsDepth rules depth (pure a : EStateM ε (RenderState F σ τ) α) :=
  fun _ => .of_events_eq rfl

lemma throw (e : ε) : KeepsDepth rules depth (throw e : EStateM ε (RenderState F σ τ) α) :=
  fun _ => .of_events_eq rfl

lemma bind {next : α → EStateM ε (RenderState F σ τ) β} (h : KeepsDepth rules depth act)
    (hnext : ∀ a, KeepsDepth rules depth (next a)) : KeepsDepth rules depth (act >>= next) := by
  intro s
  have hact := h s
  cases hresult : act s with
  | ok a s' =>
    rw [hresult] at hact
    rw [bind_apply_of_ok hresult]
    exact hact.trans (hnext a s')
  | error e s' =>
    rw [hresult] at hact
    rw [bind_apply_of_error hresult]
    exact hact

lemma get_bind {next : RenderState F σ τ → EStateM ε (RenderState F σ τ) α}
    (h : ∀ s, KeepsDepth rules depth (next s)) : KeepsDepth rules depth (get >>= next) :=
  fun s => h s s

lemma modify {f : RenderState F σ τ → RenderState F σ τ} (h : ∀ s, (f s).events = s.events) :
    KeepsDepth rules depth (modify f : EStateM ε (RenderState F σ τ) PUnit) :=
  fun s => .of_events_eq (h s)

lemma record {e : Event F} (he : e.isNesting = false) (hfits : e.Fits rules depth) :
    KeepsDepth rules depth (RenderM.record e : RenderM F σ τ Unit) :=
  fun s => .record s he hfits

lemma forM {γ : Type} {step : γ → EStateM ε (RenderState F σ τ) PUnit} (xs : List γ)
    (h : ∀ x, KeepsDepth rules depth (step x)) : KeepsDepth rules depth (xs.forM step) := by
  induction xs with
  | nil => exact pure _
  | cons x xs ih => exact (h x).bind fun _ => ih

lemma ofWrite {act : WriteM F σ τ α} (h : KeepsDepth rules depth act) :
    KeepsDepth rules depth (RenderM.ofWrite act) := by
  intro s
  rw [RenderM.reached_ofWrite]
  exact h s

/-- Changes of the state around an action that leave the history alone. -/
lemma bracket {enter : RenderState F σ τ → RenderState F σ τ} {value : α → RenderState F σ τ → β}
    {leave : RenderState F σ τ → RenderState F σ τ → RenderState F σ τ}
    (h : KeepsDepth rules depth act) (henter : ∀ s, (enter s).events = s.events)
    (hleave : ∀ s s', (leave s s').events = s'.events) :
    KeepsDepth rules depth (bracket enter value leave act) := by
  intro s
  obtain ⟨new, hnew, hnests⟩ := h (enter s)
  exact ⟨new, by rw [reached_bracket, hleave, hnew, henter], hnests⟩

end KeepsDepth

/-! ### Writing -/

section

variable {rules : NestingRules} {depth : Nat}

namespace Sink

variable (sink : Sink τ)

lemma keepsDepth_put (text : Text) :
    KeepsDepth rules depth (sink.put text : WriteM F σ τ Unit) := by
  intro s
  rw [put]
  cases s.output.scratch with
  | some kept => exact .of_events_eq rfl
  | none =>
    cases sink.write text.bytes s.sink with
    | mk result after =>
      cases result with
      | ok _ => exact ⟨[.wrote text], RenderState.events_record _ _, .singleton rfl trivial⟩
      | error e => exact ⟨[.refused e], RenderState.events_record _ _, .singleton rfl trivial⟩

lemma keepsDepth_noteOutput : KeepsDepth rules depth (noteOutput : WriteM F σ τ Unit) :=
  fun s => .record s rfl trivial

lemma keepsDepth_emit (text : Text) :
    KeepsDepth rules depth (sink.emit text : WriteM F σ τ Unit) :=
  (sink.keepsDepth_put text).bind fun _ => .modify fun _ => rfl

lemma keepsDepth_emitEscaped (text : Text) :
    KeepsDepth rules depth (sink.emitEscaped text : WriteM F σ τ Unit) :=
  (KeepsDepth.forM _ sink.keepsDepth_put).bind fun _ => .modify fun _ => rfl

lemma keepsDepth_indent : KeepsDepth rules depth (sink.indent : WriteM F σ τ Unit) := by
  apply KeepsDepth.get_bind
  intro s
  dsimp only
  split
  · exact sink.keepsDepth_put s.output.indent
  · exact .pure _

lemma keepsDepth_writeText (text : Text) :
    KeepsDepth rules depth (sink.writeText text : WriteM F σ τ Unit) := by
  apply keepsDepth_noteOutput.bind
  intro _
  split
  · exact .pure _
  · apply KeepsDepth.get_bind
    intro s
    split
    · exact sink.keepsDepth_emit text
    · exact .forM _ fun line => sink.keepsDepth_indent.bind fun _ => sink.keepsDepth_emit line

lemma keepsDepth_writeData (text : Text) (escaped : Bool) :
    KeepsDepth rules depth (sink.writeData text escaped : WriteM F σ τ Unit) := by
  apply keepsDepth_noteOutput.bind
  intro _
  split
  · exact .pure _
  · apply sink.keepsDepth_indent.bind
    intro _
    cases escaped with
    | true => exact sink.keepsDepth_emitEscaped text
    | false => exact sink.keepsDepth_emit text

lemma keepsDepth_finish : KeepsDepth rules depth (sink.finish : WriteM F σ τ Unit) := by
  intro s
  rw [finish]
  cases sink.flush s.sink with
  | mk result after =>
    cases result with
    | ok _ => exact ⟨[.flushed (.ok ())], RenderState.events_record _ _, .singleton rfl trivial⟩
    | error e =>
      exact ⟨[.flushed (.error e)], RenderState.events_record _ _, .singleton rfl trivial⟩

end Sink

/-! ### Asking the host -/

lemma keepsDepth_settle {report : ε → RenderError} {path : Path} {done : HostResult → Event F}
    {next : Resolution → RenderM F σ τ α} (hdone : ∀ result, (done result).isNesting = false)
    (hfits : ∀ result, (done result).Fits rules depth)
    (hnext : ∀ answer, KeepsDepth rules depth (next answer)) (answer : Option ε × HostResult) :
    KeepsDepth rules depth (settle report path done next answer) := by
  apply (KeepsDepth.record (hdone answer.2) (hfits answer.2)).bind
  intro _
  rcases answer with ⟨_ | e, _ | a⟩
  · exact .throw _
  · exact hnext a
  · exact .throw _
  · exact .throw _

namespace Renderer

variable (r : Renderer F σ τ)

lemma keepsDepth_lookUp (frame : F) (path : Path) (index : Nat) :
    KeepsDepth rules depth (r.lookUp frame path index) :=
  fun _ => ⟨_, RenderState.events_record _ _, .singleton rfl trivial⟩

lemma keepsDepth_serve (escaped : Bool) (failure : Option SinkError) (call : Interpolation σ) :
    KeepsDepth rules depth (r.serve escaped failure call) := by
  induction call generalizing failure with
  | answer result host => exact fun _ => .of_events_eq rfl
  | remark remark next ih =>
    intro s
    have hremarked : WithinDepth rules depth s (s.record (.remarked remark)) :=
      .record s rfl trivial
    exact hremarked.trans (ih failure _)
  | write raw text next ih =>
    intro s
    cases failure with
    | some e => exact ih (.error e.kind) (some e) s
    | none =>
      have hwritten : WithinDepth rules depth s (reached _) :=
        r.sink.keepsDepth_writeData text (escaped && !raw) s
      cases hwrite : r.sink.writeData text (escaped && !raw) s with
      | ok a s₁ =>
        rw [hwrite] at hwritten
        rw [r.serve_write_of_ok hwrite]
        exact hwritten.trans (ih (.ok ()) none s₁)
      | error e s₁ =>
        rw [hwrite] at hwritten
        rw [r.serve_write_of_error hwrite]
        exact hwritten.trans (ih (.error e.kind) (some e) s₁)

lemma keepsDepth_interpolate (frame : F) (path : Path) (escaped : Bool) :
    KeepsDepth rules depth (r.interpolate frame path escaped) := by
  rw [interpolate_eq_settle]
  apply KeepsDepth.get_bind
  intro s
  apply (r.keepsDepth_serve escaped none _).bind
  exact keepsDepth_settle (fun _ => rfl) (fun _ => trivial) fun answer => .pure answer

lemma composes_keepsDepth :
    ActionRel.Composes fun α (act _ : RenderM F σ τ α) => KeepsDepth rules depth act where
  pure := .pure
  bind := .bind

lemma relates_keepsDepth : Relates (fun _ act _ => KeepsDepth rules depth act) r r where
  toComposes := composes_keepsDepth
  escaping_eq := rfl
  unfinished := .throw _
  lookUp_bind := composes_keepsDepth.keptByLookUp r r (fun _ _ => .throw _) r.keepsDepth_lookUp
  interpolate := r.keepsDepth_interpolate
  writeText _ := .ofWrite (r.sink.keepsDepth_writeText _)

end Renderer

end

/-! ### Nested renderings -/

namespace Renderer

/-- A nested rendering is one more, from the event that it begins with to the one it ends with. -/
lemma keepsDepth_enclosed {rules : NestingRules} {depth : Nat} {act : RenderM F σ τ Unit}
    (h : KeepsDepth rules (depth + 1) act) (hlt : depth < rules.limit) (name indent : Text) :
    KeepsDepth rules depth (enclosed name indent act) := by
  intro s
  obtain ⟨new, hnew, hnests⟩ := h (s.record (.entered name indent))
  refine ⟨.entered name indent :: (new ++ [.left]), ?_, hnests.enclosed hlt name indent⟩
  rw [enclosed_eq_bracket, reached_bracket, RenderState.events_record, hnew,
    RenderState.events_record]
  simp

lemma keepsDepth_indented {rules : NestingRules} {depth : Nat} {act : RenderM F σ τ Unit}
    (h : KeepsDepth rules depth act) (indent : Text) :
    KeepsDepth rules depth (indented indent act) := by
  rw [indented_eq_bracket]
  exact h.bracket (fun _ => rfl) fun _ _ => rfl

lemma keepsDepth_onAside {rules : NestingRules} {depth : Nat} {act : RenderM F σ τ Unit}
    (h : KeepsDepth rules depth act) : KeepsDepth rules depth (onAside act) := by
  rw [onAside_eq_bracket]
  exact h.bracket (fun _ => rfl) fun _ _ => rfl

variable (r : Renderer F σ τ)

/-- One more is too many just when there are as many as there may be. -/
lemma keepsDepth_checkDepth_bind {depth : Nat} (hdepth : depth ≤ r.options.maxDepth) (name : Text)
    {next : Unit → RenderM F σ τ α}
    (h : depth < r.options.maxDepth → KeepsDepth r.rules depth (next ())) :
    KeepsDepth r.rules depth (r.checkDepth (depth + 1) name >>= next) := by
  rcases Nat.lt_or_ge depth r.options.maxDepth with hlt | hle
  · rw [r.checkDepth_bind_of_le hlt]
    exact h hlt
  · rw [r.checkDepth_bind_of_lt (Nat.lt_succ_of_le hle)]
    apply KeepsDepth.bind
    · exact .record rfl ⟨rfl, Nat.le_antisymm hdepth hle⟩
    · exact fun _ => .throw _

/-! ### Requests for one more -/

/-- What a request for one more nested rendering comes to, where it would be nested in so many. -/
def answer (depth : Nat) (name indent : Text) (compiled : Except ParseError Template) : Event F :=
  if r.options.maxDepth ≤ depth then .tooDeep r.options.maxDepth name
  else match compiled with
    | .error e => .rejected e
    | .ok _    => .entered name indent

section

variable {depth : Nat} {name indent : Text} {compiled : Except ParseError Template}

lemma answer_of_le (h : r.options.maxDepth ≤ depth) :
    (r.answer depth name indent compiled : Event F) = .tooDeep r.options.maxDepth name := if_pos h

lemma answer_error (h : depth < r.options.maxDepth) (e : ParseError) :
    (r.answer depth name indent (.error e) : Event F) = .rejected e := if_neg (Nat.not_le.2 h)

lemma answer_ok (h : depth < r.options.maxDepth) (template : Template) :
    (r.answer depth name indent (.ok template) : Event F) = .entered name indent :=
  if_neg (Nat.not_le.2 h)

/-- Each request gets one of the three answers. -/
lemma answersRequest_answer :
    (r.answer depth name indent compiled : Event F).answersRequest = true := by
  rcases Nat.lt_or_ge depth r.options.maxDepth with hlt | hle
  · cases compiled with
    | error e => rw [r.answer_error hlt, Event.answersRequest]
    | ok template => rw [r.answer_ok hlt, Event.answersRequest]
  · rw [r.answer_of_le hle, Event.answersRequest]

/-- It is nested too deep just if it would be nested in as many as there may be. -/
lemma answer_eq_tooDeep_iff :
    (∃ limit other, (r.answer depth name indent compiled : Event F) = .tooDeep limit other) ↔
      r.options.maxDepth ≤ depth := by
  rcases Nat.lt_or_ge depth r.options.maxDepth with hlt | hle
  · cases compiled with
    | error e => simp [r.answer_error hlt, hlt]
    | ok template => simp [r.answer_ok hlt, hlt]
  · simp [r.answer_of_le hle, hle]

/-- It is rejected just if it might be nested there and does not compile. -/
lemma answer_eq_rejected_iff {e : ParseError} :
    (r.answer depth name indent compiled : Event F) = .rejected e ↔
      depth < r.options.maxDepth ∧ compiled = .error e := by
  rcases Nat.lt_or_ge depth r.options.maxDepth with hlt | hle
  · cases compiled with
    | error e => simp [r.answer_error hlt, hlt]
    | ok template => simp [r.answer_ok hlt]
  · simp [r.answer_of_le hle, Nat.not_lt.2 hle]

end

lemma exists_events_enclosed {act : RenderM F σ τ Unit} (h : Grows act) (name indent : Text)
    (s : RenderState F σ τ) : ∃ new, (reached (enclosed name indent act s)).events =
      s.events ++ .entered name indent :: new := by
  obtain ⟨new, hnew⟩ := h (s.record (.entered name indent))
  refine ⟨new ++ [.left], ?_⟩
  rw [enclosed_eq_bracket, reached_bracket, RenderState.events_record, hnew,
    RenderState.events_record]
  simp

section

variable {below : Nested F σ τ} (hbelow : ∀ here range, Grows (below here range))

include hbelow

/-- A partial tag that names a template is such a request. -/
lemma exists_events_renderPartial (here : Setting F) {tag : Partial} {template : Template}
    (hpartial : r.partials tag.name = some template) (s : RenderState F σ τ) :
    ∃ new, (reached (r.renderPartial below here tag s)).events =
      s.events ++ r.answer here.depth tag.name tag.indent (.ok template) :: new := by
  simp only [renderPartial, hpartial]
  rcases Nat.lt_or_ge here.depth r.options.maxDepth with hlt | hle
  · rw [r.checkDepth_bind_of_le hlt, r.answer_ok hlt]
    apply exists_events_enclosed
    rw [indented_eq_bracket]
    exact (hbelow _ _).bracket (fun _ => ⟨[], (List.append_nil _).symm⟩)
      fun _ _ => ⟨[], (List.append_nil _).symm⟩
  · rw [r.checkDepth_bind_of_lt (Nat.lt_succ_of_le hle), r.answer_of_le hle]
    exact ⟨[], RenderState.events_record s _⟩

/-- And so is each text that a lambda has rendered. -/
lemma exists_events_renderLambdaText (here : Setting F) (tag : LambdaTag) (text : Text)
    (s : RenderState F σ τ) :
    ∃ new, (reached (r.renderLambdaText below here tag text s)).events =
      s.events ++ r.answer here.depth LambdaTag.lambdaName []
        (Template.compile text tag.delimiters) :: new := by
  simp only [renderLambdaText]
  rcases Nat.lt_or_ge here.depth r.options.maxDepth with hlt | hle
  · rw [r.checkDepth_bind_of_le hlt]
    cases Template.compile text tag.delimiters with
    | error e =>
      rw [r.answer_error hlt]
      exact ⟨[], RenderState.events_record s _⟩
    | ok template =>
      have hact := exists_events_enclosed (hbelow (here.nested template) template.root)
        LambdaTag.lambdaName []
      rw [r.answer_ok hlt]
      dsimp only
      split
      · obtain ⟨new, hnew⟩ := hact { s with output := .aside }
        have hwrite (rendered : Text) : Grows (RenderM.ofWrite (r.sink.writeData rendered true) :
            RenderM F σ τ Unit) :=
          .ofWrite (r.sink.logs_writeData rendered true : Logs False refusal _).grows
        obtain ⟨more, hmore⟩ := Grows.exists_events_bind hwrite s
        refine ⟨new ++ more, hmore.trans ?_⟩
        rw [onAside_eq_bracket, reached_bracket]
        exact (congrArg (· ++ more) hnew).trans (List.append_assoc ..)
      · exact hact s
  · rw [r.checkDepth_bind_of_lt (Nat.lt_succ_of_le hle), r.answer_of_le hle]
    exact ⟨[], RenderState.events_record s _⟩

/-- The first thing that a request adds to the history is its answer. It is nested too deep just if
as many are under way as the options allow, and otherwise a text is rejected just if it does not
compile. -/
theorem exists_answer (here : Setting F) (s : RenderState F σ τ) :
    (∀ tag template, r.partials tag.name = some template →
      ∃ e new, (reached (r.renderPartial below here tag s)).events = s.events ++ e :: new ∧
        e.answersRequest = true ∧
        ((∃ limit name, e = .tooDeep limit name) ↔ r.options.maxDepth ≤ here.depth) ∧
        ∀ error, e ≠ .rejected error) ∧
    ∀ tag text, ∃ e new,
      (reached (r.renderLambdaText below here tag text s)).events = s.events ++ e :: new ∧
        e.answersRequest = true ∧
        ((∃ limit name, e = .tooDeep limit name) ↔ r.options.maxDepth ≤ here.depth) ∧
        ∀ error, e = .rejected error ↔ here.depth < r.options.maxDepth ∧
          Template.compile text tag.delimiters = .error error := by
  constructor
  · intro tag template hpartial
    obtain ⟨new, hnew⟩ := r.exists_events_renderPartial hbelow here hpartial s
    refine ⟨_, new, hnew, r.answersRequest_answer, r.answer_eq_tooDeep_iff, fun error h => ?_⟩
    cases (r.answer_eq_rejected_iff.1 h).2
  · intro tag text
    obtain ⟨new, hnew⟩ := r.exists_events_renderLambdaText hbelow here tag text s
    exact ⟨_, new, hnew, r.answersRequest_answer, r.answer_eq_tooDeep_iff,
      fun error => r.answer_eq_rejected_iff⟩

end

/-! ### Lambdas and nodes -/

section

variable {below : Nested F σ τ}
  (hbelow : ∀ here range, here.depth ≤ r.options.maxDepth →
    KeepsDepth r.rules here.depth (below here range))

include hbelow

variable {here : Setting F} (hdepth : here.depth ≤ r.options.maxDepth)

include hdepth

lemma keepsDepth_renderLambdaText (tag : LambdaTag) {text : Text} (hasks : r.host.Asks text) :
    KeepsDepth r.rules here.depth (r.renderLambdaText below here tag text) := by
  apply r.keepsDepth_checkDepth_bind hdepth
  intro hlt
  cases hcompile : Template.compile text tag.delimiters with
  | error e =>
    apply KeepsDepth.bind
    · exact .record rfl ⟨hlt, text, tag.delimiters, hasks, hcompile⟩
    · exact fun _ => .throw _
  | ok template =>
    have hact := keepsDepth_enclosed (hbelow (here.nested template) template.root hlt) hlt
      LambdaTag.lambdaName []
    dsimp only
    split
    · exact (keepsDepth_onAside hact).bind fun _ => .ofWrite (r.sink.keepsDepth_writeData _ _)
    · exact hact

/-- Induction on what the host does, which goes on in some way of a lambda of its own. -/
lemma keepsDepth_attend (tag : LambdaTag) (failure : Option RenderError) (call : Expansion σ)
    (hasks : ∀ text, call.Asks text → r.host.Asks text) :
    KeepsDepth r.rules here.depth (r.attend below here tag failure call) := by
  induction call generalizing failure with
  | answer result host => exact fun _ => .of_events_eq rfl
  | remark remark next ih =>
    intro s
    have hremarked : WithinDepth r.rules here.depth s (s.record (.remarked remark)) :=
      .record s rfl trivial
    exact hremarked.trans (ih failure (fun text h => hasks text (.afterRemark h)) _)
  | write text next ih =>
    intro s
    have hnext (done : Bool) (other : Text) (h : (next done).Asks other) : r.host.Asks other :=
      hasks other (.afterWrite done h)
    have hwritten : WithinDepth r.rules here.depth s (reached _) :=
      r.sink.keepsDepth_writeData text tag.escapes s
    cases hwrite : r.sink.writeData text tag.escapes s with
    | ok a s₁ =>
      rw [hwrite] at hwritten
      rw [r.attend_write_of_ok hwrite]
      exact hwritten.trans (ih true failure (hnext true) s₁)
    | error e s₁ =>
      rw [hwrite] at hwritten
      rw [r.attend_write_of_error hwrite]
      exact hwritten.trans (ih false _ (hnext false) s₁)
  | render text host next ih =>
    intro s
    have hnext (done : Bool) (host : σ) (other : Text) (h : (next done host).Asks other) :
        r.host.Asks other := hasks other (.afterRender done host h)
    have hhere : r.host.Asks text := hasks text (.render host next)
    have hrendered := r.keepsDepth_renderLambdaText hbelow hdepth tag hhere { s with host }
    cases hrender : r.renderLambdaText below here tag text { s with host } with
    | ok a s₁ =>
      rw [hrender] at hrendered
      rw [r.attend_render_of_ok hrender]
      exact hrendered.trans (ih true s₁.host failure (hnext true s₁.host) s₁)
    | error halt s₁ =>
      rw [hrender] at hrendered
      cases halt with
      | unfinished =>
        rw [r.attend_render_of_unfinished hrender]
        exact hrendered
      | failed e =>
        rw [r.attend_render_of_failed hrender]
        exact hrendered.trans (ih false s₁.host _ (hnext false s₁.host) s₁)

lemma keepsDepth_expandLambda (frame : F) (path : Path) (tag : LambdaTag) :
    KeepsDepth r.rules here.depth (r.expandLambda below here frame path tag) := by
  have hexpanding : KeepsDepth r.rules here.depth
      (RenderM.record (.expanding frame path) : RenderM F σ τ Unit) := .record rfl trivial
  rw [expandLambda_eq_settle]
  apply hexpanding.bind
  intro _
  apply KeepsDepth.get_bind
  intro s
  have hasks (text : Text) (h : (r.host.expand frame path tag.view s.host).Asks text) :
      r.host.Asks text := ⟨frame, path, tag.view, s.host, h⟩
  apply (r.keepsDepth_attend hbelow hdepth tag none _ hasks).bind
  exact keepsDepth_settle (fun _ => rfl) (fun _ => trivial) fun _ => .pure ()

lemma keepsDepth_renderPartial (tag : Partial) :
    KeepsDepth r.rules here.depth (r.renderPartial below here tag) := by
  rw [renderPartial]
  cases r.partials tag.name with
  | none => exact .pure _
  | some template =>
    apply r.keepsDepth_checkDepth_bind hdepth
    intro hlt
    have hact := hbelow (here.nested template) template.root hlt
    exact keepsDepth_enclosed (keepsDepth_indented hact tag.indent) hlt tag.name tag.indent

/-- The body of a section is no deeper than the section. -/
lemma keepsDepth_renderNode (fuel : Nat) (node : Node) :
    KeepsDepth r.rules here.depth (r.renderNode below fuel here node) := by
  have h : Relates (fun _ act _ => KeepsDepth r.rules here.depth act) r r := r.relates_keepsDepth
  have hinside (elem : F) (range : NodeRange) :
      KeepsDepth r.rules here.depth (below (here.inside elem) range) :=
    hbelow (here.inside elem) range hdepth
  exact h.renderNode below below (fun range => hbelow here range hdepth)
    (r.keepsDepth_expandLambda hbelow hdepth) fuel fuel hinside (h.renderElements fuel)
    (r.keepsDepth_renderPartial hbelow hdepth) node

end

/-! ### Whole renderings -/

/-- Induction on the fuel: whatever is rendered inside of a node is rendered with less of it. -/
lemma keepsDepth_renderNodes (fuel : Nat) (here : Setting F) (range : NodeRange)
    (hdepth : here.depth ≤ r.options.maxDepth) :
    KeepsDepth r.rules here.depth (r.renderNodes fuel here range) := by
  induction fuel generalizing here range with
  | zero => exact .throw _
  | succ fuel ih => exact .forM _ fun node => r.keepsDepth_renderNode ih hdepth fuel node

lemma keepsDepth_render (fuel : Nat) (template : Template) (root : F) :
    KeepsDepth r.rules 0 (r.render fuel template root) :=
  (r.keepsDepth_renderNodes fuel ⟨template, [root], 0⟩ template.root (Nat.zero_le _)).bind fun _ =>
    .ofWrite r.sink.keepsDepth_finish

section

variable (fuel : Nat) (template : Template) (root : F) (host : σ) (sink : τ)

lemma fitFrom_render :
    FitFrom r.rules [] (reached (r.render fuel template root (.start host sink))).events := by
  obtain ⟨new, hnew, hnests⟩ := r.keepsDepth_render fuel template root (.start host sink)
  have hevents : (reached (r.render fuel template root (.start host sink))).events = new := hnew
  rw [hevents]
  exact hnests.fitFrom [] rfl

/-- At no moment of a rendering are more partials and texts of lambdas under way than the options
allow. -/
lemma length_underway_le {before : List (Event F)}
    (hbefore : before <+: (reached (r.render fuel template root (.start host sink))).events) :
    (underway before).length ≤ r.options.maxDepth := by
  obtain ⟨later, hevents⟩ := hbefore
  have hfit := r.fitFrom_render fuel template root host sink
  rw [← hevents, fitFrom_append] at hfit
  exact hfit.1.length_le (Nat.zero_le _)

/-- Whatever a rendering says of its nesting is so at the moment at which it is said. -/
lemma fits_of_events_eq {before after : List (Event F)} {e : Event F}
    (hevents : (reached (r.render fuel template root (.start host sink))).events =
      before ++ e :: after) : e.Fits r.rules (underway before).length := by
  have hfit := r.fitFrom_render fuel template root host sink
  rw [hevents, fitFrom_append] at hfit
  exact hfit.2.1

/-- Where a rendering answered a request for one more, it found this nested too deep just if as many
were under way as the options allow; and a text that it rejected is one of a lambda and no
template. -/
theorem tooDeep_iff_and_rejected {before after : List (Event F)} {e : Event F}
    (hevents : (reached (r.render fuel template root (.start host sink))).events =
      before ++ e :: after) (hanswers : e.answersRequest = true) :
    ((∃ name, e = .tooDeep r.options.maxDepth name) ↔
      (underway before).length = r.options.maxDepth) ∧
    ∀ error, e = .rejected error → (underway before).length < r.options.maxDepth ∧
      ∃ text d, r.host.Asks text ∧ Template.compile text d = .error error := by
  have hfits := r.fits_of_events_eq fuel template root host sink hevents
  cases e with
  | entered name indent =>
    have hlt : (underway before).length < r.options.maxDepth := hfits
    simp [Nat.ne_of_lt hlt]
  | tooDeep limit name =>
    obtain ⟨rfl, hlevel⟩ : limit = r.options.maxDepth ∧ _ = r.options.maxDepth := hfits
    simp [hlevel]
  | rejected error =>
    have hlt : (underway before).length < r.options.maxDepth := hfits.1
    simp only [reduceCtorEq, exists_false, Nat.ne_of_lt hlt, true_and, Event.rejected.injEq]
    rintro _ rfl
    exact ⟨hlt, hfits.2⟩
  | _ => cases hanswers

end

end Renderer

end Mustache
