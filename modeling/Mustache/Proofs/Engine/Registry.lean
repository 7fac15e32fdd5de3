import Mustache.Proofs.Rendering.Reach

/-!
# Missing partials

Calls of an engine keep templates under names, or fail and leave the engine as it was. After any of
them a name has a template just if a call for this name has succeeded. So the partials that are
missing are those of a template for which none has, and if there are none, every partial tag finds a
template when it is rendered.
-/

namespace Mustache

/-! ### Calls of an engine -/

/-- A call that is to keep a template under a name. -/
inductive Registration
  | register (name source : Text)
  | insert (name : Text) (template : Template)

namespace Registration

/-- The name under which the template is to be kept. -/
def name : Registration → Text
  | register name _ => name
  | insert name _   => name

/-- Makes the call. -/
def run (e : Engine) : Registration → Except EngineError Engine
  | register name source => e.register name source
  | insert name template => e.insert name template

lemma stores_of_run {e e' : Engine} {call : Registration} (h : call.run e = .ok e') :
    e.Stores call.name e' := by
  cases call with
  | register name source => exact .register h
  | insert name template => exact .insert h

end Registration

namespace Engine

variable {e e' : Engine} {name : Text} {call : Registration} {calls : List Registration}

/-- The engine after a call; one that fails leaves it as it was. -/
def after (e : Engine) (call : Registration) : Engine :=
  match call.run e with
  | .ok e'   => e'
  | .error _ => e

/-- When the calls are made one after the other, one for this name succeeds. -/
inductive Succeeds : Engine → List Registration → Text → Prop
  | now {e e' : Engine} {call : Registration} {calls : List Registration}
      (h : call.run e = .ok e') : Succeeds e (call :: calls) call.name
  | later {e : Engine} {call : Registration} {calls : List Registration} {name : Text}
      (h : Succeeds (e.after call) calls name) : Succeeds e (call :: calls) name

lemma succeeds_cons_iff :
    e.Succeeds (call :: calls) name ↔
      (call.name = name ∧ ∃ e', call.run e = .ok e') ∨ (e.after call).Succeeds calls name := by
  constructor
  · intro h
    cases h with
    | now h => exact .inl ⟨rfl, _, h⟩
    | later h => exact .inr h
  · rintro (⟨rfl, e', h⟩ | h)
    · exact .now h
    · exact .later h

lemma Stores.isSome_partial? (h : e.Stores name e') : (e'.partial? name).isSome := by
  obtain ⟨template, rfl⟩ := h.exists_eq
  simp [partial?]

/-- A call that succeeds adds its name to those that have a template, and only this name. -/
lemma isSome_partial?_after (e : Engine) (call : Registration) (name : Text) :
    ((e.after call).partial? name).isSome ↔
      (e.partial? name).isSome ∨ call.name = name ∧ ∃ e', call.run e = .ok e' := by
  rw [after]
  cases hrun : call.run e with
  | error error => simp
  | ok e' =>
    have hstores := Registration.stores_of_run hrun
    by_cases hname : call.name = name
    · subst hname
      simp [hstores.isSome_partial?]
    · have hkept := hstores.partial?_of_ne (Ne.symm hname)
      simp [hkept, hname]

/-- After calls, the names that have a template are those that had one before and those for which a
call has succeeded. -/
lemma isSome_partial?_foldl (e : Engine) (calls : List Registration) (name : Text) :
    ((calls.foldl after e).partial? name).isSome ↔
      (e.partial? name).isSome ∨ e.Succeeds calls name := by
  induction calls generalizing e with
  | nil =>
    have hnone : ¬ e.Succeeds [] name := nofun
    simp [hnone]
  | cons call calls ih =>
    rw [List.foldl_cons, ih, isSome_partial?_after, succeeds_cons_iff, or_assoc]

lemma partial?_of_make {config : Config} (h : make config = .ok e) (name : Text) :
    e.partial? name = none := by
  rw [make] at h
  split at h
  · simp at h
  · obtain rfl := Except.ok.inj h
    rfl

lemma mem_missing {t : Template} :
    name ∈ e.missing t ↔ name ∈ t.partialNames ∧ e.partial? name = none := by
  rw [missing, List.mem_filter, Option.isNone_iff_eq_none]

/-- From a new engine on, a name has no template just if no call for it has succeeded. -/
lemma partial?_foldl_eq_none_iff {config : Config} (h : make config = .ok e)
    (calls : List Registration) (name : Text) :
    (calls.foldl after e).partial? name = none ↔ ¬ e.Succeeds calls name := by
  have hsome := isSome_partial?_foldl e calls name
  rw [partial?_of_make h] at hsome
  rw [← Option.not_isSome_iff_eq_none, hsome]
  simp

end Engine

/-! ### Partial tags -/

namespace Renderer

variable {F σ τ : Type} {r : Renderer F σ τ} {tag : Partial}

/-- Whenever the tag is rendered, its template begins to be rendered, or the rendering stops as it
nests too deep. -/
def Finds (r : Renderer F σ τ) (tag : Partial) : Prop :=
  ∀ (n : Nat) (here : Setting F) (s : RenderState F σ τ), ∃ first later,
    (first = .entered tag.name tag.indent ∨ first = .tooDeep r.options.maxDepth tag.name) ∧
      (reached (r.renderNode (r.renderNodes n) n here (.partialTag tag) s)).events =
        s.events ++ first :: later

lemma renderNode_partialTag_of_none (h : r.partials tag.name = none) (below : Nested F σ τ)
    (n : Nat) (here : Setting F) (s : RenderState F σ τ) :
    r.renderNode below n here (.partialTag tag) s = .ok () s := by
  rw [renderNode, renderPartial, h]
  rfl

lemma renderPartial_of_some {template : Template} (h : r.partials tag.name = some template)
    (below : Nested F σ τ) (here : Setting F) :
    r.renderPartial below here tag =
      r.checkDepth (here.depth + 1) tag.name >>= fun _ =>
        enclosed tag.name tag.indent
          (indented tag.indent (below (here.nested template) template.root)) := by
  rw [renderPartial, h]

lemma finds_of_some {template : Template} (h : r.partials tag.name = some template) :
    r.Finds tag := by
  intro n here s
  rw [renderNode, renderPartial_of_some h]
  by_cases hdepth : r.options.maxDepth < here.depth + 1
  · refine ⟨_, [], .inr rfl, ?_⟩
    rw [r.checkDepth_bind_of_lt hdepth]
    exact s.events_record _
  · rw [r.checkDepth_bind_of_le (Nat.not_lt.1 hdepth)]
    have hbelow : Logs False id (r.renderNodes n (here.nested template) template.root) :=
      r.logs_renderNodes nofun n (here.nested template) template.root
    have hindented : Grows (indented tag.indent
        (r.renderNodes n (here.nested template) template.root)) := (logs_indented hbelow).grows
    obtain ⟨new, hnew⟩ := hindented (s.record (.entered tag.name tag.indent))
    refine ⟨_, new ++ [.left], .inl rfl, ?_⟩
    rw [enclosed_eq_bracket, reached_bracket, RenderState.events_record, hnew,
      RenderState.events_record]
    simp

end Renderer

/-- Nothing is missing just if all partial tags of a template find one. -/
lemma Engine.missing_eq_nil_iff {source : Text} {d : Delimiters} {t : Template}
    (h : Template.compile source d = .ok t) (e : Engine) :
    e.missing t = [] ↔ ∀ i tag, t.UsesPartial i tag → ∀ (F σ τ : Type) (host : Host F σ)
      (sink : Sink τ), (e.renderer host sink).Finds tag := by
  constructor
  · intro hmissing i tag huses F σ τ host sink
    have hname := (Template.mem_partialNames_iff_uses h).2 ⟨i, tag, huses, rfl⟩
    cases hkept : e.partial? tag.name with
    | some template => exact Renderer.finds_of_some hkept
    | none =>
      have hmem := mem_missing.2 ⟨hname, hkept⟩
      simp [hmissing] at hmem
  · intro hfinds
    refine List.eq_nil_iff_forall_not_mem.2 fun name hmem => ?_
    obtain ⟨hname, hnone⟩ := mem_missing.1 hmem
    obtain ⟨i, tag, huses, rfl⟩ := (Template.mem_partialNames_iff_uses h).1 hname
    -- With the host that knows nothing, the tag leaves the history as it was.
    have hfinds := hfinds i tag huses Unit Unit ByteArray Host.empty Sink.buffer
    obtain ⟨first, later, -, hevents⟩ := hfinds 0 ⟨t, [], 0⟩ (.start () .empty)
    rw [Renderer.renderNode_partialTag_of_none hnone] at hevents
    simp [RenderState.start, RenderState.events] at hevents

/-- The partials that a template lists are, each once, those that are named in the partial tags that
the scanner finds, which are those that are reached from the root, in the order in which the table
comes to them first. Whatever calls are made of a new engine, those of them are missing for which no
call has succeeded. A partial tag renders nothing if its name is missing; so nothing is missing just
if every partial tag of the template finds a template, in every rendering. -/
theorem partialNames_and_missing {source : Text} {d : Delimiters} {t : Template}
    (h : Template.compile source d = .ok t) :
    t.partialNames.Nodup ∧
    (∀ name, name ∈ t.partialNames ↔
      ∃ raw, .tag raw ∈ (scan source d).tokens ∧ raw.sigil = .angle ∧ raw.name source = name) ∧
    (∀ name, name ∈ t.partialNames ↔ ∃ i tag, t.UsesPartial i tag ∧ tag.name = name) ∧
    t.partialNames.Pairwise (NamesBefore t.table.nodes) ∧
    ∀ (config : Config) (e : Engine) (calls : List Registration), Engine.make config = .ok e →
      let e' := calls.foldl Engine.after e
      (e'.missing t).Sublist t.partialNames ∧
      (∀ name, name ∈ e'.missing t ↔ name ∈ t.partialNames ∧ ¬ e.Succeeds calls name) ∧
      (∀ (F σ τ : Type) (host : Host F σ) (sink : Sink τ) (n : Nat) (here : Setting F)
        (s : RenderState F σ τ) (tag : Partial), tag.name ∈ e'.missing t →
          let r := e'.renderer host sink
          r.renderNode (r.renderNodes n) n here (.partialTag tag) s = .ok () s) ∧
      (e'.missing t = [] ↔ ∀ i tag, t.UsesPartial i tag → ∀ (F σ τ : Type) (host : Host F σ)
        (sink : Sink τ), (e'.renderer host sink).Finds tag) := by
  refine ⟨nodup_distinct _, fun name => Template.mem_partialNames_iff_scan h,
    fun name => Template.mem_partialNames_iff_uses h, t.pairwise_partialNames,
    fun config e calls hmake => ?_⟩
  intro e'
  refine ⟨List.filter_sublist, fun name => ?_, ?_, e'.missing_eq_nil_iff h⟩
  · rw [Engine.mem_missing, Engine.partial?_foldl_eq_none_iff hmake]
  · intro F σ τ host sink n here s tag htag r
    exact Renderer.renderNode_partialTag_of_none (Engine.mem_missing.1 htag).2 _ n here s

/-- With pointed delimiters: a partial in a section and behind it, for which a call succeeds, and
one for which the only call fails. -/
theorem partialNames_and_missing_section :
    ∃ d e t, Delimiters.make ['<'] ['>'] = .ok d ∧
      Engine.make ⟨['<'], ['>'], .standard⟩ = .ok e ∧
      Template.compile "<#s><>b></s><>a><>b>".toList d = .ok t ∧
      t.partialNames = [['b'], ['a']] ∧ t.partialNames.Nodup ∧
      let calls : List Registration := [.register ['a'] "<#x>".toList, .register ['b'] ['k']]
      (calls.foldl Engine.after e).missing t = [['a']] ∧ ¬ e.Succeeds calls ['a'] ∧
      e.Succeeds calls ['b'] := by
  let d : Delimiters := ⟨['<'], ['>'], delimiterError?_eq_none_iff.1 rfl,
    delimiterError?_eq_none_iff.1 rfl⟩
  let e : Engine := ⟨⟨['<'], ['>'], .standard⟩, d, []⟩
  have hmake : Engine.make ⟨['<'], ['>'], .standard⟩ = .ok e := by decide +kernel
  let calls : List Registration := [.register ['a'] "<#x>".toList, .register ['b'] ['k']]
  have hok : ((Template.compile "<#s><>b></s><>a><>b>".toList d).map fun t =>
      (t.partialNames, (calls.foldl Engine.after e).missing t)) =
        .ok ([['b'], ['a']], [['a']]) := by decide +kernel
  obtain ⟨t, hcompile, hnames⟩ := exists_eq_ok_of_map_eq_ok hok
  obtain ⟨hpartials, hmissing⟩ := Prod.mk.inj hnames
  obtain ⟨hnodup, -, -, -, hengine⟩ := partialNames_and_missing hcompile
  obtain ⟨-, hmem, -, -⟩ := hengine _ e calls hmake
  refine ⟨d, e, t, d.make_self, hmake, hcompile, hpartials, hnodup, hmissing, ?_, ?_⟩
  · exact ((hmem ['a']).1 (by rw [hmissing]; simp)).2
  · by_contra hfails
    have hlisted : ['b'] ∈ (calls.foldl Engine.after e).missing t :=
      (hmem ['b']).2 ⟨by rw [hpartials]; simp, hfails⟩
    rw [hmissing] at hlisted
    simp at hlisted

end Mustache
