import Mustache.Proofs.Rendering.History
import Mustache.Proofs.Rendering.Laying
import Mustache.Proofs.Template.LiteralText
import Mustache.Proofs.Template.Subtrees

/-!
# Indentation

The renderer indents while it writes, and what it puts in front of a text depends on where the
output stands. Seen from the end, indentation is simple: with more of it, a rendering writes what
it writes without, and has the additional indentation in front of every line. Two renderings that
differ in indentation only are followed side by side, and what each has written so far is told by
one text.
-/

namespace Mustache

variable {F σ ε α β : Type}

/-! ### Two renderings side by side -/

/-- The second of two states has `ind` as additional indentation, outside of the one of the first.
Their sinks and histories may differ. -/
structure Beside (ind : Text) (s s' : RenderState F σ ByteArray) : Prop where
  host_eq : s'.host = s.host
  output_eq : s'.output = { s.output with indent := ind ++ s.output.indent }
  scratch_eq_none : s.output.scratch = none
  newline_notMem : '\n' ∉ s.output.indent

/-- From two states, two renderings have come to two others: the first has written a text, and the
second the same text with `ind` in front of its lines. -/
structure Parallel (ind : Text) (s s' s₁ s₁' : RenderState F σ ByteArray) : Prop where
  beside : Beside ind s₁ s₁'
  indent_eq : s₁.output.indent = s.output.indent
  exists_text : ∃ text,
    s₁.sink = s.sink ++ text.bytes ∧
    s₁'.sink = s'.sink ++ (Text.prefixLines ind s.output.atLineStart text).bytes ∧
    s₁.output.atLineStart = Text.startsLineAfter s.output.atLineStart text

section

variable {ind text : Text} {s s' s₁ s₁' s₂ s₂' : RenderState F σ ByteArray}

lemma Beside.record (h : Beside ind s s') (e e' : Event F) :
    Beside ind (s.record e) (s'.record e') :=
  ⟨h.host_eq, h.output_eq, h.scratch_eq_none, h.newline_notMem⟩

lemma Beside.withHost (h : Beside ind s s') (host : σ) :
    Beside ind { s with host } { s' with host } :=
  ⟨rfl, h.output_eq, h.scratch_eq_none, h.newline_notMem⟩

namespace Parallel

lemma of_sink_eq (h : Beside ind s₁ s₁') (houtput : s₁.output = s.output)
    (hsink : s₁.sink = s.sink) (hsink' : s₁'.sink = s'.sink) : Parallel ind s s' s₁ s₁' :=
  ⟨h, by rw [houtput], [], by simpa using hsink, by simpa using hsink', by rw [houtput]; rfl⟩

lemma refl (h : Beside ind s s') : Parallel ind s s' s s' := of_sink_eq h rfl rfl rfl

lemma trans (h : Parallel ind s s' s₁ s₁') (h' : Parallel ind s₁ s₁' s₂ s₂') :
    Parallel ind s s' s₂ s₂' := by
  obtain ⟨-, hindent, text, hsink, hsink', hstart⟩ := h
  obtain ⟨hbeside, hindent₂, more, hsink₂, hsink₂', hstart₂⟩ := h'
  refine ⟨hbeside, hindent₂.trans hindent, text ++ more, ?_, ?_, ?_⟩
  · rw [hsink₂, hsink, Text.bytes_append, ByteArray.append_assoc]
  · rw [hsink₂', hsink', hstart, Text.prefixLines_append, Text.bytes_append,
      ByteArray.append_assoc]
  · rw [hstart₂, hstart, Text.startsLineAfter_append]

/-- A text that is laid under each of the two indentations: it has one in front of its lines, and
then also the other in front of them. -/
lemma of_laid (hs : Beside ind s s') (h : Laid text s s₁) (h' : Laid text s' s₁') :
    Parallel ind s s' s₁ s₁' where
  beside := by
    refine ⟨?_, ?_, ?_, ?_⟩
    · rw [h'.host_eq, h.host_eq, hs.host_eq]
    · rw [h'.output_eq, h.output_eq, hs.output_eq]
    · rw [h.output_eq]
      exact hs.scratch_eq_none
    · rw [h.output_eq]
      exact hs.newline_notMem
  indent_eq := by rw [h.output_eq]
  exists_text := by
    refine ⟨_, h.sink_eq, ?_, ?_⟩
    · rw [h'.sink_eq, hs.output_eq, Text.prefixLines_prefixLines hs.newline_notMem]
    · rw [h.output_eq, Text.startsLineAfter_prefixLines]

end Parallel

end

/-- Two results of one action are the same, and what has been written differs by `ind` in front of
each line. What is returned is as described. -/
inductive Prefixed (ind : Text) (Returned : α → Prop) (s s' : RenderState F σ ByteArray) :
    EStateM.Result ε (RenderState F σ ByteArray) α →
      EStateM.Result ε (RenderState F σ ByteArray) α → Prop
  | ok {a : α} {s₁ s₁' : RenderState F σ ByteArray} (h : Parallel ind s s' s₁ s₁')
      (ha : Returned a) : Prefixed ind Returned s s' (.ok a s₁) (.ok a s₁')
  | error {e : ε} {s₁ s₁' : RenderState F σ ByteArray} (h : Parallel ind s s' s₁ s₁') :
      Prefixed ind Returned s s' (.error e s₁) (.error e s₁')

/-- Whatever the additional indentation, the action writes what it writes without, with this in
front of each line. -/
def Prefixes (ind : Text) (act : EStateM ε (RenderState F σ ByteArray) α)
    (Returned : α → Prop) : Prop :=
  ∀ s s', Beside ind s s' → Prefixed ind Returned s s' (act s) (act s')

variable {ind : Text} {P : α → Prop} {Q : β → Prop}

lemma Prefixed.after {s s' s₁ s₁' : RenderState F σ ByteArray}
    {plain more : EStateM.Result ε (RenderState F σ ByteArray) α}
    (h : Parallel ind s s' s₁ s₁') (hmore : Prefixed ind P s₁ s₁' plain more) :
    Prefixed ind P s s' plain more := by
  cases hmore with
  | ok h' ha => exact .ok (h.trans h') ha
  | error h' => exact .error (h.trans h')

namespace Prefixes

variable {act : EStateM ε (RenderState F σ ByteArray) α}

lemma pure {a : α} (h : P a) :
    Prefixes ind (pure a : EStateM ε (RenderState F σ ByteArray) α) P := by
  intro s s' hs
  exact .ok (.refl hs) h

lemma throw (e : ε) : Prefixes ind (throw e : EStateM ε (RenderState F σ ByteArray) α) P := by
  intro s s' hs
  exact .error (.refl hs)

lemma bind {next : α → EStateM ε (RenderState F σ ByteArray) β} (h : Prefixes ind act P)
    (hnext : ∀ a, P a → Prefixes ind (next a) Q) : Prefixes ind (act >>= next) Q := by
  intro s s' hs
  have hact := h s s' hs
  generalize hplain : act s = plain, hmore : act s' = more at hact
  cases hact with
  | ok hpar ha =>
    rw [bind_apply_of_ok hplain, bind_apply_of_ok hmore]
    exact .after hpar (hnext _ ha _ _ hpar.beside)
  | error hpar =>
    rw [bind_apply_of_error hplain, bind_apply_of_error hmore]
    exact .error hpar

lemma forM {γ : Type} {step : γ → EStateM ε (RenderState F σ ByteArray) PUnit} {xs : List γ}
    (h : ∀ x ∈ xs, Prefixes ind (step x) fun _ => True) :
    Prefixes ind (xs.forM step) fun _ => True := by
  induction xs with
  | nil => exact pure trivial
  | cons x xs ih =>
    exact (h x List.mem_cons_self).bind fun _ _ => ih fun y hy => h y (List.mem_cons_of_mem x hy)

lemma record (e : Event F) :
    Prefixes ind (RenderM.record e : RenderM F σ ByteArray Unit) fun _ => True := by
  intro s s' hs
  exact .ok (.of_sink_eq (hs.record e e) rfl rfl rfl) trivial

/-- An action around the action, which changes nothing of what is written. -/
lemma bracket {act : EStateM ε (RenderState F σ ByteArray) Unit}
    {enter : RenderState F σ ByteArray → RenderState F σ ByteArray}
    {leave : RenderState F σ ByteArray → RenderState F σ ByteArray → RenderState F σ ByteArray}
    (h : Prefixes ind act fun _ => True)
    (henter : ∀ s s', Beside ind s s' → Beside ind (enter s) (enter s'))
    (hleave : ∀ s s' s₁ s₁', Beside ind s s' → Parallel ind (enter s) (enter s') s₁ s₁' →
      Parallel ind s s' (leave s s₁) (leave s' s₁')) :
    Prefixes ind (bracket enter (fun _ _ => ()) leave act) fun _ => True := by
  intro s s' hs
  have hact := h _ _ (henter s s' hs)
  rw [Mustache.bracket, Mustache.bracket]
  generalize act (enter s) = plain, act (enter s') = more at hact
  cases hact with
  | ok hpar _ => exact .ok (hleave _ _ _ _ hs hpar) trivial
  | error hpar => exact .error (hleave _ _ _ _ hs hpar)

/-- A text that is laid wherever the output stands. -/
lemma of_laid {act : WriteM F σ ByteArray Unit} {text : Text}
    (h : ∀ s : RenderState F σ ByteArray, s.output.scratch = none →
      ∃ s₁, act s = .ok () s₁ ∧ Laid text s s₁) :
    Prefixes ind (RenderM.ofWrite act) fun _ => True := by
  intro s s' hs
  obtain ⟨s₁, hact, h₁⟩ := h s hs.scratch_eq_none
  obtain ⟨s₁', hact', h₁'⟩ := h s' (by rw [hs.output_eq, hs.scratch_eq_none])
  rw [RenderM.ofWrite_of_ok hact, RenderM.ofWrite_of_ok hact']
  exact .ok (.of_laid hs h₁ h₁') trivial

end Prefixes

/-! ### Requests of the host -/

/-- In the request to write a value, every text has no line feed but perhaps its last character, and
the answer is not that the value is a lambda. -/
inductive Interpolation.LineByLine : Interpolation σ → Prop
  | answer {result : HostResult} (state : σ) (h : result ≠ .ok .lambda) :
      LineByLine (.answer result state)
  | write {raw : Bool} {text : Text} {next : Except SinkErrorKind Unit → Interpolation σ}
      (htext : text.IsLine) (h : ∀ heard, LineByLine (next heard)) :
      LineByLine (.write raw text next)
  | remark {remark : Remark} {next : Interpolation σ} (h : LineByLine next) :
      LineByLine (.remark remark next)

/-- The host knows no lambdas, and every text it writes has no line feed but perhaps its last
character. -/
structure Host.LineByLine (host : Host F σ) : Prop where
  get_ne_lambda : ∀ frame path index s, (host.get frame path index s).1 ≠ .ok .lambda
  interpolate : ∀ frame path escaped s, (host.interpolate frame path escaped s).LineByLine

namespace Renderer

variable {r : Renderer F σ ByteArray}

lemma prefixes_lookUp (hhost : r.host.LineByLine) (frame : F) (path : Path) (index : Nat) :
    Prefixes ind (r.lookUp frame path index) fun answer => answer ≠ .ok .lambda := by
  intro s s' hs
  simp only [lookUp, hs.host_eq]
  exact .ok (.of_sink_eq ((hs.withHost _).record _ _) rfl rfl rfl)
    (hhost.get_ne_lambda frame path index s.host)

lemma prefixes_serve (hsink : r.sink = .buffer) (escaped : Bool) {call : Interpolation σ}
    (h : call.LineByLine) :
    Prefixes ind (r.serve escaped none call) fun served =>
      served.1 = none ∧ served.2 ≠ .ok .lambda := by
  induction h with
  | answer state h =>
    intro s s' hs
    exact .ok (.of_sink_eq (hs.withHost state) rfl rfl rfl) ⟨rfl, h⟩
  | @write raw text next htext _ ih =>
    intro s s' hs
    obtain ⟨s₁, hwrite, h₁⟩ :=
      Sink.exists_writeData_buffer hs.scratch_eq_none htext (escaped && !raw)
    have hs' : s'.output.scratch = none := by rw [hs.output_eq, hs.scratch_eq_none]
    obtain ⟨s₁', hwrite', h₁'⟩ := Sink.exists_writeData_buffer hs' htext (escaped && !raw)
    rw [← hsink] at hwrite hwrite'
    rw [r.serve_write_of_ok hwrite, r.serve_write_of_ok hwrite']
    have hpar := Parallel.of_laid hs h₁ h₁'
    exact .after hpar (ih (.ok ()) s₁ s₁' hpar.beside)
  | @remark note next _ ih =>
    intro s s' hs
    have hnoted := hs.record (.remarked note) (.remarked note)
    exact .after (.of_sink_eq hnoted rfl rfl rfl) (ih _ _ hnoted)

lemma prefixes_interpolate (hhost : r.host.LineByLine) (hsink : r.sink = .buffer) (frame : F)
    (path : Path) (escaped : Bool) :
    Prefixes ind (r.interpolate frame path escaped) fun answer => answer ≠ .lambda := by
  intro s s' hs
  have hcall := hhost.interpolate frame path escaped s.host
  show Prefixed ind _ s s'
    ((r.serve escaped none (r.host.interpolate frame path escaped s.host) >>= _) s)
    ((r.serve escaped none (r.host.interpolate frame path escaped s'.host) >>= _) s')
  rw [hs.host_eq]
  refine (prefixes_serve hsink escaped hcall).bind ?_ s s' hs
  rintro ⟨_, _ | answer⟩ ⟨rfl, hanswer⟩
  · exact (Prefixes.record _).bind fun _ _ => .throw _
  · exact (Prefixes.record _).bind fun _ _ => .pure fun h => hanswer (congrArg _ h)

lemma prefixes_owner (hhost : r.host.LineByLine) (path : Path) (frames : List F) :
    Prefixes ind (r.owner path frames) fun answer => ∀ frame, answer ≠ some (frame, .lambda) := by
  induction frames with
  | nil => exact .pure fun _ => nofun
  | cons frame frames ih =>
    refine (prefixes_lookUp hhost frame path 0).bind ?_
    intro answer hanswer
    match answer with
    | .error e => exact .throw _
    | .ok .notFound => exact ih
    | .ok .lambda => exact (hanswer rfl).elim
    | .ok .broken => exact .pure fun _ => nofun
    | .ok .consumed => exact .pure fun _ => nofun
    | .ok (.field elem) => exact .pure fun _ => nofun

/-! ### Nesting -/

lemma prefixes_checkDepth (depth : Nat) (name : Text) :
    Prefixes ind (r.checkDepth depth name) fun _ => True := by
  rw [checkDepth]
  split
  · exact (Prefixes.record _).bind fun _ _ => .throw _
  · exact .pure trivial

lemma prefixes_enclosed {act : RenderM F σ ByteArray Unit} (name indent : Text)
    (h : Prefixes ind act fun _ => True) :
    Prefixes ind (enclosed name indent act) fun _ => True := by
  rw [enclosed_eq_bracket]
  refine h.bracket (fun s s' hs => hs.record _ _) ?_
  intro s s' s₁ s₁' _ hpar
  exact ⟨hpar.beside.record _ _, hpar.indent_eq, hpar.exists_text⟩

/-- The indentation of a partial comes after the one that is there, and is taken away again. -/
lemma prefixes_indented {act : RenderM F σ ByteArray Unit} {indent : Text} (hindent : '\n' ∉ indent)
    (h : Prefixes ind act fun _ => True) : Prefixes ind (indented indent act) fun _ => True := by
  rw [indented_eq_bracket]
  refine h.bracket ?_ ?_
  · intro s s' hs
    refine ⟨hs.host_eq, ?_, hs.scratch_eq_none, ?_⟩
    · rw [hs.output_eq, List.append_assoc]
    · rw [List.mem_append, not_or]
      exact ⟨hs.newline_notMem, hindent⟩
  · intro s s' s₁ s₁' hs hpar
    have htake : s₁.output.indent.take s.output.indent.length = s.output.indent := by
      rw [hpar.indent_eq, List.take_left]
    have htake' : s₁'.output.indent.take s'.output.indent.length = ind ++ s.output.indent := by
      rw [hpar.beside.output_eq, hpar.indent_eq, hs.output_eq, ← List.append_assoc, List.take_left]
    refine ⟨⟨hpar.beside.host_eq, ?_, hpar.beside.scratch_eq_none, ?_⟩, htake, hpar.exists_text⟩
    · rw [htake, htake', hpar.beside.output_eq]
    · rw [htake]
      exact hs.newline_notMem

/-! ### Nodes -/

variable {below : Nested F σ ByteArray} {here : Setting F}

lemma prefixes_writeValue (hhost : r.host.LineByLine) (hsink : r.sink = .buffer) (path : Path)
    (escaped : Bool) (frames : List F) :
    Prefixes ind (r.writeValue below here path escaped frames) fun _ => True := by
  induction frames with
  | nil => exact .pure trivial
  | cons frame frames ih =>
    refine (prefixes_interpolate hhost hsink frame path escaped).bind ?_
    intro answer hanswer
    match answer with
    | .notFound => exact ih
    | .lambda => exact (hanswer rfl).elim
    | .broken => exact .pure trivial
    | .consumed => exact .pure trivial
    | .field => exact .pure trivial

lemma prefixes_renderElements (hhost : r.host.LineByLine) (frame : F) (path : Path)
    {body : F → RenderM F σ ByteArray Unit} (hbody : ∀ elem, Prefixes ind (body elem) fun _ => True)
    (fuel index : Nat) :
    Prefixes ind (r.renderElements frame path body fuel index) fun _ => True := by
  induction fuel generalizing index with
  | zero => exact .throw _
  | succ fuel ih =>
    refine (prefixes_lookUp hhost frame path index).bind ?_
    intro answer _
    match answer with
    | .error e => exact .throw _
    | .ok (.field elem) => exact (hbody elem).bind fun _ _ => ih (index + 1)
    | .ok .notFound => exact .pure trivial
    | .ok .broken => exact .pure trivial
    | .ok .consumed => exact .pure trivial
    | .ok .lambda => exact .pure trivial

variable {tag : Section}

lemma prefixes_renderSection (hhost : r.host.LineByLine)
    (hbelow : ∀ elem, Prefixes ind (below (here.inside elem) tag.body) fun _ => True)
    (fuel : Nat) : Prefixes ind (r.renderSection below fuel here tag) fun _ => True := by
  refine (prefixes_owner hhost tag.path here.scope).bind ?_
  intro answer hanswer
  match answer with
  | none => exact .pure trivial
  | some (frame, .field elem) =>
    refine (hbelow elem).bind fun _ _ => ?_
    exact prefixes_renderElements hhost frame tag.path hbelow fuel 1
  | some (frame, .lambda) => exact (hanswer frame rfl).elim
  | some (frame, .notFound) => exact .pure trivial
  | some (frame, .broken) => exact .pure trivial
  | some (frame, .consumed) => exact .pure trivial

lemma prefixes_renderInverted (hhost : r.host.LineByLine)
    (hbelow : Prefixes ind (below here tag.body) fun _ => True) :
    Prefixes ind (r.renderInverted below here tag) fun _ => True := by
  refine (prefixes_owner hhost tag.path here.scope).bind ?_
  intro answer _
  match answer with
  | none => exact hbelow
  | some (frame, .field elem) => exact .pure trivial
  | some (frame, .lambda) => exact .pure trivial
  | some (frame, .notFound) => exact hbelow
  | some (frame, .broken) => exact hbelow
  | some (frame, .consumed) => exact hbelow

lemma prefixes_renderPartial {tag : Partial} (hindent : '\n' ∉ tag.indent)
    (hbelow : ∀ template, r.partials tag.name = some template →
      Prefixes ind (below (here.nested template) template.root) fun _ => True) :
    Prefixes ind (r.renderPartial below here tag) fun _ => True := by
  rw [renderPartial]
  split
  · exact .pure trivial
  · next template hpartial =>
    refine (prefixes_checkDepth _ _).bind fun _ _ => ?_
    exact prefixes_enclosed _ _ (prefixes_indented hindent (hbelow template hpartial))

end Renderer

/-! ### Templates -/

/-- The template has been compiled from some source. -/
def Template.IsCompiled (t : Template) : Prop := ∃ source d, compile source d = .ok t

/-- What stands in front of a partial on its line does not reach over the line. -/
lemma Template.IsCompiled.newline_notMem_indent {t : Template} (h : t.IsCompiled) {tag : Partial}
    (hmem : .partialTag tag ∈ t.table.nodes) : '\n' ∉ tag.indent := by
  obtain ⟨source, d, hcompile⟩ := h
  have hsub := tree_mem_subtreesAll hcompile (Nat.le_refl _) hmem
  have hmark : .leaf (.partialTag tag) ∈ Tree.marksAll t.trees :=
    (Tree.marks_isInfix_of_mem_subtreesAll _ hsub).subset (by simp [tree])
  have hleaf : .partialTag tag ∈ Tree.leavesAll t.trees := by
    rw [Tree.leavesAll_eq_filterMap_marksAll]
    exact List.mem_filterMap.2 ⟨_, hmark, rfl⟩
  obtain ⟨raw, hraw, hsigil, -, hindent⟩ := exists_raw_of_partialTag_mem hcompile hleaf
  rw [hindent]
  rcases RawTag.indent_cases hraw hsigil with ⟨l, hl⟩ | ⟨-, hnil⟩
  · rw [hl]
    exact newline_notMem_of_isIndentation l.isIndentation_indent
  · simp [hnil]

namespace Renderer

variable {r : Renderer F σ ByteArray}

lemma prefixes_renderNode (hhost : r.host.LineByLine) (hsink : r.sink = .buffer)
    {below : Nested F σ ByteArray} {here : Setting F} {fuel : Nat}
    (htemplate : here.template.IsCompiled)
    (hbelow : ∀ there range, there.template.IsCompiled →
      Prefixes ind (below there range) fun _ => True)
    (hpartials : ∀ name template, r.partials name = some template → template.IsCompiled)
    {node : Node} (hnode : node ∈ here.template.table.nodes) :
    Prefixes ind (r.renderNode below fuel here node) fun _ => True := by
  cases node with
  | text span =>
    rw [renderNode, hsink]
    exact .of_laid fun s hs => Sink.exists_writeText_buffer hs _
  | variableTag tag => exact prefixes_writeValue hhost hsink tag.path _ here.scope
  | sectionTag tag =>
    rw [renderNode]
    split
    · exact prefixes_renderInverted hhost (hbelow here tag.body htemplate)
    · exact prefixes_renderSection hhost (fun elem => hbelow _ tag.body htemplate) fuel
  | partialTag tag =>
    apply prefixes_renderPartial (htemplate.newline_notMem_indent hnode)
    intro template hpartial
    exact hbelow _ template.root (hpartials tag.name template hpartial)

/-- Induction on the fuel: the nodes inside of a node are rendered with less of it, in sections of
the same template and in the templates of partials. -/
lemma prefixes_renderNodes (hhost : r.host.LineByLine) (hsink : r.sink = .buffer)
    (hpartials : ∀ name template, r.partials name = some template → template.IsCompiled)
    (fuel : Nat) (here : Setting F) (range : NodeRange) (htemplate : here.template.IsCompiled) :
    Prefixes ind (r.renderNodes fuel here range) fun _ => True := by
  induction fuel generalizing here range with
  | zero => exact .throw _
  | succ fuel ih =>
    rw [renderNodes]
    apply Prefixes.forM
    intro node hnode
    exact prefixes_renderNode hhost hsink htemplate ih hpartials (Template.mem_of_mem_nodes hnode)

/-- Two renderings have come to the same result and stand alike at the start of a line or not. What
the first has appended to its buffer, the second has appended with `ind` in front of the first
character of each line; that of the first line counts if `starts`. -/
structure Indents (ind : Text) (starts : Bool) (before before' : ByteArray)
    (plain more : EStateM.Result ε (RenderState F σ ByteArray) α) : Prop where
  outcome_eq : outcome more = outcome plain
  atLineStart_eq : (reached more).output.atLineStart = (reached plain).output.atLineStart
  exists_written : ∃ written : Text, (reached plain).sink = before ++ written.bytes ∧
    (reached more).sink = before' ++ (Text.prefixLines ind starts written).bytes

lemma indents_of_prefixed {s s' : RenderState F σ ByteArray}
    {plain more : EStateM.Result ε (RenderState F σ ByteArray) α}
    (h : Prefixed ind P s s' plain more) :
    Indents ind s.output.atLineStart s.sink s'.sink plain more := by
  cases h with
  | ok hpar _ | error hpar =>
    obtain ⟨text, hsink, hsink', -⟩ := hpar.exists_text
    refine ⟨rfl, ?_, text, hsink, hsink'⟩
    show _ = _
    simp [hpar.beside.output_eq]

lemma Indents.bracket {act : RenderM F σ ByteArray Unit} {starts : Bool}
    {before before' : ByteArray}
    {plain : EStateM.Result Halt (RenderState F σ ByteArray) Unit}
    {enter : RenderState F σ ByteArray → RenderState F σ ByteArray}
    {leave : RenderState F σ ByteArray → RenderState F σ ByteArray → RenderState F σ ByteArray}
    {s : RenderState F σ ByteArray}
    (hleave : ∀ s₁, (leave s s₁).sink = s₁.sink ∧
      (leave s s₁).output.atLineStart = s₁.output.atLineStart)
    (h : Indents ind starts before before' plain (act (enter s))) :
    Indents ind starts before before' plain
      (bracket enter (fun _ _ => ()) leave act s) := by
  have hreached := reached_bracket enter (fun _ _ => ()) leave act s
  obtain ⟨houtcome, hstart, written, hsink, hsink'⟩ := h
  refine ⟨?_, ?_, written, hsink, ?_⟩
  · rw [← houtcome, Mustache.bracket]
    cases act (enter s) <;> rfl
  · rw [hreached, (hleave _).2, hstart]
  · rw [hreached, (hleave _).1, hsink']

/-- A partial that stands alone is rendered into the place of its tag: its lines have in front of
them the indentation that is there, followed by its own. -/
lemma indents_renderPartial {below : Nested F σ ByteArray} {here : Setting F} {tag : Partial}
    {template : Template} (hpartial : r.partials tag.name = some template)
    (hdepth : here.depth < r.options.maxDepth) {s : RenderState F σ ByteArray}
    (hbelow : ∀ ind, Prefixes ind (below (here.nested template) template.root) fun _ => True)
    (hscratch : s.output.scratch = none) :
    Indents (s.output.indent ++ tag.indent) s.output.atLineStart s.sink s.sink
      (below (here.nested template) template.root
        { s with output := { s.output with indent := [] } })
      (r.renderPartial below here tag s) := by
  have hcheck : r.checkDepth (here.depth + 1) tag.name = pure () := by
    rw [checkDepth, if_neg (Nat.not_lt.2 hdepth)]
  have hpartial : r.renderPartial below here tag s = enclosed tag.name tag.indent
      (indented tag.indent (below (here.nested template) template.root)) s := by
    rw [renderPartial, hpartial]
    simp only [hcheck]
    rfl
  rw [hpartial, enclosed_eq_bracket, indented_eq_bracket]
  apply Indents.bracket fun _ => ⟨rfl, rfl⟩
  apply Indents.bracket fun _ => ⟨rfl, rfl⟩
  -- Without any indentation, the outer one and that of the partial are the additional one.
  let flat : RenderState F σ ByteArray := { s with output := { s.output with indent := [] } }
  have hbeside : Beside (s.output.indent ++ tag.indent) flat
      { s.record (.entered tag.name tag.indent) with
        output := { s.output with indent := s.output.indent ++ tag.indent } } :=
    ⟨rfl, by simp [flat], hscratch, List.not_mem_nil⟩
  have hindents := indents_of_prefixed (hbelow _ _ _ hbeside)
  exact hindents

/-- Indentation is put in front of lines. With `ind` as additional indentation outside of the one
that is there, nodes are rendered to the same result, and what is written has `ind` in front of each
line. So the template of a partial is written with the indentation around its tag, followed by the
one of the tag itself, in front of each line. -/
theorem indents_renderNodes {host : Host F σ} {options : RenderOptions}
    {partials : Text → Option Template} (hhost : host.LineByLine)
    (hpartials : ∀ name template, partials name = some template → template.IsCompiled)
    (fuel : Nat) {here : Setting F} (htemplate : here.template.IsCompiled) (range : NodeRange)
    {ind : Text} {s s' : RenderState F σ ByteArray} (hbeside : Beside ind s s') :
    let r : Renderer F σ ByteArray := ⟨host, .buffer, options, partials⟩
    Indents ind s.output.atLineStart s.sink s'.sink (r.renderNodes fuel here range s)
        (r.renderNodes fuel here range s') ∧
      ∀ tag template, partials tag.name = some template → here.depth < options.maxDepth →
        Indents (s.output.indent ++ tag.indent) s.output.atLineStart s.sink s.sink
          (r.renderNodes fuel (here.nested template) template.root
            { s with output := { s.output with indent := [] } })
          (r.renderPartial (r.renderNodes fuel) here tag s) := by
  intro r
  constructor
  · exact indents_of_prefixed
      (prefixes_renderNodes hhost rfl hpartials fuel here range htemplate s s' hbeside)
  · intro tag template hpartial hdepth
    apply indents_renderPartial hpartial hdepth ?_ hbeside.scratch_eq_none
    intro ind
    exact prefixes_renderNodes hhost rfl hpartials fuel _ _ (hpartials tag.name template hpartial)

/-- A host for which every name stands for two lines with a reserved character. -/
def twoLines : Host Unit Unit where
  get _ _ index s := (.ok (if index < 2 then .field () else .consumed), s)
  interpolate _ _ _ s := .write false ['<', '\n'] fun _ => .answer (.ok .field) s
  expand _ _ _ s := .answer (.ok .notFound) s
  hint _ _ s := ((.notFound, 0), s)

lemma lineByLine_twoLines : twoLines.LineByLine where
  get_ne_lambda _ _ index _ := by
    simp only [twoLines]
    split <;> simp
  interpolate _ _ _ s := .write (by simp [Text.IsLine]) fun _ => .answer s (by simp)

/-- A partial that has another one in it, indented in its turn. -/
def nestedPartials (name : Text) : Option Template :=
  if name = ['p'] then (Template.compile "a{{x}}\n  {{>q}}\n".toList .standard).toOption
  else if name = ['q'] then (Template.compile "{{#x}}b\n{{/x}}".toList .standard).toOption
  else none

lemma isCompiled_of_nestedPartials (name : Text) (template : Template)
    (h : nestedPartials name = some template) : template.IsCompiled := by
  have hcompiled : ∀ source, (Template.compile source .standard).toOption = some template →
      template.IsCompiled := by
    intro source hsource
    cases hcompile : Template.compile source .standard with
    | error e =>
      rw [hcompile] at hsource
      cases hsource
    | ok t =>
      rw [hcompile] at hsource
      cases hsource
      exact ⟨source, .standard, hcompile⟩
  rw [nestedPartials] at h
  split at h
  · exact hcompiled _ h
  · split at h
    · exact hcompiled _ h
    · cases h

/-- A rendering with the nested partials at the start of a line. -/
def nestedRun (indent : Text) (t : Template) :
    EStateM.Result Halt (RenderState Unit Unit ByteArray) Unit :=
  (⟨twoLines, .buffer, .standard, nestedPartials⟩ : Renderer Unit Unit ByteArray).renderNodes 5
    ⟨t, [()], 0⟩ t.root ⟨(), .empty, ⟨indent, true, none⟩, []⟩

/-- Each line has the additional indentation first, then the one that is there, then those of the
partials around it. -/
theorem indents_nestedRun :
    ∃ t, Template.compile " {{>p}}\n".toList .standard = .ok t ∧
      (writes (reached (nestedRun ['>', '-'] t)).events).flatten =
        ">- a&lt;\n>- \n>-   b\n>-   b\n".toList ∧
      Indents ['>'] true .empty .empty (nestedRun ['-'] t) (nestedRun ['>', '-'] t) := by
  have hrun : (Template.compile " {{>p}}\n".toList .standard).map
      (fun t => (writes (reached (nestedRun ['>', '-'] t)).events).flatten) =
        .ok ">- a&lt;\n>- \n>-   b\n>-   b\n".toList := by
    decide +kernel
  obtain ⟨t, hcompile, hrun⟩ := exists_eq_ok_of_map_eq_ok hrun
  have hbeside : Beside ['>'] (⟨(), .empty, ⟨['-'], true, none⟩, []⟩ : RenderState Unit Unit _)
      ⟨(), .empty, ⟨['>', '-'], true, none⟩, []⟩ := ⟨rfl, rfl, rfl, by decide⟩
  exact ⟨t, hcompile, hrun, (indents_renderNodes lineByLine_twoLines isCompiled_of_nestedPartials 5
    ⟨_, _, hcompile⟩ t.root hbeside).1⟩

end Renderer

end Mustache
