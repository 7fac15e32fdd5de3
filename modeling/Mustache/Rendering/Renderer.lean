import Mustache.Template.Compile
import Mustache.Rendering.Output

/-!
# Rendering

The renderer walks the nodes of a template. A name is looked up in the frames of the context
stack, innermost first, until one knows it: its owner. A section is rendered for each element its
owner has, with the element's frame on top of the stack. Partials and the texts that lambdas have
rendered are nested; their nesting is limited.

The first failure wins. While a host writes a value or expands a lambda, failures are kept and
reported when the host returns, whatever the host answers then.

A host may answer for ever, so rendering takes fuel: one unit for each level of nodes inside nodes
and for each element of a section. What a rendering does never depends on how much is left, except
that it remains unfinished when there is none.
-/

namespace Mustache

/-- What a rendering can be told. -/
structure RenderOptions where
  escaping : Escaping
  /-- Whether the host is asked for sizes before rendering into a text. -/
  hints : Bool
  /-- How deep partials and lambdas may nest. -/
  maxDepth : Nat
  deriving DecidableEq, Repr

/-- The options of a rendering that is told nothing. -/
def RenderOptions.standard : RenderOptions := ⟨.html, true, 64⟩

/-- What a rendering works with. -/
structure Renderer (F σ τ : Type) where
  host : Host F σ
  sink : Sink τ
  options : RenderOptions
  /-- The templates that partial tags name. -/
  partials : Text → Option Template

/-- Where nodes are rendered. -/
structure Setting (F : Type) where
  template : Template
  /-- The context stack, innermost frame first. -/
  scope : List F
  /-- How many partials and lambdas this is nested in. -/
  depth : Nat

namespace Setting

variable {F : Type}

/-- One frame further in. -/
def inside (here : Setting F) (frame : F) : Setting F := { here with scope := frame :: here.scope }

/-- In a nested template. -/
def nested (here : Setting F) (template : Template) : Setting F :=
  { here with template, depth := here.depth + 1 }

end Setting

/-- The tag that calls a lambda. -/
inductive LambdaTag
  | overSection (inner : Text) (delimiters : Delimiters)
  | overVariable (escaped : Bool)
  deriving DecidableEq

namespace LambdaTag

/-- What the lambda sees of the tag. -/
def view : LambdaTag → LambdaView
  | overSection inner _ => ⟨true, inner⟩
  | overVariable _      => ⟨false, []⟩

/-- Whether what the lambda writes is escaped. -/
def escapes : LambdaTag → Bool
  | overSection _ _      => false
  | overVariable escaped => escaped

/-- The delimiters with which a text of the lambda is compiled. -/
def delimiters : LambdaTag → Delimiters
  | overSection _ delimiters => delimiters
  | overVariable _           => .standard

/-- The name under which a lambda that nests too deep is reported. -/
def lambdaName : Text := ['<', 'l', 'a', 'm', 'b', 'd', 'a', '>']

end LambdaTag

namespace Renderer

open RenderM

variable {F σ τ : Type} (r : Renderer F σ τ)

/-- How a range of nodes is rendered one level further down. -/
abbrev Nested (F σ τ : Type) := Setting F → NodeRange → RenderM F σ τ Unit

/-! ### Asking the host -/

/-- Has the host look up the element of a path at an index. -/
def lookUp (frame : F) (path : Path) (index : Nat) :
    RenderM F σ τ (Except ResolveError (Lookup F)) := fun s =>
  let (answer, host) := r.host.get frame path index s.host
  .ok answer
    ({ s with host }.record (.got frame (.element path index) (answer.map Lookup.resolution)))

/-- The owner of a path, that is, the first frame that knows it, and its answer at index zero. -/
def owner (path : Path) : List F → RenderM F σ τ (Option (F × Lookup F))
  | []              => pure none
  | frame :: frames => do
    match ← r.lookUp frame path 0 with
    | .error e      => fail (.interpolation path.display e)
    | .ok .notFound => owner path frames
    | .ok answer    => pure (some (frame, answer))

/-- Carries out what a host does to write a value. `failure` is the first write that was refused;
after it no write is attempted. -/
def serve (escaped : Bool) (failure : Option SinkError) :
    Interpolation σ → RenderM F σ τ (Option SinkError × HostResult)
  | .answer result host => fun s => .ok (failure, result) { s with host }
  | .write raw text next => fun s =>
    match failure with
    | some e => serve escaped failure (next (.error e.kind)) s
    | none   =>
      match r.sink.writeData text (escaped && !raw) s with
      | .ok _ s    => serve escaped none (next (.ok ())) s
      | .error e s => serve escaped (some e) (next (.error e.kind)) s
  | .remark remark next => fun s => serve escaped failure next (s.record (.remarked remark))

/-- Has the host write the value of a path. A refused write beats the host's own answer. -/
def interpolate (frame : F) (path : Path) (escaped : Bool) : RenderM F σ τ Resolution := do
  let call := r.host.interpolate frame path escaped (← get).host
  let (failure, result) ← r.serve escaped none call
  record (.interpolated frame path result)
  match failure, result with
  | some e, _           => fail (.write e)
  | none, .error e      => fail (.interpolation path.display e)
  | none, .ok answer    => pure answer

/-! ### Nesting -/

/-- Stops if so many partials and lambdas are too many. -/
def checkDepth (depth : Nat) (name : Text) : RenderM F σ τ Unit := do
  if r.options.maxDepth < depth then
    record (.tooDeep r.options.maxDepth name)
    fail (.recursionLimit r.options.maxDepth name)

/-- Notes in the history when a nested rendering begins and when it ends, even if it stops. -/
def enclosed (name indent : Text) (act : RenderM F σ τ Unit) : RenderM F σ τ Unit := fun s =>
  match act (s.record (.entered name indent)) with
  | .ok _ s    => .ok () (s.record .left)
  | .error e s => .error e (s.record .left)

/-- Renders with more indentation, and takes it away again even if rendering stops. -/
def indented (indent : Text) (act : RenderM F σ τ Unit) : RenderM F σ τ Unit := fun s =>
  let mark := s.output.indent.length
  let restore (s : RenderState F σ τ) : RenderState F σ τ :=
    { s with output := { s.output with indent := s.output.indent.take mark } }
  match act { s with output := { s.output with indent := s.output.indent ++ indent } } with
  | .ok _ s    => .ok () (restore s)
  | .error e s => .error e (restore s)

/-- Bytes read as text; bytes that are no text are shown as one replacement character. -/
def readScratch (output : Output) : Text :=
  (Text.ofBytes? (output.scratch.getD .empty)).getD ['\uFFFD']

/-- Renders onto an output of its own and returns what was written there. -/
def onAside (act : RenderM F σ τ Unit) : RenderM F σ τ Text := fun s =>
  match act { s with output := .aside } with
  | .ok _ after    => .ok (readScratch after.output) { after with output := s.output }
  | .error e after => .error e { after with output := s.output }

/-! ### Lambdas -/

/-- Renders a text that a lambda made. If the result is to be escaped, it is rendered aside and
then written as data. -/
def renderLambdaText (below : Nested F σ τ) (here : Setting F) (tag : LambdaTag) (text : Text) :
    RenderM F σ τ Unit := do
  r.checkDepth (here.depth + 1) LambdaTag.lambdaName
  match Template.compile text tag.delimiters with
  | .error e =>
    record (.rejected e)
    fail (.lambda e)
  | .ok template =>
    let act := enclosed LambdaTag.lambdaName [] (below (here.nested template) template.root)
    if tag.escapes then
      let rendered ← onAside act
      ofWrite (r.sink.writeData rendered true)
    else act

/-- Carries out what a host does to expand a lambda. `failure` is the first failure so far; unlike
with values, later writes are still attempted. -/
def attend (below : Nested F σ τ) (here : Setting F) (tag : LambdaTag)
    (failure : Option RenderError) :
    Expansion σ → RenderM F σ τ (Option RenderError × HostResult)
  | .answer result host => fun s => .ok (failure, result) { s with host }
  | .write text next => fun s =>
    match r.sink.writeData text tag.escapes s with
    | .ok _ s    => attend below here tag failure (next true) s
    | .error e s => attend below here tag (failure <|> some (.write e)) (next false) s
  | .render text host next => fun s =>
    match r.renderLambdaText below here tag text { s with host } with
    | .ok _ s              => attend below here tag failure (next true s.host) s
    | .error (.failed e) s => attend below here tag (failure <|> some e) (next false s.host) s
    | .error .unfinished s => .error .unfinished s
  | .remark remark next => fun s =>
    attend below here tag failure next (s.record (.remarked remark))

/-- Has the host expand the lambda of a path. A failure on the way beats the host's own answer. -/
def expandLambda (below : Nested F σ τ) (here : Setting F) (frame : F) (path : Path)
    (tag : LambdaTag) : RenderM F σ τ Unit := do
  record (.expanding frame path)
  let call := r.host.expand frame path tag.view (← get).host
  let (failure, result) ← r.attend below here tag none call
  record (.expanded frame path result)
  match failure, result with
  | some e, _      => fail e
  | none, .error e => fail (.interpolation path.display e)
  | none, .ok _    => pure ()

/-! ### Nodes -/

/-- Has the frames write the value of a path, innermost first, until one knows it. -/
def writeValue (below : Nested F σ τ) (here : Setting F) (path : Path) (escaped : Bool) :
    List F → RenderM F σ τ Unit
  | []              => pure ()
  | frame :: frames => do
    match ← r.interpolate frame path escaped with
    | .notFound => writeValue below here path escaped frames
    | .lambda   => r.expandLambda below here frame path (.overVariable escaped)
    | _         => pure ()

/-- Renders a variable tag. -/
def renderVariable (below : Nested F σ τ) (here : Setting F) (tag : Variable) :
    RenderM F σ τ Unit :=
  r.writeValue below here tag.path (tag.escaped && r.options.escaping = .html) here.scope

/-- Renders a body for each element that the owner has from an index on. -/
def renderElements (frame : F) (path : Path) (body : F → RenderM F σ τ Unit) :
    Nat → Nat → RenderM F σ τ Unit
  | 0,     _     => throw .unfinished
  | n + 1, index => do
    match ← r.lookUp frame path index with
    | .error e          => fail (.interpolation (Query.element path index).display e)
    | .ok (.field elem) => do
      body elem
      renderElements frame path body n (index + 1)
    | .ok _             => pure ()

/-- Renders a section that is not inverted. -/
def renderSection (below : Nested F σ τ) (fuel : Nat) (here : Setting F) (tag : Section) :
    RenderM F σ τ Unit := do
  let body (elem : F) := below (here.inside elem) tag.body
  match ← r.owner tag.path here.scope with
  | some (frame, .field elem) => do
    body elem
    r.renderElements frame tag.path body fuel 1
  | some (frame, .lambda)     =>
    let inner := here.template.text tag.inner
    r.expandLambda below here frame tag.path (.overSection inner tag.delimiters)
  | _ => pure ()

/-- Renders an inverted section: its body, if the path has no owner, or its owner has neither an
element nor a lambda. -/
def renderInverted (below : Nested F σ τ) (here : Setting F) (tag : Section) :
    RenderM F σ τ Unit := do
  match ← r.owner tag.path here.scope with
  | some (_, .field _) => pure ()
  | some (_, .lambda)  => pure ()
  | _                  => below here tag.body

/-- Renders a partial tag; a name without a template renders nothing. -/
def renderPartial (below : Nested F σ τ) (here : Setting F) (tag : Partial) :
    RenderM F σ τ Unit := do
  match r.partials tag.name with
  | none          => pure ()
  | some template =>
    r.checkDepth (here.depth + 1) tag.name
    enclosed tag.name tag.indent <|
      indented tag.indent (below (here.nested template) template.root)

/-- Renders a node. -/
def renderNode (below : Nested F σ τ) (fuel : Nat) (here : Setting F) :
    Node → RenderM F σ τ Unit
  | .text span       => ofWrite (r.sink.writeText (here.template.text span))
  | .variableTag tag => r.renderVariable below here tag
  | .sectionTag tag  =>
    if tag.inverted then r.renderInverted below here tag
    else r.renderSection below fuel here tag
  | .partialTag tag  => r.renderPartial below here tag

/-- Renders a range of nodes, in order. -/
def renderNodes : Nat → Nested F σ τ
  | 0,     _,    _     => throw .unfinished
  | n + 1, here, range =>
    (here.template.nodes range).forM (r.renderNode (renderNodes n) n here)

/-- Renders a template with the root of the data, and flushes the sink if that succeeded. -/
def render (fuel : Nat) (template : Template) (root : F) : RenderM F σ τ Unit := do
  r.renderNodes fuel ⟨template, [root], 0⟩ template.root
  ofWrite r.sink.finish

end Renderer

end Mustache
