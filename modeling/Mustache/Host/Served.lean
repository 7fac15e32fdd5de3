import Mustache.Host.Value

/-!
# Serving values

The host that serves values. A frame is a value with a label that tells how it was reached from
the root. The host remembers which lambdas it has expanded, so that a lambda can tell how often it
was called.
-/

namespace Mustache

/-- A value as a context. -/
structure Frame where
  /-- A dollar sign for the root, then the queries that led here, each after a slash. -/
  label : Text
  value : Value

namespace Frame

/-- The frame of the root of the data. -/
def root (value : Value) : Frame := ⟨['$'], value⟩

/-- The frame of an element found by a query. -/
def child (parent : Frame) (query : Query) (value : Value) : Frame :=
  ⟨parent.label ++ '/' :: query.display, value⟩

end Frame

/-- The numbers of the lambdas and stand-ins expanded so far, newest first. -/
abbrev Calls := List Nat

namespace Served

/-- Looks up an element. -/
def get (frame : Frame) (path : Path) (index : Nat) (calls : Calls) :
    Except ResolveError (Lookup Frame) × Calls :=
  (match frame.value.resolve path with
    | .error r  => .ok (.ofResolution r)
    | .ok value =>
      match value.element index with
      | .error e          => .error e
      | .ok (.field elem) => .ok (.field (frame.child (.element path index) elem))
      | .ok .notFound     => .ok .notFound
      | .ok .broken       => .ok .broken
      | .ok .consumed     => .ok .consumed
      | .ok .lambda       => .ok .lambda, calls)

/-- Follows a script for writing a value. -/
def write (escaped : Bool) (result : HostResult) (calls : Calls) :
    List WriteStep → Interpolation Calls
  | []            => .answer result calls
  | step :: steps =>
    let rest := write escaped result calls steps
    let required : Except SinkErrorKind Unit → Interpolation Calls
      | .ok ()   => rest
      | .error _ => .answer (.error .aborted) calls
    let tried : Except SinkErrorKind Unit → Interpolation Calls
      | .ok ()      => rest
      | .error kind => .remark (.writeFailed kind) rest
    match step with
    | .text t      => .write false t required
    | .raw t       => .write true t required
    | .escapedMark => .write true [if escaped then 'E' else 'R'] required
    | .tryText t   => .write false t tried
    | .tryRaw t    => .write true t tried

/-- Writes the value of a path. -/
def interpolate (frame : Frame) (path : Path) (escaped : Bool) (calls : Calls) :
    Interpolation Calls :=
  match frame.value.resolve path with
  | .error r => .answer (.ok r) calls
  | .ok (.failing e) => .answer (.error e) calls
  | .ok (.lambda ..) => .answer (.ok .lambda) calls
  | .ok (.standIn _ _ writing _ _) => write escaped writing.result calls writing.steps
  | .ok value =>
    match value.scalar? with
    | some t => write escaped (.ok .field) calls [.text t]
    | none   => .answer (.ok .field) calls

/-- Follows the script of the lambda with a number. -/
def expandBy (number : Nat) (view : LambdaView) (result : HostResult) :
    List ExpandStep → Calls → Expansion Calls
  | [],            calls => .answer result calls
  | step :: steps, calls =>
    let rest := expandBy number view result steps
    let required (calls : Calls) (done : Bool) : Expansion Calls :=
      if done then rest calls else .answer (.error .aborted) calls
    let tried (calls : Calls) (done : Bool) : Expansion Calls :=
      if done then rest calls else .remark (.lambdaFailed .aborted) (rest calls)
    match step with
    | .write t           => .write t (required calls)
    | .render t          => .render t calls fun done calls => required calls done
    | .inner             => .write view.inner (required calls)
    | .wrap before after =>
      .render (before ++ view.inner ++ after) calls fun done calls => required calls done
    | .kind              => .write [if view.isSection then 'S' else 'V'] (required calls)
    | .count             => .write (.ofNat (calls.count number)) (required calls)
    | .tryWrite t        => .write t (tried calls)
    | .tryRender t       => .render t calls fun done calls => tried calls done

/-- Expands the lambda of a path. -/
def expand (frame : Frame) (path : Path) (view : LambdaView) (calls : Calls) :
    Expansion Calls :=
  match frame.value.resolve path with
  | .error r => .answer (.ok r) calls
  | .ok (.lambda number script) =>
    expandBy number view script.result script.steps (number :: calls)
  | .ok (.standIn number _ _ script _) =>
    expandBy number view script.result script.steps (number :: calls)
  | .ok _ => .answer (.ok .field) calls

/-- Gives the probable size of the value of a path. -/
def hint (frame : Frame) (path : Path) (calls : Calls) : (Resolution × Nat) × Calls :=
  (match frame.value.resolve path with
    | .error r  => (r, 0)
    | .ok value => value.hint, calls)

/-- The host that serves values. -/
def host : Host Frame Calls where
  get := get
  interpolate := interpolate
  expand := expand
  hint := hint

end Served

end Mustache
