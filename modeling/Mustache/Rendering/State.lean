import Mustache.Rendering.Error

/-!
# The state of a rendering

A rendering changes the state of the host and of the sink, keeps track of where the output
stands, and records a history of what happened between renderer, host and sink. It goes on until
it is done, fails, or has used up its fuel; the state it had reached is known in each case.
-/

namespace Mustache

/-- Where the output stands. -/
structure Output where
  /-- The indentation of the partials being rendered, outermost first. -/
  indent : Text
  /-- Whether the next character starts a line. -/
  atLineStart : Bool
  /-- The bytes written aside for a lambda whose result is escaped later; `none` while the output
  goes to the sink. -/
  scratch : Option ByteArray

namespace Output

/-- An output to the sink of which nothing has been written. -/
def fresh : Output := ⟨[], true, none⟩

/-- An output aside of which nothing has been written. -/
def aside : Output := ⟨[], true, some .empty⟩

end Output

/-- What happened between the renderer, the host and the sink. -/
inductive Event (F : Type)
  /-- The host looked up an element. -/
  | got (frame : F) (query : Query) (result : HostResult)
  /-- The host finished writing a value. -/
  | interpolated (frame : F) (path : Path) (result : HostResult)
  /-- The host gave the probable size of a value. -/
  | hinted (frame : F) (path : Path) (resolution : Resolution) (size : Nat)
  /-- Room for so many bytes was set aside. -/
  | reserved (size : Nat)
  /-- The host began to expand a lambda. -/
  | expanding (frame : F) (path : Path)
  /-- The host finished expanding a lambda. -/
  | expanded (frame : F) (path : Path) (result : HostResult)
  /-- The sink took a write. -/
  | wrote (text : Text)
  /-- The sink refused a write. -/
  | refused (error : SinkError)
  /-- The sink was flushed. -/
  | flushed (result : Except SinkError Unit)
  /-- A lambda had a text rendered that is no template. -/
  | rejected (error : ParseError)
  /-- A partial or a text of a lambda was not rendered for being nested too deep. -/
  | tooDeep (limit : Nat) (name : Text)
  /-- A partial or a text of a lambda began to be rendered, its lines indented so much more. -/
  | entered (name indent : Text)
  /-- The rendering begun last among those still going on was done, or had stopped. -/
  | left
  /-- Literal text or data was about to be written to the output as it stood. -/
  | writing (output : Output)
  | remarked (remark : Remark)

/-- The state of a rendering for a host with frames in `F` and states in `σ` and a sink with
states in `τ`. -/
structure RenderState (F σ τ : Type) where
  host : σ
  sink : τ
  output : Output
  /-- What has happened so far, newest first. -/
  history : List (Event F)

namespace RenderState

variable {F σ τ : Type}

/-- The state in which a rendering starts. -/
def start (host : σ) (sink : τ) : RenderState F σ τ := ⟨host, sink, .fresh, []⟩

/-- What has happened so far, in order. -/
def events (s : RenderState F σ τ) : List (Event F) := s.history.reverse

/-- Adds to the history. -/
def record (s : RenderState F σ τ) (e : Event F) : RenderState F σ τ :=
  { s with history := e :: s.history }

end RenderState

/-- Why a rendering is not done. -/
inductive Halt
  | failed (error : RenderError)
  /-- The fuel was used up; with more of it the rendering might go on. -/
  | unfinished
  deriving DecidableEq, Repr

/-- Writing, which the sink may refuse. -/
abbrev WriteM (F σ τ : Type) := EStateM SinkError (RenderState F σ τ)

/-- Rendering, which may fail or remain unfinished. -/
abbrev RenderM (F σ τ : Type) := EStateM Halt (RenderState F σ τ)

namespace RenderM

variable {F σ τ : Type}

/-- Stops with an error. -/
def fail {α : Type} (error : RenderError) : RenderM F σ τ α := throw (.failed error)

/-- Adds to the history. -/
def record (e : Event F) : RenderM F σ τ Unit := modify (·.record e)

/-- A refused write stops the rendering. -/
def ofWrite {α : Type} (act : WriteM F σ τ α) : RenderM F σ τ α :=
  EStateM.adaptExcept (fun e => .failed (.write e)) act

end RenderM

end Mustache
