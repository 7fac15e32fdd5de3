import Mustache.Engine.Config

/-!
# Engine errors

The failures of an engine, sorted by what the caller can do about them, with a status number for
each sort.
-/

namespace Mustache

/-- Any failure of an engine. -/
inductive EngineError
  /-- The caller passed something invalid. -/
  | invalidArgument (reason : String)
  /-- A source is no template. -/
  | parse (error : ParseError)
  /-- A rendering stopped. -/
  | render (error : RenderError)
  /-- There is no memory for the output. -/
  | outOfMemory (requested : Nat)
  deriving DecidableEq

/-- How a call came out. -/
inductive Status
  | success
  | invalidArgument
  | parseError
  | renderError
  | outOfMemory
  deriving DecidableEq, Repr

/-- The number of a status. -/
def Status.code : Status → Nat
  | success         => 0
  | invalidArgument => 1
  | parseError      => 2
  | renderError     => 3
  | outOfMemory     => 4

namespace EngineError

/-- The error in words. -/
def message : EngineError → String
  | invalidArgument reason => "invalid argument: " ++ reason
  | parse error            => "parse error: " ++ error.message
  | render error           => "render error: " ++ error.message
  | outOfMemory requested  => "out of memory reserving " ++ toString requested ++ " bytes"

/-- The status of a call that fails. -/
def status : EngineError → Status
  | invalidArgument _ => .invalidArgument
  | parse _           => .parseError
  | render _          => .renderError
  | outOfMemory _     => .outOfMemory

/-- The code of the host, if it was the host that failed. -/
def resolverCode? : EngineError → Option UInt32
  | render error => error.resolverCode?
  | _            => none

/-- A source that is too large is the caller's fault. -/
def ofParseError (e : ParseError) : EngineError :=
  match e.fault with
  | .sourceTooLarge size =>
    invalidArgument ("template of " ++ toString size ++ " bytes is too large")
  | _ => parse e

/-- Lack of memory is not a fault of the rendering. -/
def ofRenderError : RenderError → EngineError
  | .outOfMemory requested => outOfMemory requested
  | e                      => render e

/-- The error of a configuration that is not valid. -/
def ofConfigError (e : ConfigError) : EngineError := invalidArgument e.message

end EngineError

/-- The status of a call. -/
def Status.of {α : Type} : Except EngineError α → Status
  | .ok _    => .success
  | .error e => e.status

end Mustache
