import Mustache.Template.Error
import Mustache.Host

/-!
# Render errors

Why a rendering stopped. What the sink had taken by then stays there.
-/

namespace Mustache

/-- Why a rendering stopped. -/
inductive RenderError
  /-- The host failed on a query. -/
  | interpolation (query : Text) (error : ResolveError)
  /-- The sink refused a write or the flush. -/
  | write (error : SinkError)
  /-- A lambda had a text rendered that is no template. -/
  | lambda (error : ParseError)
  /-- Partials and lambdas are nested too deep. -/
  | recursionLimit (limit : Nat) (name : Text)
  /-- There is no memory for the output. -/
  | outOfMemory (requested : Nat)
  deriving DecidableEq, Repr

namespace RenderError

/-- The error in words. -/
def message : RenderError → String
  | interpolation query error =>
    "resolving `" ++ String.ofList query ++ "` failed: " ++ error.message
  | write error => "writing output failed: " ++ String.ofList error.message
  | lambda error => "lambda output is not a valid template: " ++ error.message
  | recursionLimit limit name =>
    "nesting depth limit " ++ toString limit ++ " exceeded at `" ++ String.ofList name ++ "`"
  | outOfMemory requested => "out of memory reserving " ++ toString requested ++ " bytes of output"

/-- The code of the host, if it was the host that failed. -/
def resolverCode? : RenderError → Option UInt32
  | interpolation _ error => some error.code
  | _                     => none

end RenderError

end Mustache
