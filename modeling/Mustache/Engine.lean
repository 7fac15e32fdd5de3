import Mustache.Engine.Error
import Mustache.Rendering.Estimate

/-!
# Engines

An engine compiles and renders with one configuration, and keeps templates under names for partial
tags to use. A call that fails leaves the engine as it was.
-/

namespace Mustache

/-- An engine. -/
structure Engine where
  config : Config
  /-- The delimiters at the start of every source. -/
  delimiters : Delimiters
  /-- The templates kept for partial tags, by name. -/
  partials : List (Text × Template)
  deriving DecidableEq

namespace Engine

/-- The engine that is told nothing. -/
def standard : Engine := ⟨.standard, .standard, []⟩

/-- An engine with a configuration, and no partials yet. -/
def make (config : Config) : Except EngineError Engine :=
  match config.validate with
  | .error e       => .error (.ofConfigError e)
  | .ok delimiters => .ok ⟨config, delimiters, []⟩

/-- Compiles a source. -/
def compile (e : Engine) (source : Text) : Except EngineError Template :=
  (Template.compile source e.delimiters).mapError .ofParseError

/-- The template kept under a name. -/
def partial? (e : Engine) (name : Text) : Option Template := e.partials.lookup name

/-- Keeps a template under a name, in place of any other; a name must not be blank. -/
def insert (e : Engine) (name : Text) (template : Template) : Except EngineError Engine :=
  if name.trim = [] then .error (.invalidArgument "partial name is empty")
  else .ok { e with partials := (name, template) :: e.partials.filter (·.1 ≠ name) }

/-- Compiles a source and keeps it under a name. -/
def register (e : Engine) (name source : Text) : Except EngineError Engine :=
  (e.compile source).bind (e.insert name)

/-- The names of partials that a template uses and the engine does not have. -/
def missing (e : Engine) (template : Template) : List Text :=
  template.partialNames.filter fun name => (e.partial? name).isNone

/-- What the engine renders with. -/
def renderer {F σ τ : Type} (e : Engine) (host : Host F σ) (sink : Sink τ) : Renderer F σ τ :=
  ⟨host, sink, e.config.options, e.partial?⟩

end Engine

end Mustache
