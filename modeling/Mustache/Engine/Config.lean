import Mustache.Rendering.Renderer

/-!
# Configurations

What an engine can be told. A configuration holds what it was given, right or wrong; it is judged
once, when an engine is made of it.
-/

namespace Mustache

/-- What an engine can be told. -/
structure Config where
  opening : Text
  closing : Text
  options : RenderOptions
  deriving DecidableEq

/-- Why a configuration is not valid. -/
inductive ConfigError
  | noDepth
  | delimiters (error : DelimiterError)
  deriving DecidableEq, Repr

/-- What is wrong, in words. -/
def ConfigError.message : ConfigError → String
  | .noDepth      => "max_depth must be at least 1"
  | .delimiters e => "delimiters: " ++ e.message

namespace Config

/-- The configuration of an engine that is told nothing. -/
def standard : Config :=
  ⟨Delimiters.standard.opening, Delimiters.standard.closing, .standard⟩

/-- The delimiters of a valid configuration. A depth limit of zero is found first. -/
def validate (c : Config) : Except ConfigError Delimiters :=
  if c.options.maxDepth = 0 then .error .noDepth
  else (Delimiters.make c.opening c.closing).mapError .delimiters

end Config

end Mustache
