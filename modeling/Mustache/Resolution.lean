/-!
# Resolutions

A host answers every question about a path with one of five resolutions, or fails with a code of
its own. That a name is unknown is an answer and not a failure.
-/

namespace Mustache

/-- How the look-up of a path comes out. -/
inductive Resolution
  /-- The first segment is unknown here; an outer context may know it. -/
  | notFound
  /-- The first segment is known, but a later one is not; no outer context is asked. -/
  | broken
  /-- There is no element at the index asked for. -/
  | consumed
  /-- The value is computed when it is needed. -/
  | lambda
  /-- The value is there. -/
  | field
  deriving DecidableEq, Repr

namespace Resolution

/-- The number of a resolution. -/
def code : Resolution → Nat
  | notFound => 0
  | broken   => 1
  | consumed => 2
  | lambda   => 3
  | field    => 4

/-- A resolution in words. -/
def message : Resolution → String
  | notFound => "not found in context"
  | broken   => "chain broken"
  | consumed => "iterator consumed"
  | lambda   => "lambda"
  | field    => "field"

end Resolution

/-- The failure of a host. The code means something to the host only. -/
structure ResolveError where
  code : UInt32
  deriving DecidableEq, Repr

namespace ResolveError

/-- What a host is told when its write or its rendering failed: the renderer has recorded the
failure, and the host only has to return. -/
def aborted : ResolveError := ⟨0xFFFFFFFF⟩

/-- The failure in words. -/
def message (e : ResolveError) : String := "resolver error code " ++ toString e.code.toNat

end ResolveError

end Mustache
