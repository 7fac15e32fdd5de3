import Mustache.Path
import Mustache.Resolution
import Mustache.Sink

/-!
# Hosts

A host owns the data of a rendering. The renderer never sees the data: it asks the host about
paths, has it write values and expand lambdas. One context of the data, the root or an element of
a section, is a frame. What a host remembers between calls is a state of its own.

While a host writes a value or expands a lambda it calls back. Such a call is a tree of requests,
each with what the host does next, so it makes finitely many of them; the renderer carries the
requests out and goes down the tree.
-/

namespace Mustache

/-- What a host says about an element of what a path names. -/
inductive Lookup (F : Type)
  | notFound
  | broken
  | consumed
  | lambda
  /-- The element is there, and this is its context. -/
  | field (context : F)
  deriving DecidableEq, Repr

namespace Lookup

variable {F : Type}

/-- The answer without the context. -/
def resolution : Lookup F → Resolution
  | notFound => .notFound
  | broken   => .broken
  | consumed => .consumed
  | lambda   => .lambda
  | field _  => .field

/-- The answer that needs no context; as there is none for a field, a field counts as no element
left. -/
def ofResolution : Resolution → Lookup F
  | .notFound => notFound
  | .broken   => broken
  | .consumed => consumed
  | .lambda   => lambda
  | .field    => consumed

end Lookup

/-- What a host answers a request to write or to expand: how it came out, or the host's failure. -/
abbrev HostResult := Except ResolveError Resolution

/-- Something a host notes down for whoever reads the history of a rendering. -/
inductive Remark
  /-- A write failed, and the host went on. -/
  | writeFailed (kind : SinkErrorKind)
  /-- A write or a rendering inside a lambda failed, and the host went on. -/
  | lambdaFailed (error : ResolveError)
  deriving DecidableEq, Repr

/-- What a host does to write the value of a path. -/
inductive Interpolation (σ : Type)
  /-- It is done. -/
  | answer (result : HostResult) (state : σ)
  /-- It writes data, escaped as the tag says or raw, and hears whether that failed. -/
  | write (raw : Bool) (text : Text) (next : Except SinkErrorKind Unit → Interpolation σ)
  | remark (remark : Remark) (next : Interpolation σ)

/-- What a lambda sees of the tag that calls it. -/
structure LambdaView where
  isSection : Bool
  /-- The source of the body; empty unless the tag opens a section. -/
  inner : Text
  deriving DecidableEq, Repr

/-- What a host does to expand a lambda. -/
inductive Expansion (σ : Type)
  /-- It is done. -/
  | answer (result : HostResult) (state : σ)
  /-- It writes data and hears whether that succeeded. -/
  | write (text : Text) (next : Bool → Expansion σ)
  /-- It has a text rendered as a template, which may call the host again, and hears whether that
  succeeded and what its state is now. -/
  | render (text : Text) (state : σ) (next : Bool → σ → Expansion σ)
  | remark (remark : Remark) (next : Expansion σ)

/-- A host with frames in `F` and states in `σ`. -/
structure Host (F σ : Type) where
  /-- Looks up the element of a path at an index. -/
  get : F → Path → Nat → σ → Except ResolveError (Lookup F) × σ
  /-- Writes the value of a path; the flag tells whether what it writes as text gets escaped. -/
  interpolate : F → Path → Bool → σ → Interpolation σ
  /-- Expands the lambda of a path. -/
  expand : F → Path → LambdaView → σ → Expansion σ
  /-- How many bytes the value of a path will probably take. -/
  hint : F → Path → σ → (Resolution × Nat) × σ

namespace Host

/-- The host that answers everything alike and writes nothing. -/
def constant (resolution : Resolution) : Host Unit Unit where
  get _ _ _ s := (.ok (.ofResolution resolution), s)
  interpolate _ _ _ s := .answer (.ok resolution) s
  expand _ _ _ s := .answer (.ok .notFound) s
  hint _ _ s := ((.notFound, 0), s)

/-- The host that knows nothing. -/
def empty : Host Unit Unit := constant .notFound

end Host

end Mustache
