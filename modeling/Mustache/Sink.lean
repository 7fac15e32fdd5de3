import Mustache.Text.Basic

/-!
# Sinks

A sink takes the bytes of a rendering, one write after the other, and may refuse a write or the
final flush. What a sink remembers is a value of its own state, which every call returns anew.
-/

namespace Mustache

/-- What kind of failure a sink reports. -/
inductive SinkErrorKind
  /-- No room is left. -/
  | full
  /-- Nobody reads any more. -/
  | closed
  /-- What was written is no text. -/
  | invalidData
  | other
  deriving DecidableEq, Repr

/-- The failure of a sink. -/
structure SinkError where
  kind : SinkErrorKind
  message : Text
  deriving DecidableEq, Repr

/-- A sink with states in `τ`. A refused write takes nothing. -/
structure Sink (τ : Type) where
  write : ByteArray → τ → Except SinkError Unit × τ
  flush : τ → Except SinkError Unit × τ

namespace Sink

/-- The sink that keeps all it is given and never fails. -/
def buffer : Sink ByteArray where
  write bytes kept := (.ok (), kept ++ bytes)
  flush kept := (.ok (), kept)

/-- How a limited sink behaves. -/
structure Limit where
  /-- The number of bytes it takes in total; `none` if there is no limit. -/
  room : Option Nat
  /-- What it fails with. -/
  error : SinkError
  /-- Whether the final flush fails. -/
  flushFails : Bool
  deriving DecidableEq, Repr

/-- Whether so many bytes fit. -/
def Limit.allows (limit : Limit) (size : Nat) : Bool :=
  match limit.room with
  | none      => true
  | some room => size ≤ room

/-- The sink that keeps what it is given and refuses, as a whole, a write that does not fit. -/
def limited (limit : Limit) : Sink ByteArray where
  write bytes kept :=
    if limit.allows (kept.size + bytes.size) then (.ok (), kept ++ bytes)
    else (.error limit.error, kept)
  flush kept := (if limit.flushFails then .error limit.error else .ok (), kept)

end Sink

end Mustache
