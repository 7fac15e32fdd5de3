import Mustache.Text.Basic

/-!
# Cursors

A cursor is a byte offset into a text that only moves forward and never past the end. It may stand
inside a character: then no text is left to read from there, though the byte under it is known.
-/

namespace Mustache

/-- A byte offset into a text. -/
structure Cursor where
  source : Text
  offset : Nat
  deriving DecidableEq, Repr

namespace Cursor

/-- The cursor at the start of a text. -/
def start (source : Text) : Cursor := ⟨source, 0⟩

/-- Number of bytes of the whole text. -/
def size (c : Cursor) : Nat := c.source.byteSize

/-- Whether the cursor has reached the end. -/
def atEnd (c : Cursor) : Bool := c.size ≤ c.offset

/-- The text from the cursor on; empty inside a character. -/
def rest (c : Cursor) : Text := (c.source.dropBytes? c.offset).getD []

/-- The byte under the cursor; zero at the end. -/
def byte (c : Cursor) : UInt8 := c.source.bytes.data.getD c.offset 0

/-- Moves the cursor forward by `n` bytes, at most to the end. -/
def advance (c : Cursor) (n : Nat) : Cursor := { c with offset := min (c.offset + n) c.size }

/-- Moves the cursor to the end. -/
def advanceToEnd (c : Cursor) : Cursor := { c with offset := c.size }

/-- Number of bytes from the cursor to the next occurrence of `needle`. -/
def find? (c : Cursor) (needle : Text) : Option Nat :=
  (Text.cut? needle c.rest).map fun (before, _) => before.byteSize

/-- The text between two offsets of the whole text. -/
def slice (c : Cursor) (start stop : Nat) : Text := c.source.slice start stop

end Cursor

end Mustache
