import Mustache.Rendering.Renderer

/-!
# Estimating the size of an output

Before rendering into a text, room is set aside for the literal text at every depth and for the
values of the tags outside every section, whose sizes the host is asked for. Inside a section a
name may belong to another frame, so nothing is asked there. Hints are not trusted: sums stop at
the largest word, and the room is limited.
-/

namespace Mustache

/-- The largest number of bytes set aside. -/
def maxReserve : Nat := 16 * 1024 * 1024

/-- The largest number a sum of sizes can take. -/
def maxSize : Nat := 0xFFFFFFFFFFFFFFFF

/-- The sum of two sizes, which stops at the largest. -/
def addSize (a b : Nat) : Nat := min (a + b) maxSize

namespace Template

/-- Bytes of literal text in a range of nodes and in the bodies inside it, so many levels down. -/
def literalSize (t : Template) : Nat → NodeRange → Nat
  | 0,     _     => 0
  | n + 1, range =>
    (t.nodes range).foldl (fun sum node => addSize sum <|
      match node with
      | .text span      => span.length
      | .sectionTag tag => literalSize t n tag.body
      | _               => 0) 0

end Template

namespace Renderer

open RenderM

variable {F σ τ : Type} (r : Renderer F σ τ)

/-- Asks the host for the size of a value; only that of a field counts. -/
def askSize (root : F) (path : Path) : RenderM F σ τ Nat := fun s =>
  let ((resolution, size), host) := r.host.hint root path s.host
  .ok (if resolution = .field then size else 0)
    ({ s with host }.record (.hinted root path resolution size))

/-- The probable size of the output of a node outside every section. -/
def estimateNode (template : Template) (root : F) : Node → RenderM F σ τ Nat
  | .text span       => pure span.length
  | .variableTag tag => r.askSize root tag.path
  | .sectionTag tag  => pure (template.literalSize template.nodeCount tag.body)
  | .partialTag _    => pure 0

/-- The number of bytes to set aside for the output of a template. -/
def estimate (template : Template) (root : F) : RenderM F σ τ Nat := do
  let sum ← template.rootNodes.foldlM (fun sum node => do
    return addSize sum (← r.estimateNode template root node)) 0
  return min sum maxReserve

/-- The failure of a buffer that holds no text. -/
def invalidText : SinkError := ⟨.invalidData, "invalid utf-8".toList⟩

/-- Renders into a text. -/
def renderToText (r : Renderer F σ ByteArray) (fuel : Nat) (template : Template) (root : F) :
    RenderM F σ ByteArray Text := do
  if r.options.hints then
    let size ← r.estimate template root
    record (.reserved size)
  r.render fuel template root
  match Text.ofBytes? (← get).sink with
  | some text => pure text
  | none      => fail (.write invalidText)

end Renderer

end Mustache
