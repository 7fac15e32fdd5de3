import Mustache.Markup
import Mustache.Escape
import Mustache.Host.Value

/-!
# What markup means

The meaning of markup over plain values, told directly: no host, no sink and no table of nodes. A
name belongs to the innermost value that has its first segment. A variable tag stands for a scalar
and a section for its body, once for each element of a value; an inverted section is there when a
value has no element.
-/

namespace Mustache

/-- A value without lambdas, failures and stand-ins. -/
inductive Value.Plain : Value → Prop
  | null : Plain .null
  | bool (b : Bool) : Plain (.bool b)
  | int (n : Int) : Plain (.int n)
  | text (t : Text) : Plain (.text t)
  | list {elements : List Value} (h : ∀ v ∈ elements, v.Plain) : Plain (.list elements)
  | map {members : List (Text × Value)} (h : ∀ m ∈ members, m.2.Plain) : Plain (.map members)

/-- What a section over a value is rendered for: the elements of a list, and any other value that
counts as true. -/
def Value.elements : Value → List Value
  | .list elements => elements
  | v              => if v.isTruthy then [v] else []

namespace Markup

/-- What a path names on a stack of values, innermost first. -/
def find? (path : Path) : List Value → Option Value
  | []         => none
  | v :: outer =>
    match v.resolve path with
    | .ok value        => some value
    | .error .notFound => find? path outer
    | .error _         => none

/-- What a section over a path is rendered for. -/
def elements (path : Path) (stack : List Value) : List Value :=
  match find? path stack with
  | some value => value.elements
  | none       => []

/-- What a variable tag writes before any escaping. -/
def scalar (path : Path) (stack : List Value) : Text :=
  ((find? path stack).bind Value.scalar?).getD []

mutual

/-- The text that markup stands for. -/
def evaluate (escaping : Escaping) (stack : List Value) : Markup → Text
  | .text t                     => t
  | .variableTag path escaped  =>
    if escaped && escaping = .html then escapeHtml (scalar path stack) else scalar path stack
  | .sectionTag path false body =>
    (elements path stack).flatMap fun v => evaluateAll escaping (v :: stack) body
  | .sectionTag path true body =>
    if elements path stack = [] then evaluateAll escaping stack body else []
  | .partialTag _ _            => []

/-- The text that a sequence of markup stands for. -/
def evaluateAll (escaping : Escaping) (stack : List Value) : List Markup → Text
  | []      => []
  | m :: ms => m.evaluate escaping stack ++ evaluateAll escaping stack ms

end

@[simp] theorem evaluateAll_nil (escaping : Escaping) (stack : List Value) :
    evaluateAll escaping stack [] = [] := by simp [evaluateAll]

@[simp] theorem evaluateAll_cons (escaping : Escaping) (stack : List Value) (m : Markup)
    (ms : List Markup) :
    evaluateAll escaping stack (m :: ms) =
      m.evaluate escaping stack ++ evaluateAll escaping stack ms := by simp [evaluateAll]

end Markup

end Mustache
