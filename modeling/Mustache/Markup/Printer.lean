import Mustache.Markup
import Mustache.Token

/-!
# Writing markup

Markup is written with one pair of delimiters throughout, a space on either side of every name.
-/

namespace Mustache

/-- A tag with a sigil. -/
def Delimiters.tag (d : Delimiters) (sigil : Sigil) (name : Text) : Text :=
  d.opening ++ sigil.text ++ ' ' :: name ++ ' ' :: sigil.closing d

namespace Markup

mutual

/-- Markup as it is written in a source. -/
def print (d : Delimiters) : Markup → Text
  | .text t                        => t
  | .variableTag path escaped      => d.tag (if escaped then .absent else .ampersand) path.display
  | .sectionTag path inverted body =>
    d.tag (if inverted then .caret else .hash) path.display ++ printAll d body ++
      d.tag .slash path.display
  | .partialTag name _             => d.tag .angle name

/-- A sequence of markup as it is written in a source. -/
def printAll (d : Delimiters) : List Markup → Text
  | []      => []
  | m :: ms => m.print d ++ printAll d ms

end

@[simp] theorem printAll_nil (d : Delimiters) : printAll d [] = [] := by simp [printAll]

@[simp] theorem printAll_cons (d : Delimiters) (m : Markup) (ms : List Markup) :
    printAll d (m :: ms) = m.print d ++ printAll d ms := by simp [printAll]

@[simp] theorem printAll_append (d : Delimiters) (ms ns : List Markup) :
    printAll d (ms ++ ns) = printAll d ms ++ printAll d ns := by
  induction ms with
  | nil => simp
  | cons m ms ih => simp [ih, List.append_assoc]

end Markup

end Mustache
