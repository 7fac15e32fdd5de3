import Mustache.Token
import Mustache.Path

/-!
# Parse errors

Why a source is no template, and the span of the tag at fault. Each cause has a code.
-/

namespace Mustache

/-- Why a source is no template. -/
inductive ParseFault
  | unclosedTag (expected : Text)
  | invalidDelimiters (reason : DelimiterTagError)
  | emptyName
  | invalidPath (name : Text)
  /-- A closing tag outside every section. -/
  | unexpectedClose (name : Text)
  /-- A closing tag with another name than the innermost open section. -/
  | mismatchedClose (expected found : Text)
  | unclosedSection (name : Text)
  | sourceTooLarge (size : Nat)
  deriving DecidableEq, Repr

namespace ParseFault

/-- The code of a fault. -/
def code : ParseFault → String
  | unclosedTag _       => "E1001"
  | invalidDelimiters _ => "E1002"
  | emptyName           => "E1003"
  | invalidPath _       => "E1004"
  | unexpectedClose _   => "E1005"
  | mismatchedClose _ _ => "E1006"
  | unclosedSection _   => "E1007"
  | sourceTooLarge _    => "E1008"

/-- A text between backticks. -/
private def ticked (t : Text) : String := "`" ++ String.ofList t ++ "`"

/-- The fault in words. -/
def message : ParseFault → String
  | unclosedTag expected =>
    "unclosed tag: expected " ++ ticked expected ++ " before end of template"
  | invalidDelimiters reason => "invalid delimiter change: " ++ reason.message
  | emptyName => "tag requires a name"
  | invalidPath name => "invalid name " ++ ticked name
  | unexpectedClose name => "unexpected close tag " ++ ticked name ++ " with no open section"
  | mismatchedClose expected found =>
    "mismatched close tag: expected " ++ ticked expected ++ ", found " ++ ticked found
  | unclosedSection name => "unclosed section " ++ ticked name
  | sourceTooLarge size => "template is too large (" ++ toString size ++ " bytes)"

/-- The fault of a name that cannot be read. -/
def ofPathError : PathError → ParseFault
  | .empty          => emptyName
  | .malformed name => invalidPath name

end ParseFault

/-- A fault and where it was found. -/
structure ParseError where
  fault : ParseFault
  span : Span
  deriving DecidableEq, Repr

namespace ParseError

/-- The error in words. -/
def message (e : ParseError) : String := e.fault.message

/-- The line and column of the error in the source it was found in. -/
def position (e : ParseError) (source : Text) : Position := e.span.position source

/-- The error of a source that cannot be split into tokens. -/
def ofScanError : ScanError → ParseError
  | .unclosedTag span expected     => ⟨.unclosedTag expected, span⟩
  | .invalidDelimiters span reason => ⟨.invalidDelimiters reason, span⟩

end ParseError

end Mustache
