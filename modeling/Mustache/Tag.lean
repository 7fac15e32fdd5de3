import Mustache.Template.Error

/-!
# Tags

A tag says what to do: write a value, open or close a section, use a partial, change the
delimiters, or nothing at all. Its sigil gives the kind and its content the name.
-/

namespace Mustache

/-- What a tag says. -/
inductive Tag
  | variableTag (path : Path) (escaped : Bool)
  | openTag (path : Path) (inverted : Bool)
  | closeTag (path : Path)
  | commentTag
  | partialTag (name : Text)
  | delimiterTag
  deriving DecidableEq, Repr

namespace Tag

/-- Whether the tag vanishes together with its line when it stands alone on it. -/
def canStandAlone : Tag → Bool
  | variableTag _ _ => false
  | _               => true

/-- Reads the content of a tag as a name; `span` is the whole tag. -/
def readPath (content : Text) (span : Span) : Except ParseError Path :=
  (Path.parse content).mapError fun e => ⟨.ofPathError e, span⟩

/-- What a tag of a given sigil and content says. -/
def ofContent (sigil : Sigil) (content : Text) (span : Span) : Except ParseError Tag :=
  match sigil with
  | .absent    => (readPath content span).map (variableTag · true)
  | .brace     => (readPath content span).map (variableTag · false)
  | .ampersand => (readPath content span).map (variableTag · false)
  | .hash      => (readPath content span).map (openTag · false)
  | .caret     => (readPath content span).map (openTag · true)
  | .slash     => (readPath content span).map closeTag
  | .bang      => .ok commentTag
  | .angle     => if content = [] then .error ⟨.emptyName, span⟩ else .ok (partialTag content)
  | .equals    => .ok delimiterTag

/-- What a tag found in `source` says. -/
def ofRaw (raw : RawTag) (source : Text) : Except ParseError Tag :=
  ofContent raw.sigil (raw.content.slice source) raw.span

end Tag

end Mustache
