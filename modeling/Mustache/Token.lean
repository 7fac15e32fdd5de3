import Mustache.Span
import Mustache.Delimiters

/-!
# Tokens

A template is a sequence of tokens: runs of literal text and tags. The character right after the
opening delimiter, the sigil, selects the kind of a tag and decides what closes it.
-/

namespace Mustache

/-- The character that may follow an opening delimiter. -/
inductive Sigil
  | absent
  | brace
  | ampersand
  | hash
  | caret
  | slash
  | bang
  | angle
  | equals
  deriving DecidableEq, Repr

namespace Sigil

/-- The sigil that a character is; any other character already belongs to the content. -/
def ofChar : Char → Sigil
  | '\x7b' => brace
  | '&'    => ampersand
  | '#'    => hash
  | '^'    => caret
  | '/'    => slash
  | '!'    => bang
  | '>'    => angle
  | '='    => equals
  | _      => absent

/-- The characters a sigil takes up in the source: one, or none if it is absent. -/
def text : Sigil → Text
  | absent    => []
  | brace     => ['\x7b']
  | ampersand => ['&']
  | hash      => ['#']
  | caret     => ['^']
  | slash     => ['/']
  | bang      => ['!']
  | angle     => ['>']
  | equals    => ['=']

/-- Whether the sigil takes up a character. -/
def isExplicit (s : Sigil) : Bool := s ≠ absent

/-- The sigil at the head of what follows an opening delimiter. -/
def ofHead : Text → Sigil
  | []     => absent
  | c :: _ => ofChar c

/-- What ends a tag: a brace and an equals sign are repeated in front of the closing delimiter. -/
def closing (s : Sigil) (d : Delimiters) : Text :=
  match s with
  | brace  => '\x7d' :: d.closing
  | equals => '=' :: d.closing
  | _      => d.closing

/-- A text that starts with a sigil starts with the characters of that sigil. -/
theorem text_ofHead_append (t : Text) :
    (ofHead t).text ++ t.drop (ofHead t).text.length = t := by
  cases t with
  | nil => rfl
  | cons c cs =>
    simp only [ofHead]
    unfold ofChar
    split <;> simp [text]

end Sigil

/-- A tag without its delimiters and its sigil. -/
structure RawTag where
  sigil : Sigil
  /-- The content, without the blanks around it. -/
  content : Span
  /-- The whole tag. -/
  span : Span
  /-- The delimiters in effect right after the tag. -/
  delimiters : Delimiters
  deriving DecidableEq

/-- A run of literal text, or a tag. -/
inductive Token
  | text (span : Span)
  | tag (tag : RawTag)
  deriving DecidableEq

/-- Where a token stands in the source. -/
def Token.span : Token → Span
  | .text span => span
  | .tag raw   => raw.span

/-- Why a delimiter change cannot be carried out. -/
inductive DelimiterTagError
  | arity (count : Nat)
  | invalid (error : DelimiterError)
  deriving DecidableEq, Repr

/-- What is wrong, in words. -/
def DelimiterTagError.message : DelimiterTagError → String
  | .arity n   => "expected two delimiters separated by whitespace, found " ++ toString n
  | .invalid e => e.message

/-- Why a template cannot be split into tokens. -/
inductive ScanError
  /-- The source ends inside a tag that only `expected` can close. -/
  | unclosedTag (span : Span) (expected : Text)
  | invalidDelimiters (span : Span) (reason : DelimiterTagError)
  deriving DecidableEq, Repr

namespace ScanError

/-- Where the error was found. -/
def span : ScanError → Span
  | .unclosedTag span _       => span
  | .invalidDelimiters span _ => span

/-- What is wrong, in words. -/
def message : ScanError → String
  | .unclosedTag _ expected =>
    "unclosed tag: expected `" ++ String.ofList expected ++ "` before end of template"
  | .invalidDelimiters _ reason => "invalid delimiter change: " ++ reason.message

end ScanError

end Mustache
