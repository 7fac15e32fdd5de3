import Mustache.Token.Scanner
import Mustache.Template.Builder

/-!
# Compiling a template

A source is compiled by giving its tokens to the builder, in order. The first fault is the one
reported: that of a token before that of the scan, which ended after all tokens, and an open
section only when all of the source could be read.
-/

namespace Mustache.Template

/-- Compiles a source, with the given delimiters in effect at its start. -/
def compile (source : Text) (delimiters : Delimiters) : Except ParseError Template :=
  if maxOffset < source.byteSize then .error ⟨.sourceTooLarge source.byteSize, ⟨0, 0⟩⟩
  else
    let found := scan source delimiters
    match found.tokens.foldlM (Builder.addToken source) Builder.empty, found.failure with
    | .error e, _         => .error e
    | .ok _, some failure => .error (.ofScanError failure)
    | .ok builder, none   => builder.finish source

end Mustache.Template
