import Mustache.Token

/-!
# Splitting a template into tokens

The scanner reads a source from left to right. All it carries from one token to the next is the
unread text, its offset and the delimiters in effect, which a delimiter change replaces for all
that follows. Text runs up to the next opening delimiter; a tag runs up to the first text that
closes it. Every token takes up some text, so a scan ends; the first error ends it at once.
-/

namespace Mustache

/-- The two delimiters that the trimmed content of a delimiter change names. -/
def Delimiters.ofContent (content : Text) : Except DelimiterTagError Delimiters :=
  match content.words with
  | [opening, closing] => (make opening closing).mapError .invalid
  | words              => .error (.arity words.length)

/-- A position in a scan. -/
structure Scanner where
  /-- The unread text. -/
  rest : Text
  /-- The byte offset at which the unread text starts. -/
  offset : Nat
  delimiters : Delimiters
  deriving DecidableEq

namespace Scanner

/-- The start of a scan. -/
def start (source : Text) (delimiters : Delimiters) : Scanner := ⟨source, 0, delimiters⟩

/-- What the scanner finds next. -/
inductive Step
  | finished
  | token (token : Token) (next : Scanner)
  | failed (error : ScanError)

/-- Reads a run of text that `rest` follows. -/
def readText (s : Scanner) (text rest : Text) : Step :=
  let stop := s.offset + text.byteSize
  .token (.text ⟨s.offset, stop⟩) { s with rest, offset := stop }

/-- Reads a tag, of which `afterOpening` is what follows the opening delimiter. -/
def readTag (s : Scanner) (afterOpening : Text) : Step :=
  let sigil := Sigil.ofHead afterOpening
  let closing := sigil.closing s.delimiters
  match Text.cut? closing (afterOpening.drop sigil.text.length) with
  | none => .failed (.unclosedTag ⟨s.offset, s.offset + s.rest.byteSize⟩ closing)
  | some (inside, rest) =>
    let insideStart := s.offset + s.delimiters.opening.byteSize + sigil.text.byteSize
    let stop := insideStart + inside.byteSize + closing.byteSize
    let contentStart := insideStart + Text.byteSize (inside.takeWhile isBlank)
    let content := ⟨contentStart, contentStart + inside.trim.byteSize⟩
    let span := ⟨s.offset, stop⟩
    let read (delimiters : Delimiters) : Step :=
      .token (.tag ⟨sigil, content, span, delimiters⟩) ⟨rest, stop, delimiters⟩
    if sigil = .equals then
      match Delimiters.ofContent inside.trim with
      | .error reason => .failed (.invalidDelimiters span reason)
      | .ok changed   => read changed
    else read s.delimiters

/-- Reads the next token. -/
def step (s : Scanner) : Step :=
  if s.rest = [] then .finished
  else match Text.cut? s.delimiters.opening s.rest with
    | none                => s.readText s.rest []
    | some ([], after)    => s.readTag after
    | some (text, after)  => s.readText text (s.delimiters.opening ++ after)

theorem length_rest_readTag {s next : Scanner} {afterOpening : Text} {token : Token}
    (h : s.readTag afterOpening = .token token next) :
    next.rest.length ≤ afterOpening.length := by
  unfold readTag at h
  simp only at h
  split at h
  · simp at h
  · next inside rest hcut =>
    have hlen : rest.length ≤ afterOpening.length := by
      have := congrArg List.length (Text.eq_of_cut? hcut)
      simp only [List.length_drop, List.length_append] at this
      omega
    split at h
    · split at h
      · simp at h
      · simp only [Step.token.injEq] at h
        rw [← h.2]
        exact hlen
    · simp only [Step.token.injEq] at h
      rw [← h.2]
      exact hlen

/-- A token takes up some text. -/
theorem length_rest_lt {s next : Scanner} {token : Token} (h : s.step = .token token next) :
    next.rest.length < s.rest.length := by
  unfold step at h
  split at h
  · simp at h
  · next hne =>
    split at h
    · simp only [readText, Step.token.injEq] at h
      rw [← h.2]
      simpa using List.length_pos_iff.2 hne
    · next after hcut =>
      have hcut := congrArg List.length (Text.eq_of_cut? hcut)
      have hopen := List.length_pos_iff.2 s.delimiters.opening_ne_nil
      have hrest := length_rest_readTag h
      simp only [List.nil_append, List.length_append] at hcut
      omega
    · next text after hne' hcut =>
      have hcut := congrArg List.length (Text.eq_of_cut? hcut)
      have htext : text ≠ [] := fun e => hne' (e ▸ rfl)
      have htext := List.length_pos_iff.2 htext
      simp only [readText, Step.token.injEq] at h
      rw [← h.2]
      simp only [List.length_append] at hcut ⊢
      omega

end Scanner

/-- What a scan found: its tokens in order, the error that ended it if one did, and the delimiters
in effect at its end. -/
structure Scan where
  tokens : List Token
  failure : Option ScanError
  delimiters : Delimiters
  deriving DecidableEq

/-- All that the scanner finds from a position on. -/
def Scanner.run (s : Scanner) : Scan :=
  match _h : s.step with
  | .finished         => ⟨[], none, s.delimiters⟩
  | .failed error     => ⟨[], some error, s.delimiters⟩
  | .token token next =>
    let later := next.run
    ⟨token :: later.tokens, later.failure, later.delimiters⟩
termination_by s.rest.length
decreasing_by exact length_rest_lt _h

/-- Splits a source into tokens, with the given delimiters in effect at its start. -/
def scan (source : Text) (delimiters : Delimiters) : Scan := (Scanner.start source delimiters).run

/-- The tokens of a scan, and behind them the error that ended it. -/
def Scan.results (found : Scan) : List (Except ScanError Token) :=
  found.tokens.map .ok ++ found.failure.toList.map .error

/-! ### One token at a time -/

/-- A scan that is asked for one token after the other. -/
structure TokenStream where
  /-- Where the scan goes on; nowhere after an error. -/
  scanner? : Option Scanner

namespace TokenStream

/-- The stream of which nothing has been asked for. -/
def start (source : Text) (delimiters : Delimiters) : TokenStream :=
  ⟨some (.start source delimiters)⟩

/-- The next token, or the error in its place, and how the stream goes on; there is nothing at the
end of the source and nothing after an error. -/
def next (stream : TokenStream) : Option (Except ScanError Token) × TokenStream :=
  match stream.scanner? with
  | none   => (none, stream)
  | some s =>
    match s.step with
    | .finished         => (none, stream)
    | .token token next => (some (.ok token), ⟨some next⟩)
    | .failed error     => (some (.error error), ⟨none⟩)

/-- What is found when the stream is asked for the token at an index, the ones in front of it being
asked for first. -/
def get? (stream : TokenStream) : Nat → Option (Except ScanError Token)
  | 0     => stream.next.1
  | n + 1 => stream.next.2.get? n

end TokenStream

end Mustache
