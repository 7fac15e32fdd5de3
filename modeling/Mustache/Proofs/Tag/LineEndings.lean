import Mustache.Proofs.Tag.Names
import Mustache.Proofs.Tag.Standalone
import Mustache.Proofs.Token.LineEndings

/-!
# Tags of a source with other line endings

No segment of a path holds a line ending, so a tag has the same path, or none, whatever the line
endings of its source; only the name of a partial may hold some. And a tag stands alone on the same
lines, if there was no carriage return in the source before.
-/

namespace Mustache

variable {source : Text}

/-! ### Paths -/

/-- Why a text is no name when the line endings of the text are changed. -/
def PathError.crlf : PathError → PathError
  | .empty          => .empty
  | .malformed name => .malformed name.crlf

lemma isSegment_crlf (t : Text) : isSegment t.crlf = isSegment t := by
  rw [Bool.eq_iff_iff, isSegment_iff, isSegment_iff, Ne, Text.crlf_eq_nil_iff,
    Text.forall_isBlank_crlf_iff]

lemma crlf_of_isSegment {t : Text} (h : isSegment t) : t.crlf = t :=
  Text.crlf_of_isBlank_eq_false (isSegment_iff.1 h).2

lemma Text.crlf_eq_dot_iff {t : Text} : t.crlf = ['.'] ↔ t = ['.'] := by
  cases t with
  | nil => simp
  | cons c cs =>
    by_cases hc : c = '\n'
    · simp [hc]
    · simp [crlf_cons_of_ne hc]

lemma Path.parse_crlf (name : Text) :
    parse name.crlf = (parse name).mapError PathError.crlf := by
  by_cases hnil : name = []
  · rw [hnil]
    rfl
  by_cases hdot : name = ['.']
  · rw [hdot]
    rfl
  have hnil' : name.crlf ≠ [] := fun h => hnil (Text.crlf_eq_nil_iff.1 h)
  have hdot' : name.crlf ≠ ['.'] := fun h => hdot (Text.crlf_eq_dot_iff.1 h)
  have hsegments : name.crlf.pieces (· = '.') = (name.pieces (· = '.')).map Text.crlf := by
    refine Text.pieces_crlf (fun c hc => ?_) name
    rw [of_decide_eq_true hc]
    decide
  have hall : ((name.pieces (· = '.')).map Text.crlf).all isSegment =
      (name.pieces (· = '.')).all isSegment := by
    rw [List.all_map]
    exact congrArg (List.all _) (funext isSegment_crlf)
  rw [parse, parse, if_neg hnil, if_neg hdot, if_neg hnil', if_neg hdot', hsegments]
  simp only [hall]
  split
  · next hsegment =>
    have hsame : (name.pieces (· = '.')).map Text.crlf = name.pieces (· = '.') :=
      (List.map_congr_left fun s hs => crlf_of_isSegment (List.all_eq_true.1 hsegment s hs)).trans
        (List.map_id _)
    rw [hsame]
    rfl
  · rfl

/-! ### What tags say -/

/-- A fault of a source when the line endings of the source are changed. -/
def ParseFault.crlf : ParseFault → ParseFault
  | .invalidPath name => .invalidPath name.crlf
  | fault             => fault

/-- An error of `source` when the line endings of `source` are changed. -/
def ParseError.crlf (source : Text) (e : ParseError) : ParseError :=
  ⟨e.fault.crlf, e.span.crlf source⟩

/-- What a tag says when the line endings of the source are changed. -/
def Tag.crlf : Tag → Tag
  | .partialTag name => .partialTag name.crlf
  | tag              => tag

lemma RawTag.name_crlf (source : Text) (raw : RawTag) :
    (raw.crlf source).name source.crlf = (raw.name source).crlf :=
  raw.content.slice_crlf source

lemma Tag.readPath_crlf (source name : Text) (span : Span) :
    readPath name.crlf (span.crlf source) =
      (readPath name span).mapError (ParseError.crlf source) := by
  rw [readPath, readPath, Path.parse_crlf]
  rcases Path.parse name with (_ | name) | path <;> rfl

lemma Tag.ofContent_crlf (source : Text) (sigil : Sigil) (name : Text) (span : Span) :
    ofContent sigil name.crlf (span.crlf source) =
      ((ofContent sigil name span).map Tag.crlf).mapError (ParseError.crlf source) := by
  cases sigil with
  | bang | equals => rfl
  | angle =>
    rw [ofContent, ofContent]
    by_cases hname : name = []
    · rw [if_pos hname, if_pos (Text.crlf_eq_nil_iff.2 hname)]
      rfl
    · rw [if_neg hname, if_neg (mt Text.crlf_eq_nil_iff.1 hname)]
      rfl
  | absent | brace | ampersand | hash | caret | slash =>
    rw [ofContent, ofContent, readPath_crlf]
    cases readPath name span <;> rfl

lemma Tag.ofRaw_crlf (source : Text) (raw : RawTag) :
    ofRaw (raw.crlf source) source.crlf =
      ((ofRaw raw source).map Tag.crlf).mapError (ParseError.crlf source) := by
  rw [ofRaw_eq, ofRaw_eq, RawTag.name_crlf]
  exact ofContent_crlf source raw.sigil _ raw.span

/-! ### Lines -/

/-- What goes with a tag of `source` when the line endings of `source` are changed. -/
def StandaloneLine.crlf (source : Text) (line : StandaloneLine) : StandaloneLine :=
  ⟨line.indent.crlf source, source.crlfOffset line.stop⟩

namespace Text

lemma lastLine_crlf (t : Text) : t.crlf.lastLine = t.lastLine := by
  obtain ⟨before, heq, hline, hbefore⟩ := t.exists_eq_append_lastLine
  have hsplit := congrArg crlf heq
  rw [crlf_append, crlf_of_notMem hline] at hsplit
  rw [hsplit]
  refine lastLine_append ?_ hline
  rcases hbefore with rfl | ⟨earlier, rfl⟩
  · exact .inl rfl
  · exact .inr ⟨earlier.crlf ++ ['\r'], by simp⟩

end Text

/-- A carriage return at the end of a line belongs to the line ending. -/
lemma headLine_crlf {t : Text} (hreturn : '\r' ∉ t) :
    dropReturn (headLine t.crlf).1 = dropReturn (headLine t).1 ∧
      (headLine t.crlf).2 = t.crlfOffset (headLine t).2 := by
  cases hcut : Text.cut? ['\n'] t with
  | some parts =>
    obtain ⟨line, rest⟩ := parts
    obtain ⟨rfl, hline⟩ := Text.cut?_singleton_eq_some_iff.1 hcut
    rw [List.mem_append, not_or] at hreturn
    have hcrlf : Text.crlf (line ++ '\n' :: rest) = (line ++ ['\r']) ++ '\n' :: rest.crlf := by
      simp [Text.crlf_of_notMem hline]
    have hline' : '\n' ∉ line ++ ['\r'] := by simp [hline]
    have hoffset := Text.crlfOffset_append line ('\n' :: rest) 1
    have hone : Text.crlfOffset ('\n' :: rest) 1 = 2 := by
      have hadd := Text.crlfOffset_cons_add '\n' rest 0
      rwa [Text.crlfOffset_zero] at hadd
    rw [hcrlf, headLine_append_newline hline', headLine_append_newline hline, dropReturn_concat,
      dropReturn_of_notMem hreturn.1, hoffset, hone, Text.crlf_of_notMem hline,
      Text.byteSize_append]
    exact ⟨rfl, rfl⟩
  | none =>
    have hline := Text.cut?_singleton_eq_none_iff.1 hcut
    have hoffset := Text.crlfOffset_byteSize t []
    rw [List.append_nil, Text.crlf_of_notMem hline] at hoffset
    rw [Text.crlf_of_notMem hline, headLine_of_notMem hline, hoffset]
    exact ⟨rfl, rfl⟩

/-- Where the last line in front of an offset starts. -/
lemma Text.crlfOffset_sub_lastLine {before : Text} {n : Nat}
    (h : source.takeBytes? n = some before) :
    source.crlfOffset n - before.lastLine.byteSize =
      source.crlfOffset (n - before.lastLine.byteSize) := by
  obtain ⟨after, rfl, rfl⟩ := exists_eq_append_of_takeBytes? h
  obtain ⟨earlier, heq, hline, -⟩ := before.exists_eq_append_lastLine
  have hsize := congrArg byteSize heq
  have hcrlf := congrArg (fun t => byteSize (crlf t)) heq
  simp only [crlf_append, byteSize_append, crlf_of_notMem hline] at hsize hcrlf
  have hstart : crlfOffset (before ++ after) earlier.byteSize = earlier.crlf.byteSize := by
    rw [heq, List.append_assoc, crlfOffset_byteSize]
  rw [crlfOffset_byteSize, hcrlf, Nat.add_sub_cancel, hsize, Nat.add_sub_cancel, hstart]

/-- A tag stands alone on the same lines. -/
theorem standaloneLine?_crlf (hreturn : '\r' ∉ source) (tag : Span) :
    standaloneLine? source.crlf (tag.crlf source) =
      (standaloneLine? source tag).map (StandaloneLine.crlf source) := by
  rw [standaloneLine?, standaloneLine?, Span.crlf]
  simp only [Text.takeBytes?_crlf, Text.dropBytes?_crlf]
  cases htake : source.takeBytes? tag.start with
  | none => rfl
  | some before =>
    cases hdrop : source.dropBytes? tag.stop with
    | none => rfl
    | some after =>
      have hafter : '\r' ∉ after := by
        obtain ⟨front, rfl, -⟩ := Text.exists_eq_append_of_dropBytes? hdrop
        exact fun hmem => hreturn (List.mem_append_right front hmem)
      obtain ⟨htrail, hsize⟩ := headLine_crlf hafter
      simp only [Option.map_some, Text.lastLine_crlf, htrail, hsize]
      split
      · simp only [Option.map_some, StandaloneLine.crlf, Span.crlf, Text.crlfOffset_add hdrop,
          Text.crlfOffset_sub_lastLine htake]
      · rfl

/-- The indentation that goes with a tag lies in one line. -/
lemma newline_notMem_indent {tag : Span} {line : StandaloneLine}
    (h : standaloneLine? source tag = some line) : '\n' ∉ line.indent.slice source := by
  rw [standaloneLine?] at h
  split at h
  · next before after htake hdrop =>
    obtain ⟨rest, rfl, hstart⟩ := Text.exists_eq_append_of_takeBytes? htake
    obtain ⟨earlier, heq, hline, -⟩ := before.exists_eq_append_lastLine
    have hsize := congrArg Text.byteSize heq
    rw [Text.byteSize_append] at hsize
    split at h
    · obtain rfl := Option.some.inj h
      have hsource : before ++ rest = earlier ++ before.lastLine ++ rest :=
        congrArg (· ++ rest) heq
      rwa [Span.slice_of_eq hsource (by show tag.start - _ = _; omega)
        (by show tag.start = _; omega)]
    · cases h
  · cases h

end Mustache
