import Mustache.Proofs.Rendering.LambdaEscaping
import Mustache.Proofs.Text.Lines

/-!
# Values written in pieces

A host may write a value in one go or in pieces. Every piece is data of its own: under indentation,
a piece that begins a line has the indentation in front of it. So the way in which a value is cut
does not matter as long as nothing is indented, or no cut stands between a line feed and more text;
and it matters as soon as there is such a cut.
-/

namespace Mustache

open Text

variable {F σ τ : Type}

/-! ### What is received of pieces -/

/-- Data as a tag has it written. -/
def asData (escaped : Bool) (text : Text) : Text := if escaped then escapeHtml text else text

/-- What is received of data written piece by piece: `ind` stands in front of those pieces that
begin a line, and nowhere else. -/
def layPieces (ind : Text) (escaped : Bool) (starts : Bool) : List Text → Text
  | []              => []
  | piece :: pieces =>
    (if starts ∧ piece ≠ [] then ind else []) ++ asData escaped piece ++
      layPieces ind escaped (startsLineAfter starts piece) pieces

/-- Somewhere a text is cut behind a line feed, with more text to come. -/
def CutBehindLine (pieces : List Text) : Prop :=
  ∃ before after, pieces = before ++ after ∧ endsLine before.flatten ∧ after.flatten ≠ []

/-- There are as many places for a cut as there are pieces, and one more. -/
instance (pieces : List Text) : Decidable (CutBehindLine pieces) :=
  decidable_of_iff (∃ n < pieces.length + 1,
      endsLine (pieces.take n).flatten ∧ (pieces.drop n).flatten ≠ []) <| by
    constructor
    · rintro ⟨n, -, hends, hrest⟩
      exact ⟨_, _, (List.take_append_drop n pieces).symm, hends, hrest⟩
    · rintro ⟨before, after, rfl, hends, hrest⟩
      refine ⟨before.length, ?_, ?_, ?_⟩
      · rw [List.length_append]
        omega
      · rwa [List.take_left]
      · rwa [List.drop_left]

section

variable {ind piece : Text} {escaped starts : Bool} {pieces : List Text}

@[simp] lemma asData_nil (escaped : Bool) : asData escaped [] = [] := by
  cases escaped <;> rfl

@[simp] lemma asData_append (escaped : Bool) (s t : Text) :
    asData escaped (s ++ t) = asData escaped s ++ asData escaped t := by
  cases escaped <;> simp [asData]

@[simp] lemma layPieces_nil (ind : Text) (escaped starts : Bool) :
    layPieces ind escaped starts [] = [] := rfl

lemma layPieces_cons (ind : Text) (escaped starts : Bool) (piece : Text) (pieces : List Text) :
    layPieces ind escaped starts (piece :: pieces) =
      (if starts ∧ piece ≠ [] then ind else []) ++ asData escaped piece ++
        layPieces ind escaped (startsLineAfter starts piece) pieces := rfl

/-- A text written in one go has the indentation at most in front of it. -/
lemma layPieces_singleton (ind : Text) (escaped starts : Bool) (text : Text) :
    layPieces ind escaped starts [text] =
      (if starts ∧ text ≠ [] then ind else []) ++ asData escaped text := by
  rw [layPieces_cons, layPieces_nil, List.append_nil]

lemma layPieces_append (ind : Text) (escaped starts : Bool) (pieces more : List Text) :
    layPieces ind escaped starts (pieces ++ more) = layPieces ind escaped starts pieces ++
      layPieces ind escaped (startsLineAfter starts pieces.flatten) more := by
  induction pieces generalizing starts with
  | nil => rfl
  | cons piece pieces ih =>
    rw [List.cons_append, layPieces_cons, ih, layPieces_cons, List.flatten_cons,
      startsLineAfter_append]
    simp only [List.append_assoc]

/-- Where nothing is put in front of a line, the cuts do not show. -/
lemma nil_layPieces (escaped starts : Bool) (pieces : List Text) :
    layPieces [] escaped starts pieces = asData escaped pieces.flatten := by
  induction pieces generalizing starts with
  | nil => simp
  | cons piece pieces ih => rw [layPieces_cons, ih, List.flatten_cons, asData_append]; simp

/-- A text that ends a line is not empty. -/
lemma ne_nil_of_endsLine {text : Text} (h : endsLine text) : text ≠ [] := by
  rintro rfl
  cases h

lemma CutBehindLine.cons (h : CutBehindLine pieces) (piece : Text) :
    CutBehindLine (piece :: pieces) := by
  obtain ⟨before, after, rfl, hends, hafter⟩ := h
  have hne := ne_nil_of_endsLine hends
  refine ⟨piece :: before, after, rfl, ?_, hafter⟩
  rw [← startsLineAfter_of_ne_nil (by simp [hne]) false, List.flatten_cons,
    startsLineAfter_append, startsLineAfter_of_ne_nil hne, hends]

/-- Nor do they show if no line starts where a text is cut. -/
lemma layPieces_eq_of_not_cut (h : ¬ CutBehindLine pieces) :
    layPieces ind escaped starts pieces = layPieces ind escaped starts [pieces.flatten] := by
  induction pieces generalizing starts with
  | nil => simp [layPieces_singleton]
  | cons piece pieces ih =>
    rw [layPieces_cons, ih fun hcut => h (hcut.cons piece), layPieces_singleton,
      layPieces_singleton, List.flatten_cons, asData_append]
    by_cases hpiece : piece = []
    · simp [hpiece]
    · by_cases hrest : pieces.flatten = []
      · simp [hrest]
      · have hends : startsLineAfter starts piece = false := by
          rw [startsLineAfter_of_ne_nil hpiece, Bool.eq_false_iff]
          exact fun hends => h ⟨[piece], pieces, rfl, by simpa using hends, hrest⟩
        simp [hends, hpiece]

/-- A cut takes nothing away. -/
lemma length_asData_flatten_le (ind : Text) (escaped starts : Bool) (pieces : List Text) :
    (layPieces ind escaped starts [pieces.flatten]).length ≤
      (layPieces ind escaped starts pieces).length := by
  induction pieces generalizing starts with
  | nil => simp [layPieces_singleton]
  | cons piece pieces ih =>
    have hrest := ih (startsLineAfter starts piece)
    rw [layPieces_singleton] at hrest ⊢
    rw [layPieces_cons, List.flatten_cons, asData_append]
    by_cases hpiece : piece = []
    · simpa [hpiece] using hrest
    · simp only [List.length_append, ne_eq, List.append_eq_nil_iff, hpiece, false_and,
        not_false_eq_true, and_true] at hrest ⊢
      omega

/-- A cut behind a line feed puts the indentation inside the text. -/
lemma length_layPieces_lt (hind : ind ≠ []) (h : CutBehindLine pieces) :
    (layPieces ind escaped starts [pieces.flatten]).length <
      (layPieces ind escaped starts pieces).length := by
  obtain ⟨before, after, rfl, hends, hafter⟩ := h
  have hne := ne_nil_of_endsLine hends
  have hbefore := length_asData_flatten_le ind escaped starts before
  have hrest := length_asData_flatten_le ind escaped true after
  have hpos := List.length_pos_iff.2 hind
  rw [layPieces_append, startsLineAfter_of_ne_nil hne, hends]
  rw [layPieces_singleton] at hbefore hrest ⊢
  rw [List.flatten_append, asData_append]
  simp only [List.length_append, ne_eq, List.append_eq_nil_iff, hne, hafter, false_and,
    not_false_eq_true, and_true, if_true] at hbefore hrest ⊢
  omega

/-- The cuts show just if something is indented and one of them is behind a line feed. -/
lemma layPieces_eq_iff (escaped starts : Bool) :
    layPieces ind escaped starts pieces = layPieces ind escaped starts [pieces.flatten] ↔
      ind = [] ∨ ¬ CutBehindLine pieces := by
  constructor
  · intro heq
    by_contra hnot
    rw [not_or, not_not] at hnot
    exact Nat.ne_of_gt (length_layPieces_lt hnot.1 hnot.2) (congrArg List.length heq)
  · rintro (rfl | hcut)
    · rw [nil_layPieces, nil_layPieces, List.flatten_singleton]
    · exact layPieces_eq_of_not_cut hcut

end

/-! ### Writing -/

/-- From the one state to the other, the output has received this text, and it is known whether a
line starts now. -/
structure ReceivedTo (text : Text) (starts : Bool) (s s₁ : RenderState F σ τ) : Prop
    extends Received text s s₁ where
  atLineStart_eq : s₁.output.atLineStart = starts

lemma ReceivedTo.trans {text more : Text} {starts starts' : Bool} {s s₁ s₂ : RenderState F σ τ}
    (h : ReceivedTo text starts s s₁) (h₁ : ReceivedTo more starts' s₁ s₂) :
    ReceivedTo (text ++ more) starts' s s₂ where
  toReceived := h.toReceived.trans h₁.toReceived
  atLineStart_eq := h₁.atLineStart_eq

lemma ReceivedTo.record (s : RenderState F σ τ) {e : Event F} (he : e.written? = none) :
    ReceivedTo [] s.output.atLineStart s (s.record e) where
  toReceived := .record s he
  atLineStart_eq := rfl

namespace Sink

/-- The sink refuses no write. -/
def TakesAll (sink : Sink τ) : Prop := ∀ bytes taken, (sink.write bytes taken).1 = .ok ()

variable {sink : Sink τ} (hsink : sink.TakesAll)

include hsink

lemma exists_put (text : Text) (s : RenderState F σ τ) :
    ∃ s₁, sink.put text s = .ok () s₁ ∧ ReceivedTo text s.output.atLineStart s s₁ := by
  rw [put]
  cases hscratch : s.output.scratch with
  | some kept =>
    refine ⟨_, rfl, ⟨rfl, ?_, ?_⟩, rfl⟩
    · simp [hscratch]
    · simp [hscratch, RenderState.events]
  | none =>
    have htakes := hsink text.bytes s.sink
    generalize sink.write text.bytes s.sink = written at htakes
    obtain ⟨result, after⟩ := written
    obtain rfl : result = .ok () := htakes
    refine ⟨_, rfl, ⟨rfl, ?_, ?_⟩, rfl⟩
    · show s.output.scratch = _
      rw [hscratch]
      rfl
    · rw [RenderState.events_record, writes_append, List.flatten_append, hscratch]
      exact congrArg (_ ++ ·) (List.append_nil text)

lemma exists_forM_put (parts : List Text) (s : RenderState F σ τ) :
    ∃ s₁, parts.forM sink.put s = .ok () s₁ ∧
      ReceivedTo parts.flatten s.output.atLineStart s s₁ := by
  induction parts generalizing s with
  | nil => exact ⟨s, rfl, .nil rfl rfl, rfl⟩
  | cons part parts ih =>
    obtain ⟨s₁, hput, h₁⟩ := exists_put hsink part s
    obtain ⟨s₂, hrest, h₂⟩ := ih s₁
    rw [h₁.atLineStart_eq] at h₂
    exact ⟨s₂, (bind_apply_of_ok hput).trans hrest, h₁.trans h₂⟩

lemma exists_indent (s : RenderState F σ τ) :
    ∃ s₁, sink.indent s = .ok () s₁ ∧
      ReceivedTo (if s.output.atLineStart then s.output.indent else []) s.output.atLineStart
        s s₁ := by
  show ∃ s₁, (if s.output.atLineStart && s.output.indent ≠ [] then sink.put s.output.indent
    else pure ()) s = _ ∧ _
  by_cases hput : s.output.atLineStart && s.output.indent ≠ []
  · rw [if_pos hput, if_pos (by simp at hput; exact hput.1)]
    exact exists_put hsink _ s
  · rw [if_neg hput]
    refine ⟨s, rfl, ?_, rfl⟩
    have hnil : (if s.output.atLineStart then s.output.indent else []) = [] := by
      simpa using hput
    rw [hnil]
    exact .nil rfl rfl

omit hsink in
lemma exists_endText (text : Text) (s : RenderState F σ τ) :
    ∃ s₁, endText text s = .ok () s₁ ∧ ReceivedTo [] text.endsLine s s₁ :=
  ⟨_, rfl, ⟨rfl, by cases s.output.scratch <;> simp, by simp [RenderState.events]⟩, rfl⟩

lemma exists_emitData (text : Text) (escaped : Bool) (s : RenderState F σ τ) :
    ∃ s₁, (if escaped then sink.emitEscaped text else sink.emit text) s = .ok () s₁ ∧
      ReceivedTo (asData escaped text) text.endsLine s s₁ := by
  cases escaped with
  | false =>
    obtain ⟨s₁, hput, h₁⟩ := exists_put hsink text s
    obtain ⟨s₂, hend, h₂⟩ := exists_endText text s₁
    refine ⟨s₂, (bind_apply_of_ok hput).trans hend, ?_⟩
    simpa [asData] using h₁.trans h₂
  | true =>
    obtain ⟨s₁, hparts, h₁⟩ := exists_forM_put hsink (escapedPieces text) s
    obtain ⟨s₂, hend, h₂⟩ := exists_endText text s₁
    refine ⟨s₂, (bind_apply_of_ok hparts).trans hend, ?_⟩
    simpa [asData, flatten_escapedPieces] using h₁.trans h₂

/-- Data is received in the form in which the tag has it, in one piece. -/
lemma exists_writeData (text : Text) (escaped : Bool) (s : RenderState F σ τ) :
    ∃ s₁, sink.writeData text escaped s = .ok () s₁ ∧
      ReceivedTo (layPieces s.output.indent escaped s.output.atLineStart [text])
        (startsLineAfter s.output.atLineStart text) s s₁ := by
  have hnoted : ReceivedTo [] s.output.atLineStart s (s.record (.writing s.output)) :=
    .record s rfl
  rw [layPieces_singleton]
  show ∃ s₁, (if text = [] then pure () else sink.indent >>= fun _ =>
    if escaped then sink.emitEscaped text else sink.emit text)
      (s.record (.writing s.output)) = _ ∧ _
  by_cases hnil : text = []
  · subst hnil
    exact ⟨_, rfl, by simpa using hnoted⟩
  · obtain ⟨s₁, hindent, h₁⟩ := exists_indent hsink (s.record (.writing s.output))
    obtain ⟨s₂, hdata, h₂⟩ := exists_emitData hsink text escaped s₁
    have hfront : (if s.output.atLineStart ∧ text ≠ [] then s.output.indent else []) =
        if s.output.atLineStart then s.output.indent else [] := by
      simp [hnil]
    rw [if_neg hnil, startsLineAfter_of_ne_nil hnil, hfront]
    exact ⟨s₂, (bind_apply_of_ok hindent).trans hdata, (hnoted.trans h₁).trans h₂⟩

end Sink

/-! ### Passing pieces on -/

/-- As long as no write fails, the host writes these pieces, one after the other, and no more. -/
inductive Interpolation.PassesOn : List Text → Interpolation σ → Prop
  | answer (result : HostResult) (host : σ) : PassesOn [] (.answer result host)
  | write (piece : Text) {pieces : List Text} {next : Except SinkErrorKind Unit → Interpolation σ}
      (h : PassesOn pieces (next (.ok ()))) : PassesOn (piece :: pieces) (.write false piece next)
  | remark (remark : Remark) {pieces : List Text} {next : Interpolation σ}
      (h : PassesOn pieces next) : PassesOn pieces (.remark remark next)

namespace Renderer

variable {r : Renderer F σ τ}

/-- Induction on the pieces: the output knows whether the next one begins a line. -/
lemma exists_serve_of_passesOn (hsink : r.sink.TakesAll) (escaped : Bool) {pieces : List Text}
    {call : Interpolation σ} (hcall : call.PassesOn pieces) (s : RenderState F σ τ) :
    ∃ result s₁, r.serve escaped none call s = .ok (none, result) s₁ ∧
      ReceivedTo (layPieces s.output.indent escaped s.output.atLineStart pieces)
        (startsLineAfter s.output.atLineStart pieces.flatten) s s₁ := by
  induction hcall generalizing s with
  | answer result host => exact ⟨result, _, rfl, .nil rfl rfl, rfl⟩
  | remark remark _ ih =>
    obtain ⟨result, s₁, hserve, h₁⟩ := ih (s.record (.remarked remark))
    exact ⟨result, s₁, hserve, (ReceivedTo.record s rfl).trans h₁⟩
  | write piece _ ih =>
    obtain ⟨s₁, hwrite, h₁⟩ := Sink.exists_writeData hsink piece escaped s
    obtain ⟨result, s₂, hserve, h₂⟩ := ih s₁
    rw [h₁.indent_eq, h₁.atLineStart_eq] at h₂
    refine ⟨result, s₂, ?_, ?_⟩
    · rw [r.serve_write_of_ok (by simpa using hwrite), hserve]
    · rw [← List.singleton_append, layPieces_append, List.flatten_append,
        startsLineAfter_append, List.flatten_singleton]
      exact h₁.trans h₂

lemma receivedTo_interpolate (hsink : r.sink.TakesAll) {frame : F} {path : Path} {escaped : Bool}
    {pieces : List Text} {s : RenderState F σ τ}
    (hcall : (r.host.interpolate frame path escaped s.host).PassesOn pieces) :
    ReceivedTo (layPieces s.output.indent escaped s.output.atLineStart pieces)
      (startsLineAfter s.output.atLineStart pieces.flatten) s
      (reached (r.interpolate frame path escaped s)) := by
  obtain ⟨result, s₁, hserve, h₁⟩ := exists_serve_of_passesOn hsink escaped hcall s
  have hreached : reached (r.interpolate frame path escaped s) =
      s₁.record (.interpolated frame path result) := by
    rw [interpolate_eq_settle]
    show reached ((r.serve escaped none _ >>= _) s) = _
    rw [bind_apply_of_ok hserve]
    cases result <;> rfl
  have h := h₁.trans (ReceivedTo.record s₁ (e := .interpolated frame path result) rfl)
  rw [hreached, ← h₁.atLineStart_eq]
  rwa [List.append_nil] at h

/-- A value written in pieces is received with the indentation in front of those pieces that begin
a line, and a value written in one go with the indentation at most in front of it. So the same bytes
are received just if nothing is indented or no cut is behind a line feed. In either case the output
then stands at the same point. -/
theorem received_interpolate_eq_iff (hsink : r.sink.TakesAll) {frame frame' : F} {path path' : Path}
    {escaped : Bool} {pieces : List Text} {s inPieces inOneGo : RenderState F σ τ}
    (hpieces : (r.host.interpolate frame path escaped s.host).PassesOn pieces)
    (hwhole : (r.host.interpolate frame' path' escaped s.host).PassesOn [pieces.flatten])
    (hrun : reached (r.interpolate frame path escaped s) = inPieces)
    (hrun' : reached (r.interpolate frame' path' escaped s) = inOneGo) :
    (inPieces.received = inOneGo.received ↔ s.output.indent = [] ∨ ¬ CutBehindLine pieces) ∧
    inPieces.received = s.received ++
      (layPieces s.output.indent escaped s.output.atLineStart pieces).bytes ∧
    inOneGo.received = s.received ++
      ((if s.output.atLineStart ∧ pieces.flatten ≠ [] then s.output.indent else []) ++
        asData escaped pieces.flatten).bytes ∧
    inPieces.output.indent = inOneGo.output.indent ∧
    inPieces.output.atLineStart = inOneGo.output.atLineStart := by
  subst hrun hrun'
  have h := receivedTo_interpolate hsink hpieces
  have h' := receivedTo_interpolate hsink hwhole
  rw [List.flatten_singleton] at h'
  refine ⟨?_, h.received_eq, ?_, ?_, ?_⟩
  · rw [h.received_eq, h'.received_eq, ByteArray.append_right_inj,
      ← layPieces_eq_iff escaped s.output.atLineStart]
    exact ⟨bytes_injective, congrArg bytes⟩
  · rw [h'.received_eq, layPieces_singleton]
  · rw [h.indent_eq, h'.indent_eq]
  · rw [h.atLineStart_eq, h'.atLineStart_eq]

/-- Data with one value, which is written in these pieces. -/
def writtenIn (pieces : List Text) : Value :=
  .map [(['v'], .standIn 0 [] ⟨pieces.map .text, .ok .field⟩ ⟨[], .ok .field⟩ (.notFound, 0))]

lemma passesOn_writtenIn (pieces : List Text) (escaped : Bool) (calls : Calls) :
    (Served.host.interpolate (.root (writtenIn pieces)) ⟨[['v']]⟩ escaped calls).PassesOn
      pieces := by
  show (Served.write escaped (.ok .field) calls (pieces.map .text)).PassesOn pieces
  induction pieces with
  | nil => exact .answer _ _
  | cons piece pieces ih => exact .write piece ih

/-- A text cut in front of a line feed, in front of nothing and inside of a line. -/
def cells : List Text := ["x<".toList, "\ny".toList, [], "\n".toList]

/-- The start of a line of an indented partial. -/
def indentedStart : RenderState Frame Calls ByteArray :=
  { RenderState.start [] .empty with output := ⟨[' ', ' '], true, none⟩ }

/-- A value written there. -/
def indentedRun (pieces : List Text) : RenderState Frame Calls ByteArray :=
  reached ((servedWith []).interpolate (.root (writtenIn pieces)) ⟨[['v']]⟩ true indentedStart)

/-- These cuts do not show. -/
theorem received_indentedRun :
    (servedWith []).sink.TakesAll ∧ ¬ CutBehindLine cells ∧
    (∀ pieces, pieces = cells ∨ pieces = [cells.flatten] →
      ((servedWith []).host.interpolate (.root (writtenIn pieces)) ⟨[['v']]⟩ true
        indentedStart.host).PassesOn pieces) ∧
    (indentedRun cells).received = (indentedRun [cells.flatten]).received ∧
    (writes (indentedRun [cells.flatten]).events).flatten = "  x&lt;\ny\n".toList := by
  have htakes : (servedWith []).sink.TakesAll := fun _ _ => rfl
  have hcut : ¬ CutBehindLine cells := by decide +kernel
  have hpasses (pieces : List Text) := passesOn_writtenIn pieces true indentedStart.host
  have h := received_interpolate_eq_iff htakes (hpasses cells) (hpasses [cells.flatten]) rfl rfl
  exact ⟨htakes, hcut, fun pieces _ => hpasses pieces, h.1.2 (.inr hcut), by decide +kernel⟩

/-- A template that is indented as a partial and consists of the value alone. -/
def valueRun (pieces : List Text) (t : Template) :
    EStateM.Result Halt (RenderState Frame Calls ByteArray) Unit :=
  (servedWith "{{v}}".toList).render 3 t (.root (writtenIn pieces)) (.start [] .empty)

/-- Under indentation a cut behind a line feed shows: the indentation stands inside of the value. -/
theorem exists_indentation_inside_value :
    ∃ t, Template.compile "  {{>p}}\n".toList .standard = .ok t ∧
      outcome (valueRun ["a\nb".toList] t) = .ok () ∧
      outcome (valueRun ["a\n".toList, "b".toList] t) = .ok () ∧
      (writes (reached (valueRun ["a\nb".toList] t)).events).flatten = "  a\nb".toList ∧
      (writes (reached (valueRun ["a\n".toList, "b".toList] t)).events).flatten =
        "  a\n  b".toList := by
  have hrun : (Template.compile "  {{>p}}\n".toList .standard).map
      (fun t => [["a\nb".toList], ["a\n".toList, "b".toList]].map fun pieces =>
        (outcome (valueRun pieces t), (writes (reached (valueRun pieces t)).events).flatten)) =
      .ok [(.ok (), "  a\nb".toList), (.ok (), "  a\n  b".toList)] := by
    decide +kernel
  obtain ⟨t, hcompile, hrun⟩ := exists_eq_ok_of_map_eq_ok hrun
  simp only [List.map_cons, List.map_nil, List.cons.injEq, Prod.mk.injEq, and_true] at hrun
  obtain ⟨⟨hwhole, hwrites⟩, hpieces, hwrites'⟩ := hrun
  exact ⟨t, hcompile, hwhole, hpieces, hwrites, hwrites'⟩

end Renderer

end Mustache
