import Mustache.Proofs.Template.Leaves
import Mustache.Proofs.Template.Parts
import Mustache.Proofs.Template.Trimming
import Mustache.Proofs.Token.Seam

/-!
# Fragments and trees of a part

A source of whole lines behind whole lines has the same fragments as alone, and grows the same
trees, all moved by what is in front of it; and a source of whole lines has them whatever follows.
What is in front stays below in the grove: no tag of the part closes a section of it.
-/

namespace Mustache

/-! ### Moving by nothing -/

namespace Tree

mutual

@[simp] lemma shift_zero (t : Tree) : t.shift 0 = t := by
  match t with
  | .text span => simp [shift]
  | .variableTag tag => simp [shift]
  | .partialTag tag => simp [shift]
  | .sectionTag heading body => simp [shift, shiftAll_zero body]

@[simp] lemma shiftAll_zero (ts : List Tree) : shiftAll 0 ts = ts := by
  match ts with
  | [] => simp [shiftAll]
  | t :: ts => simp [shiftAll, shift_zero t, shiftAll_zero ts]

end

end Tree

/-! ### Tags of a part -/

lemma TagParts.stop_eq {source : Text} {d : Delimiters} {raw : RawTag}
    (parts : TagParts source d raw) : raw.span.stop = (parts.before ++ parts.text).byteSize := by
  simp only [parts.stop_span, parts.start_span, text, Text.byteSize_append]

/-- A tag of a part of a source is the same in the source, moved right by `n` bytes. -/
structure RawTag.SameIn (raw : RawTag) (part source : Text) (n : Nat) : Prop where
  name_eq : (raw.shift n).name source = raw.name part
  line?_eq : (raw.shift n).line? source = (raw.line? part).map (StandaloneLine.shift n)
  indent_eq : (raw.shift n).indent source = raw.indent part

namespace RawTag

variable {raw : RawTag} {part source before after : Text} {d : Delimiters} {n : Nat}

/-- The line of a tag lies in the source. -/
lemma line?_liesIn (parts : TagParts part d raw) {line : StandaloneLine}
    (h : raw.line? part = some line) : line.indent.LiesIn part ∧ line.stop ≤ part.byteSize := by
  rcases line?_cases parts.source_eq parts.start_span parts.stop_eq with ⟨-, l, hline⟩ | ⟨hline, -⟩
  · obtain rfl := Option.some.inj (h.symm.trans hline)
    have hindent : part = l.before ++ l.indent ++ (l.body ++ l.trail ++ l.ending ++ l.after) := by
      conv_lhs => rw [l.eq_source]
      simp only [List.append_assoc]
    refine ⟨Span.liesIn_of_eq hindent rfl (l.start_tag.trans (Text.byteSize_append ..)), ?_⟩
    conv_rhs => rw [l.eq_source, Text.byteSize_append]
    exact Nat.le_add_right _ _
  · simp [h] at hline

/-- A tag with the same line is the same. -/
lemma sameIn_of_standaloneLine? (hsource : source = before ++ part ++ after)
    (parts : TagParts part d raw)
    (hline : standaloneLine? source (raw.span.shift before.byteSize) =
      (standaloneLine? part raw.span).map (StandaloneLine.shift before.byteSize)) :
    raw.SameIn part source before.byteSize := by
  have hlines : (raw.shift before.byteSize).line? source =
      (raw.line? part).map (StandaloneLine.shift before.byteSize) := by
    rw [line?, line?]
    by_cases hsigil : raw.sigil.canStandAlone
    · rw [if_pos hsigil]
      exact (if_pos hsigil).trans hline
    · rw [if_neg hsigil]
      exact if_neg hsigil
  refine ⟨name_shift hsource parts.content_liesIn, hlines, ?_⟩
  rw [indent, indent, hlines]
  cases h : raw.line? part with
  | none => rfl
  | some line => exact Span.slice_shift hsource (line?_liesIn parts h).1

/-- Behind a tag in whole lines there is a line feed. -/
lemma newline_mem_after (hlines : part.WholeLines) (parts : TagParts part d raw) :
    '\n' ∈ parts.after := by
  obtain ⟨t, c, hclosing, hblank⟩ := raw.sigil.exists_closing_eq_append d
  rcases Text.wholeLines_iff.1 (Text.WholeLines.of_append (parts.source_eq ▸ hlines)) with
    hafter | ⟨earlier, hafter⟩
  · have hlast := Text.wholeLines_iff.1 (parts.source_eq ▸ hlines)
    simp only [hafter, hclosing, List.append_nil, ← List.append_assoc] at hlast
    rcases hlast with hnil | ⟨earlier, hlast⟩
    · simp at hnil
    · have hc := congrArg List.getLast? hlast
      simp only [List.getLast?_concat, Option.some.injEq] at hc
      rw [hc] at hblank
      exact absurd hblank (by decide)
  · simp [hafter]

/-- A tag in whole lines is the same whatever follows. -/
lemma sameIn_append (hlines : part.WholeLines) (parts : TagParts part d raw) (more : Text) :
    raw.SameIn part (part ++ more) 0 := by
  have hsource : part ++ more = [] ++ part ++ more := rfl
  refine sameIn_of_standaloneLine? hsource parts ?_
  rw [Text.byteSize_nil, Span.shift_zero, StandaloneLine.map_shift_zero]
  exact standaloneLine?_append parts.source_eq parts.start_span parts.stop_eq
    (newline_mem_after hlines parts) more

/-- A tag is the same behind whole lines. -/
lemma sameIn_shift {lines : Text} (hlines : lines.WholeLines) (parts : TagParts part d raw) :
    raw.SameIn part (lines ++ part) lines.byteSize := by
  have hsource : lines ++ part = lines ++ part ++ [] := (List.append_nil _).symm
  refine sameIn_of_standaloneLine? hsource parts ?_
  exact standaloneLine?_shift parts.source_eq parts.start_span parts.stop_eq hlines

namespace SameIn

lemma region_eq (h : raw.SameIn part source n) :
    (raw.shift n).region source = (raw.region part).shift n := by
  rw [region, region, h.line?_eq]
  cases raw.line? part <;> rfl

/-- The tag says the same. -/
lemma ofRaw_eq (h : raw.SameIn part source n) {tag : Tag} (htag : Tag.ofRaw raw part = .ok tag) :
    Tag.ofRaw (raw.shift n) source = .ok tag := by
  rw [Tag.ofRaw_eq_ok_iff] at htag ⊢
  rw [h.name_eq]
  exact htag

end SameIn

end RawTag

namespace Scanner

variable {raw : RawTag} {source : Text} {d : Delimiters}

lemma exists_tagParts_of_mem_scan (h : .tag raw ∈ (scan source d).tokens) :
    ∃ d', Nonempty (TagParts source d' raw) := by
  obtain ⟨front, back, htokens⟩ := List.append_of_mem h
  have hdissection := (rounds_run (.start source d)).dissection (List.nil_append source).symm rfl
  obtain ⟨-, parts, -⟩ := hdissection.tag front raw back htokens
  exact ⟨_, ⟨parts⟩⟩

lemma line?_stop_le_of_mem_scan (h : .tag raw ∈ (scan source d).tokens) {line : StandaloneLine}
    (hline : raw.line? source = some line) : line.stop ≤ source.byteSize := by
  obtain ⟨_, ⟨parts⟩⟩ := exists_tagParts_of_mem_scan h
  exact (RawTag.line?_liesIn parts hline).2

lemma sameIn_append_of_mem_scan (h : .tag raw ∈ (scan source d).tokens)
    (hlines : source.WholeLines) (more : Text) : raw.SameIn source (source ++ more) 0 := by
  obtain ⟨_, ⟨parts⟩⟩ := exists_tagParts_of_mem_scan h
  exact RawTag.sameIn_append hlines parts more

lemma sameIn_shift_of_mem_scan (h : .tag raw ∈ (scan source d).tokens) {lines : Text}
    (hlines : lines.WholeLines) : raw.SameIn source (lines ++ source) lines.byteSize := by
  obtain ⟨_, ⟨parts⟩⟩ := exists_tagParts_of_mem_scan h
  exact RawTag.sameIn_shift hlines parts

end Scanner

/-! ### Fragments of a part -/

/-- A fragment moved right by `n` bytes. -/
def Fragment.shift (n : Nat) : Fragment → Fragment
  | .text span      => .text (span.shift n)
  | .tag raw indent => .tag (raw.shift n) indent

@[simp] lemma Fragment.map_shift_zero (fs : List Fragment) : fs.map (Fragment.shift 0) = fs := by
  refine (List.map_congr_left fun f _ => ?_).trans (List.map_id fs)
  cases f <;> rfl

lemma map_shift_textFragment (n start stop : Nat) :
    (textFragment start stop).map (Fragment.shift n) = textFragment (start + n) (stop + n) := by
  rw [textFragment, textFragment]
  by_cases h : start < stop
  · rw [if_pos h, if_pos (Nat.add_lt_add_right h n)]
    rfl
  · rw [if_neg h, if_neg (by omega)]
    rfl

section
variable {part source : Text} {n k k' : Nat} {tokens : List Token}
  (hsame : ∀ raw, .tag raw ∈ tokens → raw.SameIn part source n)
include hsame

lemma textStop_shift (stop : Nat) :
    textStop source (stop + n) (tokens.map (Token.shift n)) = textStop part stop tokens + n := by
  cases tokens with
  | nil => rfl
  | cons token tokens =>
    cases token with
    | text span => rfl
    | tag raw => exact congrArg Span.start (hsame raw List.mem_cons_self).region_eq

/-- The fragments of a part, when the lines that went in front of it do not reach into it. -/
lemma fragments_shift (hk : max n k' = k + n) :
    fragments source k' (tokens.map (Token.shift n)) =
      (fragments part k tokens).map (Fragment.shift n) := by
  induction tokens generalizing k k' with
  | nil => rfl
  | cons token tokens ih =>
    have hsame' : ∀ raw, .tag raw ∈ tokens → raw.SameIn part source n := fun raw hraw =>
      hsame raw (List.mem_cons_of_mem token hraw)
    cases token with
    | text span =>
      have hmax : max (span.start + n) k' = max span.start k + n := by omega
      rw [List.map_cons, Token.shift, fragments, fragments, List.map_append,
        map_shift_textFragment, ih hsame' hk]
      simp only [Span.shift, hmax, textStop_shift hsame']
    | tag raw =>
      obtain ⟨-, hline, hindent⟩ := hsame raw List.mem_cons_self
      have hk' : max n ((((raw.shift n).line? source).map (·.stop)).getD k') =
          ((raw.line? part).map (·.stop)).getD k + n := by
        rw [hline]
        cases raw.line? part with
        | none => exact hk
        | some line => exact Nat.max_eq_right (Nat.le_add_left n line.stop)
      rw [List.map_cons, Token.shift, fragments, fragments, List.map_cons, hindent, ih hsame' hk']
      rfl

end

/-- The fragments of a text and of what follows from a tag on. -/
lemma FromTag.fragments_append {offset : Nat} {text : Text} {tokens : List Token}
    (h : FromTag (offset + text.byteSize) tokens) (source : Text) (k : Nat) :
    fragments source k (textToken offset text ++ tokens) =
      textFragment (max offset k) (textStop source (offset + text.byteSize) tokens) ++
        fragments source k tokens := by
  cases h with
  | nil => simp [fragments_textToken, fragments, textStop]
  | tag h tokens => exact fragments_round h tokens

/-- The fragments up to a tag, if the lines of the tags up to there are the same in two sources. -/
lemma Scanner.Passes.exists_fragments_append {s s' : Scanner} {front : List Token}
    {part source : Text} {k size : Nat} (h : s.Passes front s')
    (hsame : ∀ raw, .tag raw ∈ front → raw.SameIn part source 0)
    (hstop : ∀ raw, .tag raw ∈ front → ∀ line, raw.line? part = some line → line.stop ≤ size)
    (hk : k ≤ size) :
    ∃ fs k', k' ≤ size ∧
      (∀ back, fragments part k (front ++ back) = fs ++ fragments part k' back) ∧
      (∀ back, fragments source k (front ++ back) = fs ++ fragments source k' back) := by
  induction h generalizing k with
  | done s => exact ⟨[], k, hk, fun _ => rfl, fun _ => rfl⟩
  | @round s s' text after sigil inside rest changed tokens hcut htag later ih =>
    let raw := (s.skip text after).rawTag sigil inside changed
    have hmem : .tag raw ∈ textToken s.offset text ++ .tag raw :: tokens := by simp
    have hlater : ∀ raw', .tag raw' ∈ tokens →
        .tag raw' ∈ textToken s.offset text ++ .tag raw :: tokens := fun _ h => by simp [h]
    have hraw := hsame raw hmem
    have hline : raw.line? source = raw.line? part := by simpa using hraw.line?_eq
    have hregion : raw.region source = raw.region part := hraw.region_eq
    have hindent : raw.indent source = raw.indent part := hraw.indent_eq
    have hk' : ((raw.line? part).map (·.stop)).getD k ≤ size := by
      cases hraw' : raw.line? part with
      | none => exact hk
      | some line => exact hstop raw hmem line hraw'
    obtain ⟨fs, k', hle, hpart, hsource⟩ := ih (fun raw' h => hsame raw' (hlater raw' h))
      (fun raw' h => hstop raw' (hlater raw' h)) hk'
    refine ⟨textFragment (max s.offset k) (raw.region part).start ++
      .tag raw (raw.indent part) :: fs, k', hle, fun back => ?_, fun back => ?_⟩
    · rw [List.append_assoc, List.cons_append, fragments_round rfl, hpart, List.append_assoc,
        List.cons_append]
    · rw [List.append_assoc, List.cons_append, fragments_round rfl, hline, hindent, hregion,
        hsource, List.append_assoc, List.cons_append]

/-! ### Groves of a part -/

/-- An open section with all that is known of it moved right by `n` bytes. -/
def OpenTree.shift (n : Nat) (s : OpenTree) : OpenTree :=
  { s with span := s.span.shift n, body := Tree.shiftAll n s.body }

namespace Grove

variable {g g' : Grove} {part source : Text} {n : Nat} {t : Tree} {fs : List Fragment}

/-- A grove with everything moved right by `n` bytes. -/
def shift (n : Nat) (g : Grove) : Grove :=
  ⟨Tree.shiftAll n g.root, g.pending.map (OpenTree.shift n)⟩

@[simp] lemma shift_zero (g : Grove) : g.shift 0 = g := by
  have hpending : g.pending.map (OpenTree.shift 0) = g.pending := by
    refine (List.map_congr_left fun s _ => ?_).trans (List.map_id g.pending)
    simp [OpenTree.shift]
  rw [shift, hpending, Tree.shiftAll_zero]

/-- A grove that was begun with trees in it, newest first, in place of an empty one. -/
def behind (older : List Tree) (g : Grove) : Grove := { g with root := g.root ++ older }

lemma shift_push (n : Nat) (g : Grove) (t : Tree) :
    (g.push t).shift n = (g.shift n).push (t.shift n) := by
  obtain ⟨root, pending⟩ := g
  cases pending <;> simp [push, shift, OpenTree.shift, Tree.shiftAll]

lemma behind_push (older : List Tree) (g : Grove) (t : Tree) :
    (g.push t).behind older = (g.behind older).push t := by
  obtain ⟨root, pending⟩ := g
  cases pending <;> rfl

lemma close_shift {path : Path} {span : Span} (h : g.close path span = .ok g') :
    (g.shift n).close path (span.shift n) = .ok (g'.shift n) := by
  obtain ⟨root, pending⟩ := g
  cases pending with
  | nil => simp [close] at h
  | cons s outer =>
    simp only [close] at h
    split at h
    · next hpath =>
      rw [Except.ok.injEq] at h
      rw [← h, shift_push]
      simp only [close, shift, OpenTree.shift, List.map_cons, if_pos hpath, Tree.shift,
        Tree.shiftAll_eq_map, List.map_reverse, Span.shift]
    · simp at h

lemma close_behind (older : List Tree) (g : Grove) (path : Path) (span : Span) :
    (g.behind older).close path span = (g.close path span).map (behind older) := by
  obtain ⟨root, pending⟩ := g
  cases pending with
  | nil => rfl
  | cons s outer =>
    simp only [close, behind]
    split
    · rw [Except.map, behind_push]
      rfl
    · rfl

lemma addTag_shift {tag : Tag} {span : Span} {d : Delimiters} {indent : Text}
    (h : g.addTag tag span d indent = .ok g') :
    (g.shift n).addTag tag (span.shift n) d indent = .ok (g'.shift n) := by
  cases tag with
  | closeTag path => exact close_shift h
  | openTag path inverted =>
    rw [addTag, Except.ok.injEq] at h
    rw [← h]
    simp [addTag, shift, OpenTree.shift, Tree.shiftAll]
  | variableTag path escaped =>
    rw [addTag, Except.ok.injEq] at h
    rw [← h, shift_push, addTag, Tree.shift]
  | partialTag name =>
    rw [addTag, Except.ok.injEq] at h
    rw [← h, shift_push, addTag, Tree.shift]
  | commentTag | delimiterTag =>
    rw [addTag, Except.ok.injEq] at h
    rw [← h, addTag]

lemma addTag_behind (older : List Tree) (g : Grove) (tag : Tag) (span : Span) (d : Delimiters)
    (indent : Text) :
    (g.behind older).addTag tag span d indent =
      (g.addTag tag span d indent).map (behind older) := by
  cases tag with
  | closeTag path => exact close_behind older g path span
  | variableTag path escaped => simp only [addTag, Except.map, behind_push]
  | partialTag name => simp only [addTag, Except.map, behind_push]
  | openTag path inverted => rfl
  | commentTag | delimiterTag => rfl

/-- What a fragment adds to a grove does not depend on the trees it was begun with. -/
lemma add_behind (older : List Tree) (g : Grove) (f : Fragment) :
    (g.behind older).add source f = (g.add source f).map (behind older) := by
  cases f with
  | text span => exact congrArg Except.ok (behind_push older g _).symm
  | tag raw indent =>
    rw [add_tag, add_tag]
    cases Tag.ofRaw raw source with
    | error e => rfl
    | ok tag => exact addTag_behind older g tag raw.span raw.delimiters indent

/-- What a fragment of a part adds to a grove of the part, it adds to that of the source. -/
lemma add_shift {f : Fragment}
    (hsame : ∀ raw indent, f = .tag raw indent → raw.SameIn part source n)
    (h : g.add part f = .ok g') : (g.shift n).add source (f.shift n) = .ok (g'.shift n) := by
  cases f with
  | text span =>
    rw [add_text, Except.ok.injEq] at h
    rw [← h, shift_push, Fragment.shift, add_text, Tree.shift]
  | tag raw indent =>
    rw [add_tag] at h
    rw [Fragment.shift, add_tag]
    cases hraw : Tag.ofRaw raw part with
    | error e => simp [hraw, Except.bind] at h
    | ok tag =>
      rw [hraw] at h
      rw [(hsame raw indent rfl).ofRaw_eq hraw]
      exact addTag_shift h

theorem foldlM_behind (older : List Tree) (fs : List Fragment) (g : Grove) :
    fs.foldlM (add source) (g.behind older) =
      (fs.foldlM (add source) g).map (behind older) := by
  induction fs generalizing g with
  | nil => rfl
  | cons f fs ih =>
    rw [List.foldlM_cons, List.foldlM_cons, add_behind]
    cases g.add source f with
    | error e => rfl
    | ok next => exact ih next

/-- Fragments of a part grow the trees of the part in the source. -/
theorem foldlM_shift (hsame : ∀ raw indent, .tag raw indent ∈ fs → raw.SameIn part source n)
    (h : fs.foldlM (add part) g = .ok g') :
    (fs.map (Fragment.shift n)).foldlM (add source) (g.shift n) = .ok (g'.shift n) := by
  induction fs generalizing g with
  | nil => exact congrArg (Except.ok ∘ shift n) (Except.ok.inj h)
  | cons f fs ih =>
    rw [List.foldlM_cons] at h
    rw [List.map_cons, List.foldlM_cons]
    cases hadd : g.add part f with
    | error e => simp [hadd, bind, Except.bind] at h
    | ok next =>
      rw [hadd] at h
      have hhead : ∀ raw indent, f = .tag raw indent → raw.SameIn part source n :=
        fun raw indent hf => hsame raw indent (hf ▸ List.mem_cons_self)
      rw [add_shift hhead hadd]
      exact ih (fun raw indent hmem => hsame raw indent (List.mem_cons_of_mem f hmem)) h

end Grove

end Mustache
