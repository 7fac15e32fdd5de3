import Mustache.Proofs.Tag.Names
import Mustache.Proofs.Template.Grove
import Mustache.Proofs.Token.Rounds
import Mustache.Template.Compile

/-!
# Compiling by fragments

The builder takes back text that it has added when a tag turns out to stand alone. Seen from the
whole sequence of tokens nothing has to be taken back: what stays of a text is known from the tag
behind it. `fragments` cuts the lines out in this way, and `compile_eq_forest` says that compiling
is growing the trees of the fragments and laying them out.
-/

namespace Mustache

/-! ### Tags that stand alone -/

/-- Whether a tag with this sigil vanishes together with its line when it stands alone. -/
def Sigil.canStandAlone : Sigil → Bool
  | .absent | .brace | .ampersand => false
  | _                             => true

namespace RawTag

/-- The line that goes with a tag. -/
def line? (raw : RawTag) (source : Text) : Option StandaloneLine :=
  if raw.sigil.canStandAlone then standaloneLine? source raw.span else none

/-- The part of the source that goes when a tag is read. -/
def region (raw : RawTag) (source : Text) : Span :=
  match raw.line? source with
  | some line => ⟨line.indent.start, line.stop⟩
  | none      => raw.span

/-- The indentation that goes with a tag. -/
def indent (raw : RawTag) (source : Text) : Text :=
  match raw.line? source with
  | some line => line.indent.slice source
  | none      => []

end RawTag

lemma Tag.Means.canStandAlone {name : Text} {sigil : Sigil} {tag : Tag} (h : Means name sigil tag) :
    tag.canStandAlone = sigil.canStandAlone := by
  cases h <;> rfl

lemma standaloneLine?_indent {source : Text} {tag : Span} {line : StandaloneLine}
    (h : standaloneLine? source tag = some line) :
    line.indent.stop = tag.start ∧ line.indent.start ≤ tag.start ∧ tag.stop ≤ line.stop := by
  rw [standaloneLine?] at h
  split at h
  · split at h
    · simp only [Option.some.injEq] at h
      simp [← h]
    · simp at h
  · simp at h

lemma RawTag.line?_indent {raw : RawTag} {source : Text} {line : StandaloneLine}
    (h : raw.line? source = some line) : line.indent.stop = raw.span.start ∧
      line.indent.start ≤ raw.span.start ∧ raw.span.stop ≤ line.stop := by
  rw [line?] at h
  split at h
  · exact standaloneLine?_indent h
  · simp at h

lemma RawTag.start_region_le (raw : RawTag) (source : Text) :
    (raw.region source).start ≤ raw.span.start := by
  rw [region]
  split
  · next line h => exact (line?_indent h).2.1
  · exact Nat.le_refl _

/-! ### Fragments -/

/-- Where the text in front of `tokens` has to end: at the line of the next tag, if that goes. -/
def textStop (source : Text) (stop : Nat) : List Token → Nat
  | .tag raw :: _ => (raw.region source).start
  | _             => stop

/-- The text between two offsets, if there is any. -/
def textFragment (start stop : Nat) : List Fragment :=
  if start < stop then [.text ⟨start, stop⟩] else []

/-- The tokens with the lines of the tags that stand alone cut out; text in front of `skip` belongs
to such a line. -/
def fragments (source : Text) (skip : Nat) : List Token → List Fragment
  | []                   => []
  | .text span :: tokens =>
    textFragment (max span.start skip) (textStop source span.stop tokens) ++
      fragments source skip tokens
  | .tag raw :: tokens   =>
    .tag raw (raw.indent source) ::
      fragments source (((raw.line? source).map (·.stop)).getD skip) tokens

/-- The trees of a source. -/
def Template.forest (source : Text) (delimiters : Delimiters) : Except ParseError (List Tree) :=
  if maxOffset < source.byteSize then .error ⟨.sourceTooLarge source.byteSize, ⟨0, 0⟩⟩
  else
    let found := scan source delimiters
    match (fragments source 0 found.tokens).foldlM (Grove.add source) Grove.empty,
      found.failure with
    | .error e, _         => .error e
    | .ok _, some failure => .error (.ofScanError failure)
    | .ok grove, none     => grove.finish

/-! ### Adding a tag -/

namespace Builder

variable {b : Builder} {source : Text}

/-- Adds a tag whose line, if it goes, has been taken away and began with `indent`. -/
def place (b : Builder) (tag : Tag) (span : Span) (delimiters : Delimiters) (indent : Text) :
    Except ParseError Builder :=
  match tag with
  | .variableTag path escaped => .ok (b.push (.variableTag ⟨path, escaped, span⟩))
  | .openTag path inverted    =>
    .ok { b with pending := ⟨path, inverted, span, delimiters, []⟩ :: b.pending }
  | .closeTag path            => b.closeSection path span
  | .partialTag name          => .ok (b.push (.partialTag ⟨name, indent, span⟩))
  | .commentTag               => .ok b
  | .delimiterTag             => .ok b

/-- Takes away the line of a tag, if it goes. -/
def cutLine (b : Builder) (line : Option StandaloneLine) : Builder :=
  match line with
  | some line => b.removeLine line
  | none      => b

/-- A tag is added after its line has been taken away. -/
lemma addToken_tag (source : Text) (b : Builder) (raw : RawTag) :
    addToken source b (.tag raw) = (Tag.ofRaw raw source).bind fun tag =>
      (b.cutLine (raw.line? source)).place tag raw.span raw.delimiters (raw.indent source) := by
  cases h : Tag.ofRaw raw source with
  | error e => simp [addToken, h, Except.bind, bind]
  | ok tag =>
    have hline : (if tag.canStandAlone then standaloneLine? source raw.span else none) =
        raw.line? source := by
      rw [(Tag.ofRaw_eq_ok_iff.1 h).canStandAlone, RawTag.line?]
    simp only [addToken, h, Except.bind, bind]
    simp only [addTag]
    simp only [hline]
    cases tag <;> rfl

lemma setCurrent_current (b : Builder) : b.setCurrent b.current = b := by
  obtain ⟨table, root, pending, k⟩ := b
  cases pending <;> rfl

@[simp] lemma setCurrent_push (b : Builder) (node : Node) (nodes : List Node) :
    (b.push node).setCurrent nodes = b.setCurrent nodes := by
  obtain ⟨table, root, pending, k⟩ := b
  cases pending <;> rfl

@[simp] lemma current_push (b : Builder) (node : Node) :
    (b.push node).current = node :: b.current := by simp [push]

lemma trimIndent_of_lt {indent : Span} {nodes : List Node}
    (h : ∀ span, .text span ∈ nodes → span.stop < indent.stop) :
    trimIndent indent nodes = nodes := by
  simp only [trimIndent]
  split
  · next t older =>
    have := h t (by simp)
    rw [if_neg (by omega)]
  · rfl

end Builder

namespace Grove

variable {g : Grove} {source : Text}

lemma builder_addTag (g : Grove) (k : Nat) (tag : Tag) (span : Span) (d : Delimiters)
    (indent : Text) :
    (g.builder k).place tag span d indent = (g.addTag tag span d indent).map (·.builder k) := by
  cases tag with
  | variableTag path escaped =>
    simp [Builder.place, addTag, Except.map, builder_push_of_lay (Tree.lay_variableTag · _)]
  | openTag path inverted => simp [Builder.place, addTag, Except.map, builder_open]
  | closeTag path => exact builder_close g k path span
  | partialTag name =>
    simp [Builder.place, addTag, Except.map, builder_push_of_lay (Tree.lay_partialTag · _)]
  | commentTag => rfl
  | delimiterTag => rfl

/-- Adds the text between two offsets, if there is any. -/
def pushText (g : Grove) (start stop : Nat) : Grove :=
  if start < stop then g.push (.text ⟨start, stop⟩) else g

lemma pushText_of_le {start stop : Nat} (h : stop ≤ start) : g.pushText start stop = g :=
  if_neg (by omega)

lemma foldlM_textFragment (start stop : Nat) :
    (textFragment start stop).foldlM (add source) g = .ok (g.pushText start stop) := by
  rw [textFragment, pushText]
  split <;> rfl

lemma builder_push_text (g : Grove) (k : Nat) (span : Span) :
    (g.push (.text span)).builder k = (g.builder k).push (.text span) :=
  builder_push_of_lay (Tree.lay_text · span) g k

lemma addText_builder (g : Grove) (k start stop : Nat) :
    (g.builder k).addText ⟨start, stop⟩ = (g.pushText (max start k) stop).builder k := by
  show (if max start k < stop then (g.builder k).push (.text ⟨max start k, stop⟩)
    else g.builder k) = _
  rw [pushText]
  by_cases h : max start k < stop
  · rw [if_pos h, if_pos h, builder_push_text]
  · rw [if_neg h, if_neg h]

/-! ### Where text has ended -/

/-- All text that is not in the body of a tree ends in front of an offset. -/
def Before (g : Grove) (offset : Nat) : Prop := ∀ span, .text span ∈ g.trees → span.stop < offset

lemma mem_trees_push {t u : Tree} : u ∈ (g.push t).trees ↔ u = t ∨ u ∈ g.trees := by
  obtain ⟨root, pending⟩ := g
  cases pending with
  | nil => simp [push, trees]
  | cons s outer =>
    simp only [push, trees, List.flatMap_cons, List.mem_append, List.mem_cons]
    tauto

lemma Before.mono {m n : Nat} (h : g.Before m) (hmn : m ≤ n) : g.Before n := fun span hs =>
  Nat.lt_of_lt_of_le (h span hs) hmn

lemma Before.push {n : Nat} {t : Tree} (h : g.Before n)
    (ht : ∀ span, t = .text span → span.stop < n) : (g.push t).Before n := by
  intro span hs
  rcases mem_trees_push.1 hs with rfl | hs
  · exact ht span rfl
  · exact h span hs

lemma Before.pushText {n start stop : Nat} (h : g.Before n) (hstop : stop < n) :
    (g.pushText start stop).Before n := by
  rw [Grove.pushText]
  split
  · exact h.push fun span hs => by
      rw [Tree.text.injEq] at hs
      rwa [← hs]
  · exact h

lemma Before.addTag {n : Nat} {tag : Tag} {span : Span} {d : Delimiters} {indent : Text}
    {g' : Grove} (h : g.Before n) (hadd : g.addTag tag span d indent = .ok g') : g'.Before n := by
  cases tag with
  | variableTag path escaped =>
    simp only [Grove.addTag, Except.ok.injEq] at hadd
    exact hadd ▸ h.push (by simp)
  | openTag path inverted =>
    simp only [Grove.addTag, Except.ok.injEq] at hadd
    exact hadd ▸ fun span hs => h span (by simpa [trees] using hs)
  | closeTag path =>
    simp only [Grove.addTag, close] at hadd
    split at hadd
    · simp at hadd
    · next s outer hpending =>
      split at hadd
      · simp only [Except.ok.injEq] at hadd
        have houter : Before { g with pending := outer } n := fun span hs =>
          h span (by
            simp only [trees, hpending, List.flatMap_cons, List.mem_append] at hs ⊢
            tauto)
        exact hadd ▸ houter.push (by simp)
      · simp at hadd
  | partialTag name =>
    simp only [Grove.addTag, Except.ok.injEq] at hadd
    exact hadd ▸ h.push (by simp)
  | commentTag =>
    simp only [Grove.addTag, Except.ok.injEq] at hadd
    exact hadd ▸ h
  | delimiterTag =>
    simp only [Grove.addTag, Except.ok.injEq] at hadd
    exact hadd ▸ h

lemma mem_of_text_mem_layAll {table : NodeTable} {ts : List Tree} {span : Span}
    (h : .text span ∈ (Tree.layAll table ts).1) : .text span ∈ ts := by
  induction ts generalizing table with
  | nil => simp at h
  | cons t ts ih =>
    rw [Tree.layAll_cons, List.mem_cons] at h
    rcases h with h | h
    · cases t with
      | text span' => simp_all
      | variableTag tag => simp at h
      | sectionTag heading body => simp [Tree.lay_sectionTag] at h
      | partialTag tag => simp at h
    · exact List.mem_cons_of_mem t (ih h)

lemma mem_trees_of_text_mem_current {k : Nat} {span : Span}
    (h : .text span ∈ (g.builder k).current) : .text span ∈ g.trees := by
  obtain ⟨root, pending⟩ := g
  cases pending with
  | nil =>
    have := mem_of_text_mem_layAll (List.mem_reverse.1 h)
    simp_all [trees]
  | cons s outer =>
    have := mem_of_text_mem_layAll (List.mem_reverse.1 h)
    simp_all [trees]

/-! ### Growing and building agree -/

/-- Trimming the text just added is adding less of it, as all other text has ended before. -/
lemma trimIndent_builder {indent : Span} {k offset start : Nat} (hbefore : g.Before offset)
    (hoffset : offset ≤ indent.stop) (hindent : indent.start ≤ indent.stop) :
    (let b := (g.pushText start indent.stop).builder k
      if indent.isEmpty then b else b.setCurrent (Builder.trimIndent indent b.current)) =
      (g.pushText start indent.start).builder k := by
  simp only [Span.isEmpty, decide_eq_true_eq]
  by_cases hempty : indent.start = indent.stop
  · rw [if_pos hempty, hempty]
  rw [if_neg hempty]
  by_cases hpush : start < indent.stop
  · -- the text in front of the tag is the last node
    have hpushed : g.pushText start indent.stop = g.push (.text ⟨start, indent.stop⟩) :=
      if_pos hpush
    rw [hpushed, builder_push_text, Builder.setCurrent_push, Builder.current_push,
      Builder.trimIndent, if_pos rfl]
    simp only [Span.isEmpty, decide_eq_true_eq]
    by_cases hkept : start < indent.start
    · have hmax : max indent.start start = indent.start := by omega
      rw [hmax, if_neg (by omega), pushText, if_pos hkept, builder_push_text]
      rfl
    · rw [if_pos (by omega), pushText_of_le (by omega), Builder.setCurrent_current]
  · rw [pushText_of_le (by omega), pushText_of_le (by omega), Builder.trimIndent_of_lt,
      Builder.setCurrent_current]
    intro span hs
    have := hbefore span (mem_trees_of_text_mem_current hs)
    omega

/-- What the builder does at the line of a tag, seen from the grove. -/
lemma cutLine_builder {raw : RawTag} {source : Text} {k offset : Nat} (hbefore : g.Before offset)
    (hoffset : offset ≤ raw.span.start) :
    ((g.pushText (max offset k) raw.span.start).builder k).cutLine (raw.line? source) =
      (g.pushText (max offset k) (raw.region source).start).builder
        (((raw.line? source).map (·.stop)).getD k) := by
  rw [RawTag.region]
  cases hline : raw.line? source with
  | none => rfl
  | some line =>
    obtain ⟨hstop, hstart, -⟩ := RawTag.line?_indent hline
    rw [← hstop] at hoffset hstart ⊢
    have htrim := @trimIndent_builder g line.indent k offset (max offset k) hbefore hoffset hstart
    simp only [Builder.cutLine, Builder.removeLine, Option.map_some, Option.getD_some]
    rw [htrim]
    rfl

end Grove

/-! ### The tokens of a scan -/

lemma fragments_textToken (source : Text) (k offset : Nat) (text : Text) :
    fragments source k (textToken offset text) =
      textFragment (max offset k) (offset + text.byteSize) := by
  by_cases h : text = []
  · subst h
    exact (if_neg (Nat.not_lt.2 (Nat.le_max_left offset k))).symm
  · simp [textToken_of_ne_nil h, fragments, textStop]

/-- The fragments of a round. -/
lemma fragments_round {source : Text} {k offset : Nat} {text : Text} {raw : RawTag}
    (hraw : raw.span.start = offset + text.byteSize) (tokens : List Token) :
    fragments source k (textToken offset text ++ .tag raw :: tokens) =
      textFragment (max offset k) (raw.region source).start ++ .tag raw (raw.indent source) ::
        fragments source (((raw.line? source).map (·.stop)).getD k) tokens := by
  by_cases h : text = []
  · subst h
    have := raw.start_region_le source
    rw [textFragment, if_neg (by simp at hraw; omega)]
    rfl
  · rw [textToken_of_ne_nil h]
    rfl

namespace Grove

variable {g : Grove} {source : Text}

lemma foldlM_textToken (g : Grove) (k offset : Nat) (text : Text) :
    (textToken offset text).foldlM (Builder.addToken source) (g.builder k) =
      .ok ((g.pushText (max offset k) (offset + text.byteSize)).builder k) := by
  by_cases h : text = []
  · subst h
    rw [Text.byteSize_nil, Nat.add_zero, pushText_of_le (Nat.le_max_left offset k)]
    rfl
  · rw [textToken_of_ne_nil h, ← addText_builder]
    rfl

/-- Building from the tokens of a scan is growing from their fragments. -/
theorem foldlM_builder {s : Scanner} {tokens : List Token} {failure : Option ScanError}
    {d : Delimiters} (h : s.Rounds tokens failure d) (hbefore : g.Before s.offset) (k : Nat) :
    ∃ k', tokens.foldlM (Builder.addToken source) (g.builder k) =
      ((fragments source k tokens).foldlM (add source) g).map (·.builder k') := by
  induction h generalizing g k with
  | last s hcut =>
    rw [fragments_textToken, foldlM_textFragment, foldlM_textToken]
    exact ⟨k, rfl⟩
  | failed s text after error hcut hread =>
    rw [fragments_textToken, foldlM_textFragment, foldlM_textToken]
    exact ⟨k, rfl⟩
  | @round s text after sigil inside rest changed d tokens failure hcut htag later ih =>
    let raw := (s.skip text after).rawTag sigil inside changed
    have hstart : raw.span.start = s.offset + text.byteSize := rfl
    have hlt : raw.span.start <
        ((s.skip text after).afterTag sigil inside rest changed).offset :=
      Scanner.offset_lt_afterTag ..
    rw [fragments_round hstart, List.foldlM_append, foldlM_textToken, List.foldlM_append,
      foldlM_textFragment, ← hstart]
    show ∃ k', (Builder.addToken source _ (.tag raw)).bind _ =
      Except.map _ ((add source _ (.tag raw _)).bind _)
    rw [Builder.addToken_tag, add_tag]
    cases hraw : Tag.ofRaw raw source with
    | error e => exact ⟨k, rfl⟩
    | ok tag =>
      simp only [Except.bind]
      rw [cutLine_builder hbefore (by omega), builder_addTag]
      cases hadd : (g.pushText (max s.offset k) (raw.region source).start).addTag tag raw.span
          raw.delimiters (raw.indent source) with
      | error e => exact ⟨k, rfl⟩
      | ok g' =>
        have hregion := raw.start_region_le source
        exact ih (((hbefore.mono (by omega)).pushText (by omega)).addTag hadd) _

lemma before_empty (offset : Nat) : empty.Before offset := fun span hs => by
  simp [trees, empty] at hs

end Grove

/-- Compiling a source is growing its trees and laying them out. -/
theorem Template.compile_eq_forest (source : Text) (d : Delimiters) :
    compile source d = (forest source d).map (ofTrees source) := by
  rw [compile, forest]
  split
  · rfl
  have hrounds := Scanner.rounds_run (.start source d)
  obtain ⟨k, hfold⟩ := Grove.foldlM_builder hrounds (Grove.before_empty _) 0
  rw [Grove.builder_empty] at hfold
  simp only [scan, Builder.empty] at hfold ⊢
  rw [hfold]
  cases (fragments source 0 (Scanner.start source d).run.tokens).foldlM (Grove.add source)
      Grove.empty with
  | error e => rfl
  | ok grove =>
    cases (Scanner.start source d).run.failure with
    | some failure => rfl
    | none => exact grove.builder_finish k source

/-- A template is laid out from its trees. -/
theorem Template.eq_ofTrees_of_compile {source : Text} {d : Delimiters} {t : Template}
    (h : compile source d = .ok t) :
    forest source d = .ok t.trees ∧ t = ofTrees source t.trees := by
  rw [compile_eq_forest] at h
  cases hforest : forest source d with
  | error e => simp [hforest, Except.map] at h
  | ok trees =>
    simp only [hforest, Except.map, Except.ok.injEq] at h
    rw [← h, trees_ofTrees]
    exact ⟨rfl, rfl⟩

end Mustache
