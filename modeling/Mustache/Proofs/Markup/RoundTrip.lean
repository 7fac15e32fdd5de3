import Mustache.Proofs.Markup.Pieces
import Mustache.Proofs.Tag.Names

/-!
# Compiling undoes printing

Markup that can be printed is what its printed text compiles to, with every tag at the place where
it was written. The pieces of the markup are the tokens of a scan; added one after the other, the
pieces of a part of the markup grow the tree of this part.
-/

namespace Mustache

namespace Markup

/-! ### Markup that can be printed -/

/-- Whether the markup is literal text. -/
def isText : Markup → Bool
  | .text _ => true
  | _       => false

/-- Two neighbours that stay apart when printed: not both of them are text. -/
def Apart (m n : Markup) : Prop := m.isText = false ∨ n.isText = false

/-- A path that can be written in a tag: its segments are not empty and hold neither a dot nor a
blank, and the closing delimiter does not occur in it. -/
structure FitsPath (d : Delimiters) (path : Path) : Prop where
  segments : ∀ s ∈ path.segments, s ≠ [] ∧ '.' ∉ s ∧ ∀ c ∈ s, isBlank c = false
  closing : ¬ d.closing <:+: path.display

/-- Markup that can be printed so that it can be read again. -/
inductive Printable (d : Delimiters) : Markup → Prop
  | text {t : Text} (h : Piece.FitsText d t) : Printable d (.text t)
  | variableTag {path : Path} (escaped : Bool) (h : FitsPath d path) :
      Printable d (.variableTag path escaped)
  | sectionTag {path : Path} (inverted : Bool) {body : List Markup} (h : FitsPath d path)
      (hbody : ∀ m ∈ body, Printable d m) (hapart : body.IsChain Apart) :
      Printable d (.sectionTag path inverted body)
  | partialTag {name : Text} (h : Piece.FitsTag d name) : Printable d (.partialTag name [])

/-! ### Pieces -/

/-- The sigil of a tag that stands for a value. -/
def valueSigil (escaped : Bool) : Sigil := if escaped then .absent else .ampersand

/-- The sigil of a tag that opens a section. -/
def openSigil (inverted : Bool) : Sigil := if inverted then .caret else .hash

mutual

/-- The pieces of printed markup. -/
def pieces : Markup → List Piece
  | .text t                        => [.text t]
  | .variableTag path escaped      => [.tag (valueSigil escaped) path.display]
  | .sectionTag path inverted body =>
    .tag (openSigil inverted) path.display :: (piecesAll body ++ [.tag .slash path.display])
  | .partialTag name _             => [.tag .angle name]

/-- The pieces of a sequence of markup. -/
def piecesAll : List Markup → List Piece
  | []      => []
  | m :: ms => m.pieces ++ piecesAll ms

end

mutual

/-- The tree of markup that was printed at an offset: each tag where it was written, each section
with the delimiters it was written with and its printed body inside. -/
def place (d : Delimiters) (offset : Nat) : Markup → Tree
  | .text t                        => .text ⟨offset, offset + t.byteSize⟩
  | .variableTag path escaped      =>
    let size := (d.tag (valueSigil escaped) path.display).byteSize
    .variableTag ⟨path, escaped, ⟨offset, offset + size⟩⟩
  | .sectionTag path inverted body =>
    let start := offset + (d.tag (openSigil inverted) path.display).byteSize
    .sectionTag ⟨path, inverted, ⟨start, start + (printAll d body).byteSize⟩, d, ⟨offset, start⟩⟩
      (placeAll d start body)
  | .partialTag name _             =>
    .partialTag ⟨name, [], ⟨offset, offset + (d.tag .angle name).byteSize⟩⟩

/-- The trees of a sequence of markup that was printed at an offset. -/
def placeAll (d : Delimiters) (offset : Nat) : List Markup → List Tree
  | []      => []
  | m :: ms => m.place d offset :: placeAll d (offset + (m.print d).byteSize) ms

end

variable {d : Delimiters}

@[simp] lemma piecesAll_nil : piecesAll [] = [] := by simp [piecesAll]

@[simp] lemma piecesAll_cons (m : Markup) (ms : List Markup) :
    piecesAll (m :: ms) = m.pieces ++ piecesAll ms := by simp [piecesAll]

mutual

lemma printAll_pieces (d : Delimiters) (m : Markup) :
    Piece.printAll d m.pieces = m.print d := by
  match m with
  | .text t => simp [pieces, print, Piece.print]
  | .variableTag path escaped => simp [pieces, print, Piece.print, valueSigil]
  | .partialTag name indent => simp [pieces, print, Piece.print]
  | .sectionTag path inverted body =>
    have ih := printAll_piecesAll d body
    simp [pieces, print, Piece.print, openSigil, ih]

/-- Markup is printed piece by piece. -/
lemma printAll_piecesAll (d : Delimiters) (ms : List Markup) :
    Piece.printAll d (piecesAll ms) = printAll d ms := by
  match ms with
  | [] => simp
  | m :: ms =>
    rw [piecesAll_cons, Piece.printAll_append, printAll_cons, printAll_pieces d m,
      printAll_piecesAll d ms]

end

/-! ### Printable markup has pieces that fit -/

lemma FitsPath.parse_display {path : Path} (h : FitsPath d path) :
    Path.parse path.display = .ok path := by
  apply Path.parse_display
  intro s hs
  obtain ⟨hne, hdot, hblank⟩ := h.segments s hs
  exact ⟨isSegment_iff.2 ⟨hne, hblank⟩, hdot⟩

lemma mem_joined {segments : List Text} {c : Char} (h : c ∈ Path.joined segments) :
    c = '.' ∨ ∃ s ∈ segments, c ∈ s := by
  induction segments with
  | nil => exact .inl (by simpa [Path.joined] using h)
  | cons s rest ih =>
    by_cases hrest : rest = []
    · subst hrest
      exact .inr ⟨s, by simp, h⟩
    · rw [Path.joined_cons hrest, List.mem_append, List.mem_cons] at h
      rcases h with h | rfl | h
      · exact .inr ⟨s, by simp, h⟩
      · exact .inl rfl
      · rcases ih h with rfl | ⟨s', hs', hc⟩
        · exact .inl rfl
        · exact .inr ⟨s', List.mem_cons_of_mem s hs', hc⟩

/-- A path that can be written is a name that can be. -/
lemma FitsPath.fitsTag {path : Path} (h : FitsPath d path) : Piece.FitsTag d path.display := by
  have hblank : ∀ c ∈ path.display, isBlank c = false := by
    intro c hc
    rcases mem_joined hc with rfl | ⟨s, hs, hc⟩
    · decide
    · exact (h.segments s hs).2.2 c hc
  constructor
  · intro hnil
    have hparse := h.parse_display
    simp [hnil, Path.parse] at hparse
  · intro c hc
    exact hblank c (List.mem_of_mem_head? hc)
  · intro c hc
    exact hblank c (List.mem_of_getLast? hc)
  · intro hmem
    have := hblank _ hmem
    simp [isBlank, inRanges, blankRanges] at this
  · exact h.closing

lemma valueSigil_ne (escaped : Bool) :
    valueSigil escaped ≠ .brace ∧ valueSigil escaped ≠ .equals := by
  cases escaped <;> simp [valueSigil]

lemma openSigil_ne (inverted : Bool) :
    openSigil inverted ≠ .brace ∧ openSigil inverted ≠ .equals := by
  cases inverted <;> simp [openSigil]

mutual

lemma fits_pieces {m : Markup} (h : m.Printable d) : ∀ p ∈ m.pieces, p.Fits d := by
  match m, h with
  | .text t, .text h => simpa [pieces] using Piece.Fits.text h
  | .variableTag path escaped, .variableTag _ h =>
    simpa [pieces] using Piece.Fits.tag h.fitsTag (valueSigil_ne escaped)
  | .partialTag name _, .partialTag h =>
    have hfits : (Piece.tag .angle name).Fits d := .tag h (by simp)
    simpa [pieces] using hfits
  | .sectionTag path inverted body, .sectionTag _ h hbody _ =>
    have ih := fits_piecesAll hbody
    intro p hp
    simp only [pieces, List.mem_cons, List.mem_append, List.not_mem_nil, or_false] at hp
    rcases hp with rfl | hp | rfl
    · exact .tag h.fitsTag (openSigil_ne inverted)
    · exact ih p hp
    · exact .tag h.fitsTag (by simp)

lemma fits_piecesAll {ms : List Markup} (h : ∀ m ∈ ms, m.Printable d) :
    ∀ p ∈ piecesAll ms, p.Fits d := by
  match ms with
  | [] => simp
  | m :: ms =>
    have ih := fits_pieces (h m List.mem_cons_self)
    have ihs := fits_piecesAll fun n hn => h n (List.mem_cons_of_mem m hn)
    intro p hp
    rw [piecesAll_cons, List.mem_append] at hp
    rcases hp with hp | hp
    · exact ih p hp
    · exact ihs p hp

end

/-- Unless markup is text, its first piece and its last are tags. -/
lemma isTag_of_isText_eq_false {m : Markup} (h : m.isText = false) :
    (∀ p ∈ m.pieces.head?, p.isTag) ∧ ∀ p ∈ m.pieces.getLast?, p.isTag := by
  cases m with
  | text t => simp [isText] at h
  | sectionTag path inverted body =>
    rw [pieces, ← List.cons_append, List.getLast?_concat]
    simp [Piece.isTag]
  | variableTag path escaped => simp [pieces, Piece.isTag]
  | partialTag name indent => simp [pieces, Piece.isTag]

lemma pieces_ne_nil (m : Markup) : m.pieces ≠ [] := by cases m <;> simp [pieces]

mutual

lemma isChain_pieces {m : Markup} (h : m.Printable d) : m.pieces.IsChain Piece.Apart := by
  match m, h with
  | .text t, _ => simp [pieces]
  | .variableTag path escaped, _ => simp [pieces]
  | .partialTag name _, _ => simp [pieces]
  | .sectionTag path inverted body, .sectionTag _ _ hbody hapart =>
    have ih := isChain_piecesAll hbody hapart
    rw [pieces, List.isChain_cons, List.isChain_append]
    refine ⟨fun _ _ => .inl rfl, ih, by simp, ?_⟩
    rintro p - q hq
    simp only [List.head?_cons, Option.mem_def, Option.some.injEq] at hq
    exact hq ▸ .inr rfl

/-- Neighbours that are apart have pieces that are. -/
lemma isChain_piecesAll {ms : List Markup} (h : ∀ m ∈ ms, m.Printable d)
    (hapart : ms.IsChain Apart) : (piecesAll ms).IsChain Piece.Apart := by
  match ms with
  | [] => simp
  | m :: ms =>
    have ih := isChain_pieces (h m List.mem_cons_self)
    have ihs := isChain_piecesAll (fun n hn => h n (List.mem_cons_of_mem m hn)) hapart.tail
    rw [piecesAll_cons, List.isChain_append]
    refine ⟨ih, ihs, ?_⟩
    intro p hp q hq
    cases ms with
    | nil => simp at hq
    | cons n ns =>
      rw [piecesAll_cons, List.head?_append_of_ne_nil _ (pieces_ne_nil n)] at hq
      rcases (List.isChain_cons_cons.1 hapart).1 with hm | hn
      · exact .inl ((isTag_of_isText_eq_false hm).2 p hp)
      · exact .inr ((isTag_of_isText_eq_false hn).1 q hq)

end

end Markup

/-! ### Growing the trees -/

/-- Adds trees to the innermost open section, one after the other. -/
def Grove.pushAll (g : Grove) (ts : List Tree) : Grove := ts.foldl push g

lemma Grove.pushAll_open (g : Grove) (s : OpenTree) (outer : List OpenTree) (ts : List Tree) :
    pushAll { g with pending := s :: outer } ts =
      { g with pending := { s with body := ts.reverse ++ s.body } :: outer } := by
  induction ts generalizing s with
  | nil => rfl
  | cons t ts ih =>
    rw [pushAll, List.foldl_cons]
    apply (ih { s with body := t :: s.body }).trans
    simp

lemma Grove.pushAll_root (root ts : List Tree) :
    pushAll ⟨root, []⟩ ts = ⟨ts.reverse ++ root, []⟩ := by
  induction ts generalizing root with
  | nil => rfl
  | cons t ts ih =>
    rw [pushAll, List.foldl_cons]
    apply (ih (t :: root)).trans
    simp

namespace Markup

variable {d : Delimiters} {source before after : Text} {offset : Nat}

/-- The content of a tag is the name that was written. -/
lemma name_rawTag {sigil : Sigil} {name : Text}
    (hsource : source = before ++ d.tag sigil name ++ after) (hoffset : offset = before.byteSize) :
    (Piece.rawTag d offset sigil name).name source = name := by
  apply Span.slice_of_eq (a := before ++ d.opening ++ sigil.text ++ [' '])
    (c := ' ' :: sigil.closing d ++ after)
  · simp [hsource, Delimiters.tag]
  · simp only [Piece.rawTag, hoffset, Text.byteSize_append]
    rfl
  · simp only [Piece.rawTag, hoffset, Text.byteSize_append]
    rfl

lemma means_valueSigil {path : Path} (h : FitsPath d path) (escaped : Bool) :
    Tag.Means path.display (valueSigil escaped) (.variableTag path escaped) := by
  cases escaped with
  | false => exact .ampersand h.parse_display
  | true => exact .absent h.parse_display

lemma means_openSigil {path : Path} (h : FitsPath d path) (inverted : Bool) :
    Tag.Means path.display (openSigil inverted) (.openTag path inverted) := by
  cases inverted with
  | false => exact .hash h.parse_display
  | true => exact .caret h.parse_display

/-- A single tag is added as its content says. -/
lemma foldlM_rawTag {sigil : Sigil} {name : Text} {g g' : Grove} {tag : Tag}
    (hsource : source = before ++ d.tag sigil name ++ after) (hoffset : offset = before.byteSize)
    (htag : Tag.Means name sigil tag)
    (hadd : g.addTag tag ⟨offset, offset + (d.tag sigil name).byteSize⟩ d [] = .ok g') :
    ((Piece.tokens d offset [.tag sigil name]).map Piece.fragmentOf).foldlM (Grove.add source) g =
      .ok g' := by
  show (Grove.add source g (.tag (Piece.rawTag d offset sigil name) [])).bind _ = _
  have hraw : Tag.ofRaw (Piece.rawTag d offset sigil name) source = .ok tag := by
    rw [Tag.ofRaw_eq_ok_iff, name_rawTag hsource hoffset]
    exact htag
  rw [Grove.add_tag, hraw]
  show (g.addTag tag ⟨offset, offset + (d.tag sigil name).byteSize⟩ d []).bind _ = _
  rw [hadd]
  rfl

mutual

/-- The pieces of printed markup grow its tree. -/
lemma foldlM_pieces {before after : Text} {offset : Nat} {m : Markup} (h : m.Printable d)
    (hsource : source = before ++ m.print d ++ after) (hoffset : offset = before.byteSize)
    (g : Grove) :
    ((Piece.tokens d offset m.pieces).map Piece.fragmentOf).foldlM (Grove.add source) g =
      .ok (g.push (m.place d offset)) := by
  match m, h with
  | .text t, _ =>
    rw [place]
    rfl
  | .variableTag path escaped, .variableTag _ h =>
    rw [print] at hsource
    rw [pieces, place]
    exact foldlM_rawTag hsource hoffset (means_valueSigil h escaped) rfl
  | .partialTag name _, .partialTag h =>
    rw [print] at hsource
    rw [pieces, place]
    exact foldlM_rawTag hsource hoffset (.angle h.ne_nil) rfl
  | .sectionTag path inverted body, .sectionTag _ h hbody _ =>
    let opening := d.tag (openSigil inverted) path.display
    let closing := d.tag .slash path.display
    let start := offset + opening.byteSize
    let stop := start + (printAll d body).byteSize
    have hsize : (Piece.printAll d (piecesAll body)).byteSize = (printAll d body).byteSize := by
      rw [printAll_piecesAll]
    have hopening : source = before ++ opening ++ (printAll d body ++ closing ++ after) := by
      rw [hsource, print]
      simp only [opening, closing, openSigil, List.append_assoc]
    have hbodies : source = (before ++ opening) ++ printAll d body ++ (closing ++ after) := by
      rw [hopening]
      simp only [List.append_assoc]
    have hclosing : source = (before ++ opening ++ printAll d body) ++ closing ++ after := by
      rw [hopening]
      simp only [List.append_assoc]
    have hstart : start = (before ++ opening).byteSize := by
      rw [Text.byteSize_append, ← hoffset]
    have hstop : stop = (before ++ opening ++ printAll d body).byteSize := by
      rw [Text.byteSize_append, ← hstart]
    -- the section is opened, its body grows inside, and it is closed
    let opened : Grove :=
      { g with pending := ⟨path, inverted, ⟨offset, start⟩, d, []⟩ :: g.pending }
    let filled : Grove := { g with pending :=
      ⟨path, inverted, ⟨offset, start⟩, d, (placeAll d start body).reverse⟩ :: g.pending }
    have hadd : g.addTag (.openTag path inverted) ⟨offset, offset + opening.byteSize⟩ d [] =
        .ok opened := rfl
    have hopen := foldlM_rawTag hopening hoffset (means_openSigil h inverted) hadd
    have hfill := foldlM_piecesAll hbody hbodies hstart opened
    rw [Grove.pushAll_open, List.append_nil] at hfill
    have hclose : filled.addTag (.closeTag path) ⟨stop, stop + closing.byteSize⟩ d [] =
        .ok (g.push ((sectionTag path inverted body).place d offset)) := by
      rw [Grove.addTag, Grove.close, place]
      simp only [filled, if_true, List.reverse_reverse]
      rfl
    have hclose := foldlM_rawTag hclosing hstop (.slash h.parse_display) hclose
    have hprint : Piece.printAll d [.tag (openSigil inverted) path.display] = opening := by
      simp [Piece.print, opening]
    rw [pieces, ← List.singleton_append, Piece.tokens_append, Piece.tokens_append, hprint, hsize,
      List.map_append, List.map_append, List.foldlM_append, hopen]
    show (List.foldlM _ opened _) = _
    rw [List.foldlM_append, hfill]
    exact hclose

lemma foldlM_piecesAll {before after : Text} {offset : Nat} {ms : List Markup}
    (h : ∀ m ∈ ms, m.Printable d) (hsource : source = before ++ printAll d ms ++ after)
    (hoffset : offset = before.byteSize) (g : Grove) :
    ((Piece.tokens d offset (piecesAll ms)).map Piece.fragmentOf).foldlM (Grove.add source) g =
      .ok (g.pushAll (placeAll d offset ms)) := by
  match ms with
  | [] =>
    rw [placeAll]
    rfl
  | m :: ms =>
    have hfirst : source = before ++ m.print d ++ (printAll d ms ++ after) := by
      simp only [hsource, printAll_cons, List.append_assoc]
    have hlater : source = (before ++ m.print d) ++ printAll d ms ++ after := by
      simp only [hsource, printAll_cons, List.append_assoc]
    have hstart : offset + (m.print d).byteSize = (before ++ m.print d).byteSize := by
      rw [Text.byteSize_append, hoffset]
    have ih := foldlM_pieces (h m List.mem_cons_self) hfirst hoffset g
    have ihs := foldlM_piecesAll (fun n hn => h n (List.mem_cons_of_mem m hn)) hlater hstart
      (g.push (m.place d offset))
    rw [piecesAll_cons, Piece.tokens_append, printAll_pieces, List.map_append,
      List.foldlM_append, ih, placeAll]
    exact ihs

end

/-! ### Reading the markup back -/

mutual

lemma markup_place {before after : Text} {offset : Nat} {m : Markup} (h : m.Printable d)
    (hsource : source = before ++ m.print d ++ after) (hoffset : offset = before.byteSize) :
    (m.place d offset).markup source = m := by
  match m, h with
  | .text t, _ =>
    rw [print] at hsource
    rw [place, Tree.markup, Span.slice_of_eq hsource hoffset (by rw [hoffset])]
  | .variableTag path escaped, _ => rw [place, Tree.markup]
  | .partialTag name _, .partialTag _ => rw [place, Tree.markup]
  | .sectionTag path inverted body, .sectionTag _ _ hbody _ =>
    let opening := d.tag (openSigil inverted) path.display
    have hbodies : source =
        (before ++ opening) ++ printAll d body ++ (d.tag .slash path.display ++ after) := by
      rw [hsource, print]
      simp only [opening, openSigil, List.append_assoc]
    have hstart : offset + opening.byteSize = (before ++ opening).byteSize := by
      rw [Text.byteSize_append, hoffset]
    rw [place, Tree.markup, markupAll_placeAll hbody hbodies hstart]

/-- The trees of printed markup stand for this markup. -/
lemma markupAll_placeAll {before after : Text} {offset : Nat} {ms : List Markup}
    (h : ∀ m ∈ ms, m.Printable d) (hsource : source = before ++ printAll d ms ++ after)
    (hoffset : offset = before.byteSize) : Tree.markupAll source (placeAll d offset ms) = ms := by
  match ms with
  | [] => rw [placeAll, Tree.markupAll]
  | m :: ms =>
    have hfirst : source = before ++ m.print d ++ (printAll d ms ++ after) := by
      simp only [hsource, printAll_cons, List.append_assoc]
    have hlater : source = (before ++ m.print d) ++ printAll d ms ++ after := by
      simp only [hsource, printAll_cons, List.append_assoc]
    have hstart : offset + (m.print d).byteSize = (before ++ m.print d).byteSize := by
      rw [Text.byteSize_append, hoffset]
    rw [placeAll, Tree.markupAll, markup_place (h m List.mem_cons_self) hfirst hoffset,
      markupAll_placeAll (fun n hn => h n (List.mem_cons_of_mem m hn)) hlater hstart]

end

/-! ### Templates -/

/-- The trees of a source that was printed. -/
lemma forest_printAll {ms : List Markup} (h : ∀ m ∈ ms, m.Printable d) (hapart : ms.IsChain Apart)
    (hgrounded : Piece.Grounded (piecesAll ms)) (hsize : (printAll d ms).byteSize ≤ maxOffset) :
    Template.forest (printAll d ms) d = .ok (placeAll d 0 ms) := by
  have hfits := fits_piecesAll h
  have hrounds := Piece.rounds_printAll (piecesAll ms) hfits (isChain_piecesAll h hapart) 0
  rw [printAll_piecesAll] at hrounds
  have hscan : scan (printAll d ms) d = ⟨Piece.tokens d 0 (piecesAll ms), none, d⟩ :=
    Scanner.run_eq_of_rounds hrounds
  have hline : ∀ raw, .tag raw ∈ Piece.tokens d 0 (piecesAll ms) →
      raw.line? (printAll d ms) = none := by
    intro raw hraw
    rw [← printAll_piecesAll]
    exact Piece.line?_eq_none hfits hgrounded hraw
  have hsource : printAll d ms = [] ++ printAll d ms ++ [] := by simp
  have hfold := foldlM_piecesAll h hsource rfl .empty
  rw [Template.forest]
  rw [if_neg (Nat.not_lt.2 hsize)]
  simp only [hscan, Piece.fragments_tokens hfits hline (Nat.le_refl 0)]
  rw [Text.byteSize_nil] at hfold
  rw [hfold]
  show (Grove.pushAll ⟨[], []⟩ _).finish = _
  rw [Grove.pushAll_root]
  simp [Grove.finish]

/-- Compiling undoes printing: markup that can be printed is read back, with its tags where they
were written, if the printed text is not too large. -/
theorem compile_printAll {ms : List Markup} (h : ∀ m ∈ ms, m.Printable d)
    (hapart : ms.IsChain Apart) (hgrounded : Piece.Grounded (piecesAll ms))
    (hsize : (printAll d ms).byteSize ≤ maxOffset) :
    ∃ t, Template.compile (printAll d ms) d = .ok t ∧ t.trees = placeAll d 0 ms ∧
      t.markup = ms := by
  let t := Template.ofTrees (printAll d ms) (placeAll d 0 ms)
  have htrees : t.trees = placeAll d 0 ms := Template.trees_ofTrees _ _
  have hsource : t.source = [] ++ printAll d ms ++ [] := by simp [t, Template.ofTrees]
  refine ⟨t, ?_, htrees, ?_⟩
  · rw [Template.compile_eq_forest, forest_printAll h hapart hgrounded hsize]
    rfl
  · rw [Template.markup, htrees]
    exact markupAll_placeAll h hsource rfl

/-- A text, a section with a value in it, and a partial, with the standard delimiters. -/
theorem compile_printAll_section :
    ∃ t, Template.compile (printAll .standard
        [.text ['a'], .sectionTag ⟨[['x']]⟩ true [.variableTag ⟨[]⟩ false],
          .partialTag ['p'] []]) .standard = .ok t ∧
      t.markup = [.text ['a'], .sectionTag ⟨[['x']]⟩ true [.variableTag ⟨[]⟩ false],
        .partialTag ['p'] []] := by
  have htext : Printable .standard (.text ['a']) :=
    .text ⟨by simp, by simp, by simp [Delimiters.standard]⟩
  have hvalue : Printable .standard (.variableTag ⟨[]⟩ false) :=
    .variableTag _ ⟨by decide, by decide⟩
  have hsection : Printable .standard (.sectionTag ⟨[['x']]⟩ true [.variableTag ⟨[]⟩ false]) :=
    .sectionTag _ ⟨by simp [isBlank, inRanges, blankRanges], by decide⟩ (by simpa using hvalue)
      (by simp)
  have hpartial : Printable .standard (.partialTag ['p'] []) :=
    .partialTag ⟨by simp, by simp [isBlank, inRanges, blankRanges],
      by simp [isBlank, inRanges, blankRanges], by simp, by decide⟩
  have hall : ∀ m ∈ [Markup.text ['a'], .sectionTag ⟨[['x']]⟩ true [.variableTag ⟨[]⟩ false],
      .partialTag ['p'] []], Printable .standard m := by
    intro m hm
    simp only [List.mem_cons, List.not_mem_nil, or_false] at hm
    rcases hm with rfl | rfl | rfl
    · exact htext
    · exact hsection
    · exact hpartial
  obtain ⟨t, hcompile, -, hmarkup⟩ := compile_printAll hall (by simp [Apart, isText])
    (.inl (by decide +kernel)) (by decide +kernel)
  exact ⟨t, hcompile, hmarkup⟩

end Markup

end Mustache
