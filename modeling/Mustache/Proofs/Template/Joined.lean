import Mustache.Proofs.Template.Carried

/-!
# Templates made of whole lines

A source of whole lines that leaves the delimiters as they were is compiled on its own: with another
source behind it, it gives its own trees and then those of the other. Literal text that meets at the
seam becomes one tree. It is trimmed in front by the first source and behind by the second, in both
cases as alone, for what goes with a tag of the first does not reach over the seam.
-/

namespace Mustache

/-! ### Trees one after the other -/

/-- Two sequences of trees, one after the other. If the first ends in text and the second starts
with text, and their spans are adjacent, the two texts may have become one. -/
inductive Tree.Joined : List Tree → List Tree → List Tree → Prop
  | append (ts us : List Tree) : Joined ts us (ts ++ us)
  | fused (ts us : List Tree) (start middle stop : Nat) :
      Joined (ts ++ [.text ⟨start, middle⟩]) (.text ⟨middle, stop⟩ :: us)
        (ts ++ .text ⟨start, stop⟩ :: us)

/-- The tree of the text between two offsets, if there is any. -/
def textTree (start stop : Nat) : List Tree :=
  if start < stop then [.text ⟨start, stop⟩] else []

lemma textTree_of_le {start stop : Nat} (h : stop ≤ start) : textTree start stop = [] :=
  if_neg (Nat.not_lt.2 h)

lemma textTree_of_lt {start stop : Nat} (h : start < stop) :
    textTree start stop = [.text ⟨start, stop⟩] := if_pos h

@[simp] lemma reverse_textTree (start stop : Nat) :
    (textTree start stop).reverse = textTree start stop := by
  rw [textTree]
  split <;> rfl

lemma shiftAll_textTree (n start stop : Nat) :
    Tree.shiftAll n (textTree start stop) = textTree (start + n) (stop + n) := by
  rcases Nat.lt_or_ge start stop with h | h
  · rw [textTree_of_lt h, textTree_of_lt (Nat.add_lt_add_right h n)]
    simp [Tree.shiftAll, Tree.shift, Span.shift]
  · rw [textTree_of_le h, textTree_of_le (Nat.add_le_add_right h n), Tree.shiftAll]

namespace Tree

lemma shiftAll_append (n : Nat) (ts us : List Tree) :
    shiftAll n (ts ++ us) = shiftAll n ts ++ shiftAll n us := by
  simp only [shiftAll_eq_map, List.map_append]

lemma shiftAll_reverse (n : Nat) (ts : List Tree) :
    shiftAll n ts.reverse = (shiftAll n ts).reverse := by
  simp only [shiftAll_eq_map, List.map_reverse]

/-- Text that is cut in two is put together again. -/
lemma joined_textTree {start middle stop : Nat} (hstart : start ≤ middle)
    (hstop : middle ≤ stop) (ts us : List Tree) :
    Joined (ts ++ textTree start middle) (textTree middle stop ++ us)
      (ts ++ (textTree start stop ++ us)) := by
  rcases Nat.eq_or_lt_of_le hstart with rfl | hlt
  · rw [textTree_of_le (Nat.le_refl start), List.append_nil]
    exact .append ts _
  rcases Nat.eq_or_lt_of_le hstop with rfl | hlt'
  · rw [textTree_of_le (Nat.le_refl middle), List.nil_append, ← List.append_assoc]
    exact .append _ us
  · rw [textTree_of_lt hlt, textTree_of_lt hlt', textTree_of_lt (hlt.trans hlt')]
    exact .fused ts us start middle stop

end Tree

/-! ### Fragments at a seam -/

/-- The fragments of the two sources are those of the whole, but for the text at the seam: `start`
is where it starts in the first source, and `stop` where it stops in the second. -/
lemma Seam.exists_fragments {first second : Text} {d : Delimiters} (seam : Seam first second d)
    (hlines : first.WholeLines) :
    ∃ fs bs start stop, start ≤ first.byteSize ∧
      fragments first 0 (scan first d).tokens = fs ++ textFragment start first.byteSize ∧
      fragments second 0 (scan second d).tokens = textFragment 0 stop ++ bs ∧
      fragments (first ++ second) 0 (scan (first ++ second) d).tokens =
        fs ++ (textFragment start (stop + first.byteSize) ++
          bs.map (Fragment.shift first.byteSize)) := by
  have hfront : ∀ raw, .tag raw ∈ seam.front → .tag raw ∈ (scan first d).tokens :=
    fun raw hraw => seam.tokens_first ▸ List.mem_append_left _ hraw
  have hback : ∀ raw, .tag raw ∈ seam.back →
      raw.SameIn second (first ++ second) first.byteSize := fun raw hraw =>
    Scanner.sameIn_shift_of_mem_scan (seam.tokens_second ▸ List.mem_append_right _ hraw) hlines
  obtain ⟨fs, k, hk, hfirst, hwhole⟩ := seam.passes.exists_fragments_append
    (fun raw hraw => Scanner.sameIn_append_of_mem_scan (hfront raw hraw) hlines second)
    (fun raw hraw _ => Scanner.line?_stop_le_of_mem_scan (hfront raw hraw)) (Nat.zero_le _)
  -- the first tag of the second source stands behind all of the text at the seam
  have hsize := seam.size_first
  have hoffset : seam.text.byteSize + first.byteSize =
      seam.last.offset + (seam.last.rest ++ seam.text).byteSize := by
    rw [Text.byteSize_append]
    omega
  have hseam := seam.fromTag_back.shift first.byteSize
  rw [hoffset] at hseam
  have hskip : max first.byteSize k = 0 + first.byteSize := by omega
  refine ⟨fs, fragments second 0 seam.back, max seam.last.offset k,
    textStop second seam.text.byteSize seam.back, by omega, ?_, ?_, ?_⟩
  · rw [seam.tokens_first, hfirst, fragments_textToken, ← hsize]
  · have hfromTag : FromTag (0 + seam.text.byteSize) seam.back := by
      rw [Nat.zero_add]
      exact seam.fromTag_back
    rw [seam.tokens_second, hfromTag.fragments_append, Nat.max_self, Nat.zero_add]
  · rw [seam.scan_append, hwhole, hseam.fragments_append, ← hoffset, textStop_shift hback,
      fragments_shift hback hskip]

/-! ### Groves at a seam -/

namespace Grove

variable {g : Grove} {source : Text} {ts : List Tree} {start stop : Nat}

lemma shift_empty (n : Nat) : empty.shift n = empty := by
  simp [shift, empty, Tree.shiftAll]

lemma shift_behind_empty (n : Nat) (older : List Tree) :
    (empty.behind older).shift n = empty.behind (Tree.shiftAll n older) := by
  simp [shift, behind, empty]

lemma pushText_behind_empty (older : List Tree) (start stop : Nat) :
    (empty.behind older).pushText start stop = empty.behind (textTree start stop ++ older) := by
  rcases Nat.lt_or_ge start stop with h | h
  · rw [pushText, if_pos h, textTree_of_lt h]
    rfl
  · rw [pushText_of_le h, textTree_of_le h]
    rfl

/-- What is grown from fragments with text behind them. -/
lemma exists_of_foldlM_append_text {fs : List Fragment}
    (h : (fs ++ textFragment start stop).foldlM (add source) empty = .ok g)
    (hfinish : g.finish = .ok ts) :
    ∃ older, fs.foldlM (add source) empty = .ok (empty.behind older) ∧
      ts = older.reverse ++ textTree start stop := by
  rw [List.foldlM_append] at h
  cases hfs : fs.foldlM (add source) empty with
  | error e => simp [hfs, bind, Except.bind] at h
  | ok g' =>
    rw [hfs] at h
    obtain rfl : g'.pushText start stop = g :=
      Except.ok.inj ((foldlM_textFragment start stop).symm.trans h)
    obtain ⟨root, pending⟩ := g'
    cases pending with
    | cons s outer =>
      rw [pushText] at hfinish
      split at hfinish <;> simp [push, finish] at hfinish
    | nil =>
      have hempty : (⟨root, []⟩ : Grove) = empty.behind root := rfl
      rw [hempty, pushText_behind_empty] at hfinish
      refine ⟨root, rfl, (Except.ok.inj hfinish).symm.trans ?_⟩
      simp [behind, empty]

/-- What is grown from fragments with text in front of them. -/
lemma exists_of_foldlM_text_append {fs : List Fragment}
    (h : (textFragment start stop ++ fs).foldlM (add source) empty = .ok g)
    (hfinish : g.finish = .ok ts) :
    ∃ newer, fs.foldlM (add source) empty = .ok (empty.behind newer) ∧
      ts = textTree start stop ++ newer.reverse := by
  have hempty : empty.pushText start stop = empty.behind (textTree start stop) := by
    have hbehind := pushText_behind_empty [] start stop
    rwa [List.append_nil] at hbehind
  rw [List.foldlM_append, foldlM_textFragment] at h
  have h : fs.foldlM (add source) (empty.pushText start stop) = .ok g := h
  rw [hempty, foldlM_behind] at h
  cases hfs : fs.foldlM (add source) empty with
  | error e => simp [hfs, Except.map] at h
  | ok g' =>
    rw [hfs] at h
    obtain rfl : g'.behind (textTree start stop) = g := Except.ok.inj h
    obtain ⟨root, pending⟩ := g'
    cases pending with
    | cons s outer => simp [behind, finish] at hfinish
    | nil =>
      refine ⟨root, rfl, (Except.ok.inj hfinish).symm.trans ?_⟩
      simp [behind]

/-- What is grown from fragments with text between them. -/
lemma foldlM_append_text_append {fs bs : List Fragment} {older newer : List Tree}
    (hfs : fs.foldlM (add source) empty = .ok (empty.behind older))
    (hbs : bs.foldlM (add source) empty = .ok (empty.behind newer)) (start stop : Nat) :
    (fs ++ (textFragment start stop ++ bs)).foldlM (add source) empty =
      .ok (empty.behind (newer ++ (textTree start stop ++ older))) := by
  rw [List.foldlM_append, hfs]
  show (textFragment start stop ++ bs).foldlM (add source) (empty.behind older) = _
  rw [List.foldlM_append, foldlM_textFragment, pushText_behind_empty]
  show bs.foldlM (add source) (empty.behind _) = _
  rw [foldlM_behind, hbs]
  rfl

end Grove

namespace Template

variable {first second : Text} {d : Delimiters} {t₁ t₂ : Template}

/-- The trees of the two sources are grown one after the other, with the text at the seam. -/
lemma exists_forest_append (hsize : (first ++ second).byteSize ≤ maxOffset)
    (hlines : first.WholeLines) (h₁ : compile first d = .ok t₁) (h₂ : compile second d = .ok t₂)
    (hd : (scan first d).delimiters = d) :
    Nonempty (Seam first second d) ∧ ∃ trees, forest (first ++ second) d = .ok trees ∧
      Tree.Joined t₁.trees (Tree.shiftAll first.byteSize t₂.trees) trees := by
  obtain ⟨-, hfirst, g₁, hfold₁, hfinish₁⟩ := exists_grove_of_forest (eq_ofTrees_of_compile h₁).1
  obtain ⟨-, hsecond, g₂, hfold₂, hfinish₂⟩ := exists_grove_of_forest (eq_ofTrees_of_compile h₂).1
  obtain ⟨seam⟩ := nonempty_seam hlines hfirst hsecond hd
  obtain ⟨fs, bs, start, stop, hstart, hfragments₁, hfragments₂, hfragments⟩ :=
    seam.exists_fragments hlines
  have hsame₁ : ∀ raw indent, .tag raw indent ∈ fs → raw.SameIn first (first ++ second) 0 := by
    intro raw indent hmem
    have hmem : .tag raw indent ∈ fragments first 0 (scan first d).tokens := by
      rw [hfragments₁]
      exact List.mem_append_left _ hmem
    exact Scanner.sameIn_append_of_mem_scan (mem_tokens_of_mem_fragments hmem).1 hlines second
  have hsame₂ : ∀ raw indent, .tag raw indent ∈ bs →
      raw.SameIn second (first ++ second) first.byteSize := by
    intro raw indent hmem
    have hmem : .tag raw indent ∈ fragments second 0 (scan second d).tokens := by
      rw [hfragments₂]
      exact List.mem_append_right _ hmem
    exact Scanner.sameIn_shift_of_mem_scan (mem_tokens_of_mem_fragments hmem).1 hlines
  rw [hfragments₁] at hfold₁
  rw [hfragments₂] at hfold₂
  obtain ⟨older, holder, htrees₁⟩ := Grove.exists_of_foldlM_append_text hfold₁ hfinish₁
  obtain ⟨newer, hnewer, htrees₂⟩ := Grove.exists_of_foldlM_text_append hfold₂ hfinish₂
  have holder' := Grove.foldlM_shift hsame₁ holder
  have hnewer' := Grove.foldlM_shift hsame₂ hnewer
  rw [Fragment.map_shift_zero, Grove.shift_zero, Grove.shift_zero] at holder'
  rw [Grove.shift_behind_empty, Grove.shift_empty] at hnewer'
  let n := first.byteSize
  have hfold := Grove.foldlM_append_text_append holder' hnewer' start (stop + n)
  rw [← hfragments] at hfold
  have hfailure : (scan (first ++ second) d).failure = none := by rw [seam.scan_append]
  refine ⟨⟨seam⟩,
    older.reverse ++ (textTree start (stop + n) ++ (Tree.shiftAll n newer).reverse), ?_, ?_⟩
  · rw [forest]
    rw [if_neg (Nat.not_lt.2 hsize)]
    simp only [hfold, hfailure]
    simp [Grove.finish, Grove.behind, Grove.empty, n]
  · have hshift : Tree.shiftAll n t₂.trees =
        textTree n (stop + n) ++ (Tree.shiftAll n newer).reverse := by
      rw [htrees₂, Tree.shiftAll_append, shiftAll_textTree, Nat.zero_add, Tree.shiftAll_reverse]
    rw [hshift, htrees₁]
    exact Tree.joined_textTree hstart (Nat.le_add_left n stop) _ _

/-- A source of whole lines that leaves the delimiters as they were, with another source behind it,
gives a template of its own trees and those of the other, moved by its length; only text at the seam
may have become one. The tags are those of the two, and each stands alone on its line just if it
does without the other source. -/
theorem compile_append_lines (hsize : (first ++ second).byteSize ≤ maxOffset)
    (hlines : first = [] ∨ first.endsLine) (h₁ : compile first d = .ok t₁)
    (h₂ : compile second d = .ok t₂) (hd : (scan first d).delimiters = d) :
    (∃ t, compile (first ++ second) d = .ok t ∧
      Tree.Joined t₁.trees (Tree.shiftAll first.byteSize t₂.trees) t.trees) ∧
    tagsOf (scan (first ++ second) d).tokens =
      tagsOf (scan first d).tokens ++
        (tagsOf (scan second d).tokens).map (RawTag.shift · first.byteSize) ∧
    (∀ raw ∈ tagsOf (scan first d).tokens,
      standaloneLine? (first ++ second) raw.span = standaloneLine? first raw.span) ∧
    ∀ raw ∈ tagsOf (scan second d).tokens,
      standaloneLine? (first ++ second) (raw.span.shift first.byteSize) =
        (standaloneLine? second raw.span).map (StandaloneLine.shift first.byteSize) := by
  obtain ⟨⟨seam⟩, trees, hforest, hjoined⟩ := exists_forest_append hsize hlines h₁ h₂ hd
  refine ⟨⟨ofTrees (first ++ second) trees, ?_, ?_⟩, seam.tagsOf_scan, fun raw hraw => ?_,
    fun raw hraw => ?_⟩
  · rw [compile_eq_forest, hforest]
    rfl
  · rwa [trees_ofTrees]
  · obtain ⟨_, ⟨parts⟩⟩ := Scanner.exists_tagParts_of_mem_scan (mem_tagsOf.1 hraw)
    exact standaloneLine?_append parts.source_eq parts.start_span parts.stop_eq
      (RawTag.newline_mem_after hlines parts) second
  · obtain ⟨_, ⟨parts⟩⟩ := Scanner.exists_tagParts_of_mem_scan (mem_tagsOf.1 hraw)
    exact standaloneLine?_shift parts.source_eq parts.start_span parts.stop_eq hlines

/-- Lines that change the delimiters and change them back, in front of lines with a partial: the
text at the seam becomes one, and the partial keeps its indentation. -/
theorem compile_append_lines_fused :
    ∃ first second t₁ t₂ t, first = "{{#s}}\nx{{/s}}\n{{=| |=}}\n|={{ }}=|\nb\n".toList ∧
      second = "c\n  {{>p}}\n".toList ∧ compile first .standard = .ok t₁ ∧
      compile second .standard = .ok t₂ ∧ (scan first .standard).delimiters = .standard ∧
      compile (first ++ second) .standard = .ok t ∧ .text ⟨35, 39⟩ ∈ t.nodes t.root ∧
      .partialTag ⟨['p'], [' ', ' '], ⟨41, 47⟩⟩ ∈ t.nodes t.root ∧
      Tree.Joined t₁.trees (Tree.shiftAll 37 t₂.trees) t.trees := by
  let first : Text := "{{#s}}\nx{{/s}}\n{{=| |=}}\n|={{ }}=|\nb\n".toList
  let second : Text := "c\n  {{>p}}\n".toList
  have hfirst : (compile first .standard).isOk = true := by decide +kernel
  have hsecond : (compile second .standard).isOk = true := by decide +kernel
  have hwhole : ((compile (first ++ second) .standard).map fun t =>
      decide (.text ⟨35, 39⟩ ∈ t.nodes t.root ∧
        .partialTag ⟨['p'], [' ', ' '], ⟨41, 47⟩⟩ ∈ t.nodes t.root)) = .ok true := by
    decide +kernel
  have hd : (scan first .standard).delimiters = .standard := by decide +kernel
  obtain ⟨t₁, h₁⟩ := exists_compile_of_isOk hfirst
  obtain ⟨t₂, h₂⟩ := exists_compile_of_isOk hsecond
  obtain ⟨⟨t, ht, hjoined⟩, -⟩ :=
    compile_append_lines (by decide +kernel) (.inr (by decide +kernel)) h₁ h₂ hd
  simp only [ht, Except.map, Except.ok.injEq, decide_eq_true_eq] at hwhole
  exact ⟨first, second, t₁, t₂, t, rfl, rfl, h₁, h₂, hd, ht, hwhole.1, hwhole.2, hjoined⟩

end Template

end Mustache
