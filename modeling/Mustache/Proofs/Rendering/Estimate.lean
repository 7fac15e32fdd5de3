import Mathlib.Algebra.Ring.Nat
import Mustache.Proofs.Rendering.Steps
import Mustache.Proofs.Template.StoredLeaves
import Mustache.Rendering.Estimate

/-!
# What is estimated

The estimate is the sum of the sizes of all literal text and of the hints for the tags outside every
section, up to the limit. That the sums stop at the largest word on the way, at every level again,
makes no difference to this: a sum that has stopped is beyond the limit anyway.
-/

namespace Mustache

/-! ### Sums that stop -/

/-- If each step adds a part to a sum and stops at the largest size, so do all steps together: the
order in which parts are cut off makes no difference. -/
lemma foldl_eq_min {α : Type} {step : Nat → α → Nat} {size : α → Nat} {xs : List α}
    (h : ∀ sum x, step (min sum maxSize) x = min (sum + size x) maxSize) {first sum : Nat}
    (hfirst : first = min sum maxSize) :
    xs.foldl step first = min (sum + (xs.map size).sum) maxSize := by
  induction xs generalizing first sum with
  | nil => exact hfirst
  | cons x xs ih =>
    have hstep := h sum x
    rw [← hfirst] at hstep
    rw [List.foldl_cons, ih hstep, List.map_cons, List.sum_cons, Nat.add_assoc]

lemma addSize_min (a b : Nat) : addSize (min a maxSize) (min b maxSize) = min (a + b) maxSize := by
  unfold addSize
  omega

/-- A part that is not cut off before it is added is cut off with the sum. -/
lemma addSize_min_left (a b : Nat) : addSize (min a maxSize) b = min (a + b) maxSize := by
  unfold addSize
  omega

/-! ### Literal text -/

namespace Node

/-- The span of a node that is literal text. -/
def text? : Node → Option Span
  | .text span => some span
  | _          => none

/-- The path of a tag that is replaced by a value. -/
def path? : Node → Option Path
  | .variableTag tag => some tag.path
  | _                => none

lemma filterMap_text?_eq (nodes : List Node) :
    nodes.filterMap text? = (nodes.filterMap leaf?).flatMap Tree.texts := by
  induction nodes with
  | nil => rfl
  | cons node nodes ih =>
    rw [List.filterMap_cons, List.filterMap_cons, ih]
    cases node <;> simp [text?, leaf?, Tree.texts]

end Node

/-- The number of bytes that the literal text in trees covers. -/
def Tree.textLength (ts : List Tree) : Nat := ((textsAll ts).map Span.length).sum

lemma Tree.textLength_cons (t : Tree) (ts : List Tree) :
    textLength (t :: ts) = textLength [t] + textLength ts := by
  simp [textLength]

lemma Tree.textLength_eq_sum (ts : List Tree) :
    textLength ts = (ts.map fun t => textLength [t]).sum := by
  induction ts with
  | nil => rfl
  | cons t ts ih => rw [textLength_cons, ih, List.map_cons, List.sum_cons]

/-- A span that lies in a source covers as many bytes as its text has. -/
lemma Span.LiesIn.byteSize_slice {span : Span} {source : Text} (h : span.LiesIn source) :
    (span.slice source).byteSize = span.length ∧ span.stop ≤ source.byteSize := by
  obtain ⟨front, back, hfront, hstart⟩ := h.start
  obtain ⟨upTo, rest, hupTo, hstop⟩ := h.stop
  have hle := h.start_le_stop
  obtain ⟨middle, rfl⟩ : front <+: upTo :=
    Text.isPrefix_of_byteSize_le ⟨back, hfront.symm⟩ ⟨rest, hupTo.symm⟩ (by omega)
  rw [Text.byteSize_append] at hstop
  rw [slice_of_eq hupTo hstart.symm hstop.symm, length, hupTo]
  simp only [Text.byteSize_append]
  omega

namespace Template

variable {source : Text} {d : Delimiters} {t : Template}

/-- The size of all literal text, at every depth. -/
def literalLength (t : Template) : Nat :=
  ((t.table.nodes.filterMap Node.text?).map fun span => (t.text span).byteSize).sum

/-- The paths of the tags outside every section that are replaced by values, in order. -/
def rootPaths (t : Template) : List Path := t.rootNodes.filterMap Node.path?

/-- The spans of literal text do not end before they start, and they cover their text. -/
lemma length_of_text_mem (h : compile source d = .ok t) {span : Span}
    (hspan : .text span ∈ t.table.nodes) :
    span.start ≤ span.stop ∧ span.stop ≤ maxOffset ∧ (t.text span).byteSize = span.length := by
  obtain ⟨hsource, hformed⟩ := wellFormed_of_compile h
  have hlies := hformed.liesIn _ hspan span (by simp [Node.spans])
  obtain ⟨hlength, hstop⟩ := hlies.byteSize_slice
  have hsize := (exists_grove_of_forest (eq_ofTrees_of_compile h).1).1
  rw [← hsource] at hsize
  exact ⟨hlies.start_le_stop, Nat.le_trans hstop hsize, hlength⟩

/-- The literal text in the table is that of the trees. -/
lemma literalLength_eq (h : compile source d = .ok t) :
    t.literalLength = Tree.textLength t.trees := by
  have hlength : (t.table.nodes.filterMap Node.text?).map (fun span => (t.text span).byteSize) =
      (t.table.nodes.filterMap Node.text?).map Span.length := by
    refine List.map_congr_left fun span hspan => ?_
    obtain ⟨node, hnode, htext⟩ := List.mem_filterMap.1 hspan
    cases node with
    | text own =>
      obtain rfl : own = span := Option.some.inj htext
      exact (length_of_text_mem h hnode).2.2
    | variableTag | sectionTag | partialTag => simp [Node.text?] at htext
  rw [literalLength, hlength, Node.filterMap_text?_eq, Tree.textLength,
    Tree.textsAll_eq_flatMap_leavesAll]
  exact (((perm_leavesAll_of_compile h).flatMap_right _).map _).sum_nat

/-- The size of the literal text in a node, counted so many levels down. -/
def literalOf (t : Template) (n : Nat) : Node → Nat
  | .text span      => span.length
  | .sectionTag tag => t.literalSize n tag.body
  | _               => 0

lemma literalSize_succ (t : Template) (n : Nat) (range : NodeRange) :
    t.literalSize (n + 1) range =
      (t.nodes range).foldl (fun sum node => addSize sum (t.literalOf n node)) 0 := by
  rw [literalSize]
  rfl

lemma addSize_literalOf {n : Nat}
    (h : ∀ range, t.literalSize n range = min (Tree.textLength (t.unfold n range)) maxSize)
    (sum : Nat) (node : Node) :
    addSize (min sum maxSize) (t.literalOf n node) =
      min (sum + Tree.textLength [t.tree n node]) maxSize := by
  cases node with
  | text span | variableTag tag | partialTag tag =>
    simp [literalOf, addSize_min_left, tree, Tree.textLength, Tree.texts]
  | sectionTag tag =>
    rw [literalOf, h, addSize_min]
    simp [tree, Tree.textLength, Tree.texts]

/-- The size of the literal text in a range is its length in the trees, or as large as that. -/
lemma literalSize_eq (t : Template) (n : Nat) (range : NodeRange) :
    t.literalSize n range = min (Tree.textLength (t.unfold n range)) maxSize := by
  induction n generalizing range with
  | zero =>
    rw [literalSize, unfold]
    exact (Nat.zero_min _).symm
  | succ n ih =>
    rw [literalSize_succ, unfold_succ, Tree.textLength_eq_sum, List.map_map,
      ← Nat.zero_add (List.sum _)]
    exact foldl_eq_min (addSize_literalOf ih) (Nat.zero_min _).symm

end Template

/-! ### Hints -/

/-- What a host has said of the size of a value. -/
structure SizeHint where
  path : Path
  resolution : Resolution
  size : Nat

/-- The sum of the sizes that hints say of fields. -/
def SizeHint.total (hints : List SizeHint) : Nat :=
  ((hints.filter (·.resolution = .field)).map size).sum

/-- What happens when a host says this of a value. -/
def SizeHint.event {F : Type} (root : F) (hint : SizeHint) : Event F :=
  .hinted root hint.path hint.resolution hint.size

lemma SizeHint.total_append (hints later : List SizeHint) :
    total (hints ++ later) = total hints + total later := by
  simp [total]

lemma SizeHint.total_singleton (hint : SizeHint) :
    total [hint] = if hint.resolution = .field then hint.size else 0 := by
  by_cases h : hint.resolution = .field <;> simp [total, h]

section
variable {F σ τ : Type}

/-- What a host says if it is asked for the sizes of values, one after the other, and the state in
which this leaves it. -/
def Host.hints (host : Host F σ) (root : F) : List Path → σ → List SizeHint × σ
  | [],            state => ([], state)
  | path :: paths, state =>
    let ((resolution, size), next) := host.hint root path state
    let (later, last) := hints host root paths next
    (⟨path, resolution, size⟩ :: later, last)

lemma Host.hints_cons (host : Host F σ) (root : F) (path : Path) (paths : List Path) (state : σ) :
    host.hints root (path :: paths) state =
      let first := host.hints root [path] state
      let later := host.hints root paths first.2
      (first.1 ++ later.1, later.2) := rfl

/-- The state of a rendering after hints of the host. -/
def RenderState.hinted (s : RenderState F σ τ) (root : F) (asked : List SizeHint × σ) :
    RenderState F σ τ :=
  { s with host := asked.2, history := (asked.1.map (SizeHint.event root)).reverse ++ s.history }

@[simp] lemma RenderState.host_hinted (s : RenderState F σ τ) (root : F)
    (asked : List SizeHint × σ) : (s.hinted root asked).host = asked.2 := rfl

lemma RenderState.hinted_hinted (s : RenderState F σ τ) (root : F)
    (first later : List SizeHint × σ) :
    (s.hinted root first).hinted root later = s.hinted root (first.1 ++ later.1, later.2) := by
  simp [hinted]

namespace Renderer

variable (r : Renderer F σ τ) (t : Template) (root : F)

/-- Adds the probable size of the output of a node. -/
def addNode (sum : Nat) (node : Node) : RenderM F σ τ Nat := do
  return addSize sum (← r.estimateNode t root node)

/-- Nothing is asked for a node that is no value, and its literal text is added. -/
lemma addNode_of_path?_eq_none {node : Node} (h : node.path? = none) (sum : Nat)
    (s : RenderState F σ τ) :
    r.addNode t root (min sum maxSize) node s =
      .ok (min (sum + Tree.textLength [t.tree t.nodeCount node]) maxSize) s := by
  have hadd : r.addNode t root (min sum maxSize) node s =
      .ok (addSize (min sum maxSize) (t.literalOf t.nodeCount node)) s := by
    cases node with
    | variableTag tag => simp [Node.path?] at h
    | text | sectionTag | partialTag => rfl
  rw [hadd, Template.addSize_literalOf (t.literalSize_eq t.nodeCount)]

/-- Of a value, the size that the host says is added. -/
lemma addNode_variableTag (tag : Variable) (sum : Nat) (s : RenderState F σ τ) :
    let asked := r.host.hints root [tag.path] s.host
    r.addNode t root (min sum maxSize) (.variableTag tag) s =
      .ok (min (sum + SizeHint.total asked.1) maxSize) (s.hinted root asked) := by
  intro asked
  have hasked : SizeHint.total asked.1 = if (r.host.hint root tag.path s.host).1.1 = .field then
      (r.host.hint root tag.path s.host).1.2 else 0 := SizeHint.total_singleton _
  rw [← addSize_min_left, hasked]
  rfl

/-- Node by node, the literal text and what the host says of the values is added up. -/
lemma foldlM_addNode (nodes : List Node) (sum : Nat) (s : RenderState F σ τ) :
    let asked := r.host.hints root (nodes.filterMap Node.path?) s.host
    nodes.foldlM (r.addNode t root) (min sum maxSize) s =
      .ok (min (sum + (Tree.textLength (nodes.map (t.tree t.nodeCount)) + SizeHint.total asked.1))
        maxSize) (s.hinted root asked) := by
  intro asked
  induction nodes generalizing sum s with
  | nil => rfl
  | cons node nodes ih =>
    rw [List.foldlM_cons, List.map_cons, Tree.textLength_cons]
    cases hpath : node.path? with
    | none =>
      rw [bind_apply_of_ok (r.addNode_of_path?_eq_none t root hpath sum s), ih]
      simp only [asked, List.filterMap_cons_none hpath, Nat.add_assoc]
    | some path =>
      cases node with
      | text | sectionTag | partialTag => simp [Node.path?] at hpath
      | variableTag tag =>
        obtain rfl : tag.path = path := Option.some.inj hpath
        have hnone : Tree.textLength [t.tree t.nodeCount (.variableTag tag)] = 0 := by
          simp [Template.tree, Tree.textLength, Tree.texts]
        have hasked : asked = _ := Host.hints_cons r.host root tag.path _ s.host
        rw [bind_apply_of_ok (r.addNode_variableTag t root tag sum s), ih,
          RenderState.hinted_hinted, RenderState.host_hinted, hasked, SizeHint.total_append, hnone,
          Nat.zero_add]
        congr 2
        omega

/-- The sizes of all nodes outside every section are added up, and their sum is limited. -/
lemma estimate_apply (s : RenderState F σ τ) :
    let asked := r.host.hints root t.rootPaths s.host
    r.estimate t root s =
      .ok (min maxReserve (Tree.textLength t.trees + SizeHint.total asked.1))
        (s.hinted root asked) := by
  intro asked
  have hsum : t.rootNodes.foldlM (r.addNode t root) 0 s =
      .ok (min (Tree.textLength t.trees + SizeHint.total asked.1) maxSize)
        (s.hinted root asked) := by
    have hfold := r.foldlM_addNode t root t.rootNodes 0 s
    simp only [Nat.zero_min, Nat.zero_add] at hfold
    rw [Template.trees, Template.unfold_succ]
    exact hfold
  have hlimit : maxReserve ≤ maxSize := by decide
  have hcut : ∀ n, min (min n maxSize) maxReserve = min maxReserve n := by
    intro n
    omega
  have hestimate : r.estimate t root s =
      .ok (min (min (Tree.textLength t.trees + SizeHint.total asked.1) maxSize) maxReserve)
        (s.hinted root asked) := bind_apply_of_ok hsum
  rw [hestimate, hcut]

end Renderer

end

/-- The estimate is the size of all literal text and of the fields outside every section, as the
host says it, or the limit if this is larger, however large the sizes are. The host is asked just
for the values outside every section, in order. No span of literal text ends before it starts. -/
theorem estimate_eq_min_of_compile {source : Text} {d : Delimiters} {t : Template}
    (h : Template.compile source d = .ok t) :
    (∀ span, .text span ∈ t.table.nodes →
      span.start ≤ span.stop ∧ span.stop ≤ maxOffset ∧ (t.text span).byteSize = span.length) ∧
    ∀ (F σ τ : Type) (r : Renderer F σ τ) (root : F) (s : RenderState F σ τ),
      let asked := r.host.hints root t.rootPaths s.host
      r.estimate t root s =
        .ok (min maxReserve (t.literalLength + SizeHint.total asked.1)) (s.hinted root asked) := by
  refine ⟨fun span hspan => Template.length_of_text_mem h hspan, fun F σ τ r root s => ?_⟩
  rw [Template.literalLength_eq h]
  exact r.estimate_apply t root s

/-- The host that says one size of all values and counts how often it is asked. -/
def Host.counting (size : Nat) : Host Unit Nat where
  get _ _ _ n := (.ok .notFound, n)
  interpolate _ _ _ n := .answer (.ok .notFound) n
  expand _ _ _ n := .answer (.ok .notFound) n
  hint _ _ n := ((.field, size), n + 1)

/-- With pointed delimiters: a value outside a section, of any size, and one inside. -/
theorem estimate_eq_min_of_compile_section :
    ∃ d t, Delimiters.make ['<'] ['>'] = .ok d ∧
      Template.compile "Hello <name>!<#s>abc<x></s>".toList d = .ok t ∧
      ∀ size, Renderer.estimate ⟨.counting size, .buffer, .standard, fun _ => none⟩ t ()
          (.start 0 .empty) =
        .ok (min maxReserve (10 + size))
          ⟨1, .empty, .fresh, [.hinted () ⟨["name".toList]⟩ .field size]⟩ := by
  let d : Delimiters := ⟨['<'], ['>'], delimiterError?_eq_none_iff.1 rfl,
    delimiterError?_eq_none_iff.1 rfl⟩
  have hok : ((Template.compile "Hello <name>!<#s>abc<x></s>".toList d).map fun t =>
      (t.literalLength, t.rootPaths)) = .ok (10, [⟨["name".toList]⟩]) := by decide +kernel
  obtain ⟨t, hcompile, hsize⟩ := exists_eq_ok_of_map_eq_ok hok
  obtain ⟨hlength, hpaths⟩ := Prod.mk.inj hsize
  refine ⟨d, t, d.make_self, hcompile, fun size => ?_⟩
  have hestimate := (estimate_eq_min_of_compile hcompile).2 Unit Nat ByteArray
    ⟨.counting size, .buffer, .standard, fun _ => none⟩ () (.start 0 .empty)
  rw [hlength, hpaths] at hestimate
  exact hestimate

end Mustache
