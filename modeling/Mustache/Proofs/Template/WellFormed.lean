import Mathlib.Data.List.Nodup
import Mathlib.Data.List.Perm.Basic
import Mathlib.Logic.Relation
import Mustache.Proofs.Template.Order

/-!
# The table of a template

The table of a compiled template is a tree: the ranges of its root and of the bodies of its sections
share out its indices, and each body comes before its section. The nodes of a range are in the order
of the source, and those of a body lie between the two tags of its section.
-/

namespace Mustache

/-! ### What is said of a table -/

/-- Whether an index lies in a range. -/
def NodeRange.contains (r : NodeRange) (i : Nat) : Bool := r.start ≤ i && i < r.stop

namespace Node

/-- The range of the body of a section. -/
def body? : Node → Option NodeRange
  | .sectionTag tag => some tag.body
  | _               => none

/-- The part of the source that a node takes up: of a section, its opening tag and its body. -/
def extent : Node → Span
  | .text span       => span
  | .variableTag tag => tag.span
  | .sectionTag tag  => ⟨tag.span.start, tag.inner.stop⟩
  | .partialTag tag  => tag.span

/-- All spans in a node. -/
def spans : Node → List Span
  | .text span       => [span]
  | .variableTag tag => [tag.span]
  | .sectionTag tag  => [tag.span, tag.inner]
  | .partialTag tag  => [tag.span]

end Node

namespace Template

/-- The range of the root and those of all bodies. -/
def ranges (t : Template) : List NodeRange := t.root :: t.table.nodes.filterMap Node.body?

/-- The node at index `i` is in the body of the section at index `j`. -/
def Child (t : Template) (i j : Nat) : Prop :=
  ∃ tag : Section, t.table.nodes[j]? = some (.sectionTag tag) ∧ tag.body.contains i

/-- The node at an index is part of the template: it is in the root, or in the body of a section
that is. -/
inductive Reaches (t : Template) : Nat → Prop
  | root {i : Nat} (h : t.root.contains i) : Reaches t i
  | body {i j : Nat} (h : t.Child i j) (hj : Reaches t j) : Reaches t i

/-- A template whose table is a tree in the order of the source. -/
structure WellFormed (t : Template) : Prop where
  root_stop_le : t.root.stop ≤ t.nodeCount
  /-- A body lies in the table, in front of its section. -/
  body_stop_le : ∀ i (tag : Section), t.table.nodes[i]? = some (.sectionTag tag) →
    tag.body.stop ≤ i
  /-- Each index lies in one range. -/
  countP_contains : ∀ i < t.nodeCount, t.ranges.countP (·.contains i) = 1
  reaches : ∀ i < t.nodeCount, t.Reaches i
  acyclic : ∀ i, ¬ Relation.TransGen t.Child i i
  pairwise : ∀ range ∈ t.ranges,
    (t.nodes range).Pairwise fun a b => a.extent.stop ≤ b.extent.start
  start_lt_stop : ∀ node ∈ t.table.nodes, node.extent.start < node.extent.stop
  within : ∀ tag, .sectionTag tag ∈ t.table.nodes → ∀ node ∈ t.nodes tag.body,
    tag.inner.start ≤ node.extent.start ∧ node.extent.stop ≤ tag.inner.stop
  start_inner : ∀ tag, .sectionTag tag ∈ t.table.nodes → tag.inner.start = tag.span.stop
  liesIn : ∀ node ∈ t.table.nodes, ∀ span ∈ node.spans, span.LiesIn t.source

end Template

lemma Node.exists_eq_of_body?_eq_some {node : Node} {range : NodeRange}
    (h : node.body? = some range) : ∃ tag, node = .sectionTag tag ∧ tag.body = range := by
  cases node with
  | sectionTag tag => exact ⟨tag, rfl, Option.some.inj h⟩
  | text span => simp [body?] at h
  | variableTag tag => simp [body?] at h
  | partialTag tag => simp [body?] at h

/-! ### Sharing out indices -/

lemma NodeRange.contains_iff {r : NodeRange} {i : Nat} :
    r.contains i ↔ r.start ≤ i ∧ i < r.stop := by simp [contains]

/-- The indices in a range, in order. -/
def NodeRange.indices (r : NodeRange) : List Nat := List.range' r.start r.length

lemma NodeRange.count_indices (r : NodeRange) (i : Nat) :
    r.indices.count i = if r.contains i then 1 else 0 := by
  rw [indices, (List.nodup_range' 1).count]
  simp only [List.mem_range'_1, contains_iff, stop]

/-- How often an index occurs in ranges is in how many of them it lies. -/
lemma countP_contains_eq_count (ranges : List NodeRange) (i : Nat) :
    ranges.countP (·.contains i) = (ranges.flatMap NodeRange.indices).count i := by
  induction ranges with
  | nil => rfl
  | cons r ranges ih =>
    rw [List.countP_cons, List.flatMap_cons, List.count_append, r.count_indices, ih, Nat.add_comm]

/-- The indices in the bodies of nodes. -/
def bodyIndices (nodes : List Node) : List Nat :=
  (nodes.filterMap Node.body?).flatMap NodeRange.indices

@[simp] lemma bodyIndices_nil : bodyIndices [] = [] := rfl

@[simp] lemma bodyIndices_append (nodes more : List Node) :
    bodyIndices (nodes ++ more) = bodyIndices nodes ++ bodyIndices more := by
  simp [bodyIndices]

namespace NodeTable

lemma nodes_append (table : NodeTable) (body : List Node) :
    (table.append body).2.nodes = table.nodes ++ body := by
  rw [append]
  split
  · next h => simp [h]
  · rfl

lemma indices_append (table : NodeTable) (body : List Node) :
    (table.append body).1.indices = List.range' table.size body.length := by
  rw [append]
  split
  · next h => simp [h, NodeRange.empty, NodeRange.indices]
  · rfl

lemma stop_append_le (table : NodeTable) (body : List Node) :
    (table.append body).1.stop ≤ table.size + body.length := by
  rw [append]
  split
  · simp [NodeRange.empty, NodeRange.stop]
  · exact Nat.le_refl _

end NodeTable

/-- Nodes `new` at the end of a table of size `n`, and `nodes` that are not in it yet. The bodies of
both share out the indices of `new`, and each lies in front of its section. -/
structure Shares (n : Nat) (new nodes : List Node) : Prop where
  perm : (bodyIndices (new ++ nodes)).Perm (List.range' n new.length)
  stop_le_of_new : ∀ k (tag : Section), new[k]? = some (.sectionTag tag) → tag.body.stop ≤ n + k
  stop_le : ∀ tag, .sectionTag tag ∈ nodes → tag.body.stop ≤ n + new.length

namespace Shares

variable {n : Nat} {new new' nodes nodes' : List Node}

lemma nil (n : Nat) : Shares n [] [] := ⟨by simp, by simp, by simp⟩

lemma leaf (n : Nat) {node : Node} (h : node.body? = none) : Shares n [] [node] where
  perm := by simp [bodyIndices, h]
  stop_le_of_new := by simp
  stop_le := by
    intro tag htag
    rw [List.mem_singleton] at htag
    simp [← htag, Node.body?] at h

lemma append (h : Shares n new nodes) (h' : Shares (n + new.length) new' nodes') :
    Shares n (new ++ new') (nodes ++ nodes') where
  perm := by
    have hfirst := h.perm
    have hlater := h'.perm
    simp only [bodyIndices_append] at hfirst hlater ⊢
    rw [List.length_append, List.range'_append_1.symm]
    refine List.Perm.trans ?_ (hfirst.append hlater)
    simp only [List.append_assoc]
    exact (List.perm_append_left_iff _).2 (List.perm_append_comm_assoc ..)
  stop_le_of_new := by
    intro k tag hk
    rw [List.getElem?_append] at hk
    split at hk
    · exact h.stop_le_of_new k tag hk
    · have := h'.stop_le_of_new _ tag hk
      omega
  stop_le := by
    intro tag htag
    rw [List.length_append]
    rcases List.mem_append.1 htag with htag | htag
    · have := h.stop_le tag htag
      omega
    · have := h'.stop_le tag htag
      omega

/-- When nodes are appended, their bodies and the range returned for them share out the indices. -/
lemma perm_append {table : NodeTable} (h : Shares n new nodes)
    (hsize : table.size = n + new.length) :
    (bodyIndices (new ++ nodes) ++ (table.append nodes).1.indices).Perm
      (List.range' n (new ++ nodes).length) := by
  rw [table.indices_append, hsize, List.length_append, List.range'_append_1.symm]
  exact h.perm.append_right _

lemma stop_le_of_append (h : Shares n new nodes) (k : Nat) (tag : Section)
    (hk : (new ++ nodes)[k]? = some (.sectionTag tag)) : tag.body.stop ≤ n + k := by
  rw [List.getElem?_append] at hk
  split at hk
  · exact h.stop_le_of_new k tag hk
  · have := h.stop_le tag (List.mem_of_getElem? hk)
    omega

lemma enclose {table : NodeTable} (h : Shares n new nodes) (hsize : table.size = n + new.length)
    (heading : Heading) :
    Shares n (new ++ nodes) [.sectionTag ⟨heading, (table.append nodes).1⟩] where
  perm := by
    rw [bodyIndices_append]
    simpa [bodyIndices, Node.body?] using h.perm_append hsize
  stop_le_of_new := h.stop_le_of_append
  stop_le := by
    intro tag htag
    rw [List.mem_singleton, Node.sectionTag.injEq] at htag
    rw [htag, List.length_append]
    have := table.stop_append_le nodes
    simp only
    omega

end Shares

mutual

/-- Laying out a tree shares out the indices that it takes. -/
lemma Tree.exists_shares_lay (table : NodeTable) (t : Tree) :
    ∃ new, (t.lay table).2.nodes = table.nodes ++ new ∧
      Shares table.size new [(t.lay table).1] := by
  match t with
  | .text span => exact ⟨[], by simp, .leaf _ (by simp [Node.body?])⟩
  | .variableTag tag => exact ⟨[], by simp, .leaf _ (by simp [Node.body?])⟩
  | .partialTag tag => exact ⟨[], by simp, .leaf _ (by simp [Node.body?])⟩
  | .sectionTag heading body =>
    obtain ⟨new, hnodes, hshares⟩ := Tree.exists_shares_layAll table body
    refine ⟨new ++ (Tree.layAll table body).1, ?_, ?_⟩
    · simp [Tree.lay_sectionTag, NodeTable.nodes_append, hnodes]
    · rw [Tree.lay_sectionTag]
      exact hshares.enclose (by simp [NodeTable.size, hnodes]) heading

lemma Tree.exists_shares_layAll (table : NodeTable) (ts : List Tree) :
    ∃ new, (Tree.layAll table ts).2.nodes = table.nodes ++ new ∧
      Shares table.size new (Tree.layAll table ts).1 := by
  match ts with
  | [] => exact ⟨[], by simp, by simpa using Shares.nil _⟩
  | t :: ts =>
    obtain ⟨new, hnodes, hshares⟩ := Tree.exists_shares_lay table t
    obtain ⟨new', hnodes', hshares'⟩ := Tree.exists_shares_layAll (t.lay table).2 ts
    have hsize : (t.lay table).2.size = table.size + new.length := by
      simp [NodeTable.size, hnodes]
    rw [Tree.layAll_cons]
    refine ⟨new ++ new', by rw [hnodes', hnodes, List.append_assoc], ?_⟩
    rw [← List.singleton_append]
    exact hshares.append (hsize ▸ hshares')

end

/-! ### Reaching all nodes -/

namespace Template

variable {source : Text} {d : Delimiters} {t : Template}

/-- A node lies in front of the section that has it. -/
lemma Child.lt {i j : Nat} (h : t.Child i j)
    (hbody : ∀ i (tag : Section), t.table.nodes[i]? = some (.sectionTag tag) → tag.body.stop ≤ i) :
    i < j := by
  obtain ⟨tag, hnode, hcontains⟩ := h
  exact Nat.lt_of_lt_of_le (NodeRange.contains_iff.1 hcontains).2 (hbody j tag hnode)

/-- From an index on, sections lead up to the root: each lies further back in the table. -/
lemma reaches_of_lt (hcount : ∀ i < t.nodeCount, t.ranges.countP (·.contains i) = 1)
    (hbody : ∀ i (tag : Section), t.table.nodes[i]? = some (.sectionTag tag) → tag.body.stop ≤ i)
    {i : Nat} (hi : i < t.nodeCount) : t.Reaches i := by
  have hpos : 0 < t.ranges.countP (·.contains i) := by
    rw [hcount i hi]
    exact Nat.one_pos
  obtain ⟨range, hrange, hcontains⟩ := List.countP_pos_iff.1 hpos
  rcases List.mem_cons.1 hrange with rfl | hrange
  · exact .root hcontains
  obtain ⟨node, hnode, hsome⟩ := List.mem_filterMap.1 hrange
  obtain ⟨tag, rfl, rfl⟩ := Node.exists_eq_of_body?_eq_some hsome
  obtain ⟨j, hj⟩ := List.mem_iff_getElem?.1 hnode
  have hchild : t.Child i j := ⟨tag, hj, hcontains⟩
  have hlt := hchild.lt hbody
  have hj' : j < t.nodeCount := (List.getElem?_eq_some_iff.1 hj).1
  exact .body hchild (reaches_of_lt hcount hbody hj')
termination_by t.nodeCount - i

lemma lt_of_transGen {i j : Nat} (h : Relation.TransGen t.Child i j)
    (hbody : ∀ i (tag : Section), t.table.nodes[i]? = some (.sectionTag tag) → tag.body.stop ≤ i) :
    i < j := by
  induction h with
  | single h => exact h.lt hbody
  | tail _ h ih => exact Nat.lt_trans ih (h.lt hbody)

/-! ### Compiled templates -/

/-- The ranges of a template that is laid out share out its indices. -/
lemma shares_ofTrees (source : Text) (trees : List Tree) :
    (∀ i < (ofTrees source trees).nodeCount,
      (ofTrees source trees).ranges.countP (·.contains i) = 1) ∧
    (∀ i (tag : Section), (ofTrees source trees).table.nodes[i]? = some (.sectionTag tag) →
      tag.body.stop ≤ i) ∧
    (ofTrees source trees).root.stop ≤ (ofTrees source trees).nodeCount := by
  obtain ⟨new, hnodes, hshares⟩ := Tree.exists_shares_layAll .empty trees
  have hnodes : (Tree.layAll .empty trees).2.nodes = new := hnodes
  have hsize : (Tree.layAll .empty trees).2.size = 0 + new.length := by
    rw [NodeTable.size, hnodes, Nat.zero_add]
  have htable : (ofTrees source trees).table.nodes = new ++ (Tree.layAll .empty trees).1 := by
    rw [← hnodes]
    exact NodeTable.nodes_append _ _
  refine ⟨fun i hi => ?_, fun i tag htag => ?_, ?_⟩
  · have hperm := hshares.perm_append hsize
    rw [← htable] at hperm
    have hcount := (List.perm_append_comm.trans hperm).count_eq i
    have hmem : i ∈ List.range' 0 (ofTrees source trees).table.nodes.length :=
      List.mem_range'_1.2 ⟨Nat.zero_le i, (Nat.zero_add _).symm ▸ hi⟩
    rw [countP_contains_eq_count, ranges, List.flatMap_cons]
    exact hcount.trans (List.count_eq_one_of_mem (List.nodup_range' 1) hmem)
  · rw [htable] at htag
    exact (hshares.stop_le_of_append i tag htag).trans_eq (Nat.zero_add i)
  · exact (NodeTable.stop_append_le _ _).trans_eq (NodeTable.size_append _ _).symm

@[simp] lemma extent_tree (t : Template) (n : Nat) (node : Node) :
    (t.tree n node).extent = node.extent := by
  cases node <;> rfl

lemma pairwise_extent_iff {nodes : List Node} {n : Nat} :
    (nodes.map (t.tree n)).Pairwise (fun t u => t.extent.stop ≤ u.extent.start) ↔
      nodes.Pairwise fun a b => a.extent.stop ≤ b.extent.start := by
  simp only [List.pairwise_map, extent_tree]

/-- The marks of a node sit in the source, in order. -/
lemma inOrder_of_mem (h : compile source d = .ok t) {node : Node} (hnode : node ∈ t.table.nodes) :
    (∀ m ∈ (t.tree (t.nodeCount + 1) node).marks, m.Sits source) ∧
      InOrder (t.tree (t.nodeCount + 1) node).marks := by
  obtain ⟨hsits, horder⟩ := inOrder_of_compile h
  have hneighbours := Tree.marks_isInfix_of_mem_subtreesAll _
    (tree_mem_subtreesAll h (Nat.le_succ _) hnode)
  exact ⟨fun m hm => hsits m (hneighbours.subset hm),
    List.Pairwise.sublist hneighbours.sublist horder⟩

lemma encloses_of_mem (h : compile source d = .ok t) {tag : Section}
    (htag : .sectionTag tag ∈ t.table.nodes) :
    Tree.Encloses source tag.toHeading ((t.nodes tag.body).map (t.tree t.nodeCount)) := by
  obtain ⟨hsits, horder⟩ := inOrder_of_mem h htag
  rw [tree, unfold_succ] at hsits horder
  exact Tree.encloses_of_inOrder hsits horder

lemma liesIn_of_mem (h : compile source d = .ok t) {node : Node} (hnode : node ∈ t.table.nodes) :
    node.extent.start < node.extent.stop ∧ ∀ span ∈ node.spans, span.LiesIn source := by
  have hsits := (inOrder_of_mem h hnode).1
  cases node with
  | text span =>
    obtain ⟨hlies, hlt⟩ := hsits (.leaf (.text span)) (by simp [tree])
    exact ⟨hlt, List.forall_mem_singleton.2 hlies⟩
  | variableTag tag =>
    obtain ⟨hlies, hlt⟩ := hsits (.leaf (.variableTag tag)) (by simp [tree])
    exact ⟨hlt, List.forall_mem_singleton.2 hlies⟩
  | partialTag tag =>
    obtain ⟨hlies, hlt⟩ := hsits (.leaf (.partialTag tag)) (by simp [tree])
    exact ⟨hlt, List.forall_mem_singleton.2 hlies⟩
  | sectionTag tag =>
    have hencloses := encloses_of_mem h hnode
    refine ⟨hencloses.start_lt_stop, List.forall_mem_cons.2 ⟨hencloses.span_liesIn, ?_⟩⟩
    exact List.forall_mem_singleton.2 hencloses.inner_liesIn

lemma pairwise_of_mem_ranges (h : compile source d = .ok t) {range : NodeRange}
    (hrange : range ∈ t.ranges) :
    (t.nodes range).Pairwise fun a b => a.extent.stop ≤ b.extent.start := by
  rcases List.mem_cons.1 hrange with rfl | hrange
  · have hpairwise := Tree.pairwise_extent (inOrder_of_compile h).2
    rw [trees, unfold_succ] at hpairwise
    exact pairwise_extent_iff.1 hpairwise
  · obtain ⟨node, hnode, hsome⟩ := List.mem_filterMap.1 hrange
    obtain ⟨tag, rfl, rfl⟩ := Node.exists_eq_of_body?_eq_some hsome
    exact pairwise_extent_iff.1 (encloses_of_mem h hnode).pairwise

/-- The table of a compiled template is a tree in the order of its source. -/
theorem wellFormed_of_compile (h : compile source d = .ok t) :
    t.source = source ∧ t.WellFormed := by
  have ht := (eq_ofTrees_of_compile h).2
  have hsource : t.source = source := by
    rw [ht]
    rfl
  have hshares := shares_ofTrees source t.trees
  rw [← ht] at hshares
  obtain ⟨hcount, hbody, hroot⟩ := hshares
  refine ⟨hsource, {
    root_stop_le := hroot
    body_stop_le := hbody
    countP_contains := hcount
    reaches := fun i hi => reaches_of_lt hcount hbody hi
    acyclic := fun i hi => Nat.lt_irrefl i (lt_of_transGen hi hbody)
    pairwise := fun range hrange => pairwise_of_mem_ranges h hrange
    start_lt_stop := fun node hnode => (liesIn_of_mem h hnode).1
    within := ?_
    start_inner := fun tag htag => (encloses_of_mem h htag).start_inner
    liesIn := fun node hnode => hsource ▸ (liesIn_of_mem h hnode).2 }⟩
  intro tag htag node hnode
  have hwithin := (encloses_of_mem h htag).within _ (List.mem_map_of_mem hnode)
  rwa [extent_tree] at hwithin

/-- With pointed delimiters: a section in a section, each with nodes behind it. -/
theorem wellFormed_of_compile_nested :
    ∃ d t, Delimiters.make ['<'] ['>'] = .ok d ∧
      compile "<#a>x<^b><c></b>y</a>z".toList d = .ok t ∧ t.ranges.length = 3 ∧
      t.nodeCount = 6 ∧ t.WellFormed := by
  let source : Text := "<#a>x<^b><c></b>y</a>z".toList
  let d : Delimiters := ⟨['<'], ['>'], delimiterError?_eq_none_iff.1 rfl,
    delimiterError?_eq_none_iff.1 rfl⟩
  have hok : ((compile source d).map fun t => (t.ranges.length, t.nodeCount)) = .ok (3, 6) := by
    decide +kernel
  cases hcompile : compile source d with
  | error e => simp [hcompile, Except.map] at hok
  | ok t =>
    simp only [hcompile, Except.map, Except.ok.injEq, Prod.mk.injEq] at hok
    exact ⟨d, t, Delimiters.make_self d, hcompile, hok.1, hok.2, (wellFormed_of_compile hcompile).2⟩

end Template

end Mustache
