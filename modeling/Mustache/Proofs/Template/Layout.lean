import Mathlib.Tactic.Common
import Mustache.Template.Tree

/-!
# Laying out trees

A table is built by laying out trees: the nodes of a body are appended when the bodies inside it
have been. `Template.ofTrees` is the template laid out from a sequence of trees, and
`Template.trees` reads that sequence back.
-/

namespace Mustache

/-! ### Layout -/

mutual

/-- The node of a tree, and the table after the bodies inside the tree have been appended. -/
def Tree.lay (table : NodeTable) : Tree → Node × NodeTable
  | .text span         => (.text span, table)
  | .variableTag tag   => (.variableTag tag, table)
  | .sectionTag heading body =>
    let inner := Tree.layAll table body
    let laid := inner.2.append inner.1
    (.sectionTag ⟨heading, laid.1⟩, laid.2)
  | .partialTag tag    => (.partialTag tag, table)

/-- The nodes of a sequence of trees, and the table after the bodies inside have been appended. -/
def Tree.layAll (table : NodeTable) : List Tree → List Node × NodeTable
  | []      => ([], table)
  | t :: ts =>
    let first := t.lay table
    let later := Tree.layAll first.2 ts
    (first.1 :: later.1, later.2)

end

/-- The template over a source that is laid out from a sequence of trees. -/
def Template.ofTrees (source : Text) (trees : List Tree) : Template :=
  let laid := Tree.layAll .empty trees
  let root := laid.2.append laid.1
  ⟨source, root.2, root.1⟩

namespace Tree

@[simp] lemma lay_text (table : NodeTable) (span : Span) :
    lay table (.text span) = (.text span, table) := by simp [lay]

@[simp] lemma lay_variableTag (table : NodeTable) (tag : Variable) :
    lay table (.variableTag tag) = (.variableTag tag, table) := by simp [lay]

@[simp] lemma lay_partialTag (table : NodeTable) (tag : Partial) :
    lay table (.partialTag tag) = (.partialTag tag, table) := by simp [lay]

lemma lay_sectionTag (table : NodeTable) (heading : Heading) (body : List Tree) :
    lay table (.sectionTag heading body) =
      let inner := layAll table body
      let laid := inner.2.append inner.1
      (.sectionTag ⟨heading, laid.1⟩, laid.2) := by simp [lay]

@[simp] lemma layAll_nil (table : NodeTable) : layAll table [] = ([], table) := by simp [layAll]

lemma layAll_cons (table : NodeTable) (t : Tree) (ts : List Tree) :
    layAll table (t :: ts) =
      ((t.lay table).1 :: (layAll (t.lay table).2 ts).1, (layAll (t.lay table).2 ts).2) := by
  simp [layAll]

lemma layAll_append (table : NodeTable) (ts us : List Tree) :
    layAll table (ts ++ us) =
      ((layAll table ts).1 ++ (layAll (layAll table ts).2 us).1,
        (layAll (layAll table ts).2 us).2) := by
  induction ts generalizing table with
  | nil => simp
  | cons t ts ih => simp [layAll_cons, ih]

lemma layAll_concat (table : NodeTable) (ts : List Tree) (t : Tree) :
    layAll table (ts ++ [t]) =
      ((layAll table ts).1 ++ [(t.lay (layAll table ts).2).1], (t.lay (layAll table ts).2).2) := by
  rw [layAll_append, layAll_cons, layAll_nil]

end Tree

/-! ### Tables only grow -/

namespace NodeTable

lemma prefix_append (table : NodeTable) (body : List Node) :
    table.nodes <+: (table.append body).2.nodes := by
  rw [append]
  split
  · exact List.prefix_rfl
  · exact List.prefix_append _ _

lemma size_append (table : NodeTable) (body : List Node) :
    (table.append body).2.size = table.size + body.length := by
  rw [append]
  split <;> simp_all [size]

/-- The range returned for a body holds that body, however the table grows. -/
lemma get_append_of_isPrefix {table larger : NodeTable} {body : List Node}
    (h : (table.append body).2.nodes <+: larger.nodes) :
    larger.get (table.append body).1 = body := by
  obtain ⟨more, hmore⟩ := h
  revert hmore
  rw [append]
  split
  · next hnil =>
    intro _
    simp [get, NodeRange.empty, hnil]
  · intro hmore
    simp [get, NodeRange.stop, size, ← hmore]

@[simp] lemma get_append_nil (table larger : NodeTable) :
    larger.get (table.append []).1 = [] := by
  simp [append, get, NodeRange.empty]

end NodeTable

mutual

lemma Tree.prefix_lay (table : NodeTable) (t : Tree) :
    table.nodes <+: (t.lay table).2.nodes := by
  match t with
  | .text span => simp
  | .variableTag tag => simp
  | .partialTag tag => simp
  | .sectionTag heading body =>
    rw [Tree.lay_sectionTag]
    exact (Tree.prefix_layAll table body).trans (NodeTable.prefix_append _ _)

lemma Tree.prefix_layAll (table : NodeTable) (ts : List Tree) :
    table.nodes <+: (Tree.layAll table ts).2.nodes := by
  match ts with
  | [] => simp
  | t :: ts =>
    rw [Tree.layAll_cons]
    exact (Tree.prefix_lay table t).trans (Tree.prefix_layAll _ ts)

end

/-! ### Reading the trees back -/

namespace Template

/-- The tree of a node, with so many levels below it. -/
def tree (t : Template) (n : Nat) : Node → Tree
  | .text span       => .text span
  | .variableTag tag => .variableTag tag
  | .sectionTag tag  => .sectionTag tag.toHeading (t.unfold n tag.body)
  | .partialTag tag  => .partialTag tag

lemma unfold_succ (t : Template) (n : Nat) (range : NodeRange) :
    t.unfold (n + 1) range = (t.nodes range).map (t.tree n) := by
  rw [unfold]
  apply List.map_congr_left
  intro node _
  cases node <;> rfl

lemma unfold_of_nodes_eq_nil {t : Template} {range : NodeRange} (h : t.nodes range = [])
    (n : Nat) : t.unfold n range = [] := by
  cases n with
  | zero => rw [unfold]
  | succ n => rw [unfold_succ, h, List.map_nil]

end Template

mutual

/-- As many levels as the table has nodes are enough: a body with a node in it takes up room. -/
lemma Tree.tree_lay (tpl : Template) (table : NodeTable) (t : Tree) {n : Nat}
    (hsub : (t.lay table).2.nodes <+: tpl.table.nodes) (hn : (t.lay table).2.size ≤ n) :
    tpl.tree n (t.lay table).1 = t := by
  match t with
  | .text span => simp [Template.tree]
  | .variableTag tag => simp [Template.tree]
  | .partialTag tag => simp [Template.tree]
  | .sectionTag heading body =>
    rw [Tree.lay_sectionTag] at hsub hn ⊢
    simp only [Template.tree, Tree.sectionTag.injEq, true_and] at hsub hn ⊢
    have hget := NodeTable.get_append_of_isPrefix hsub
    cases body with
    | nil => exact Template.unfold_of_nodes_eq_nil (hget.trans (by simp)) n
    | cons t ts =>
      have hpos : 0 < (Tree.layAll table (t :: ts)).1.length := by simp [Tree.layAll_cons]
      rw [NodeTable.size_append] at hn
      obtain ⟨m, rfl⟩ : ∃ m, n = m + 1 := ⟨n - 1, by omega⟩
      rw [Template.unfold_succ, Template.nodes, hget]
      exact Tree.map_tree_layAll tpl table (t :: ts)
        ((NodeTable.prefix_append _ _).trans hsub) (by omega)

lemma Tree.map_tree_layAll (tpl : Template) (table : NodeTable) (ts : List Tree) {n : Nat}
    (hsub : (Tree.layAll table ts).2.nodes <+: tpl.table.nodes)
    (hn : (Tree.layAll table ts).2.size ≤ n) :
    (Tree.layAll table ts).1.map (tpl.tree n) = ts := by
  match ts with
  | [] => simp
  | t :: ts =>
    rw [Tree.layAll_cons] at hsub hn ⊢
    have hlater := Tree.prefix_layAll (t.lay table).2 ts
    have hsize := hlater.length_le
    simp only [NodeTable.size] at hn hsize
    rw [List.map_cons, Tree.tree_lay tpl table t (hlater.trans hsub)
        (by simp only [NodeTable.size]; omega),
      Tree.map_tree_layAll tpl _ ts hsub (by simpa [NodeTable.size] using hn)]

end

namespace Template

lemma prefix_layAll_ofTrees (source : Text) (trees : List Tree) :
    (Tree.layAll .empty trees).2.nodes <+: (ofTrees source trees).table.nodes :=
  NodeTable.prefix_append _ _

@[simp] lemma rootNodes_ofTrees (source : Text) (trees : List Tree) :
    (ofTrees source trees).rootNodes = (Tree.layAll .empty trees).1 :=
  NodeTable.get_append _ _

/-- A template holds the trees it is laid out from. -/
theorem trees_ofTrees (source : Text) (trees : List Tree) :
    (ofTrees source trees).trees = trees := by
  have hsub := prefix_layAll_ofTrees source trees
  rw [Template.trees, unfold_succ, ← rootNodes, rootNodes_ofTrees]
  exact Tree.map_tree_layAll _ .empty trees hsub hsub.length_le

end Template

end Mustache
