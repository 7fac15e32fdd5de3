import Mathlib.Data.List.Perm.Basic
import Mustache.Proofs.Template.Leaves
import Mustache.Proofs.Template.WellFormed

/-!
# Leaves in the table

The table of a compiled template holds the nodes of a body where the body is appended, so its order
is not that of the source. But it holds what the trees hold: the nodes without a body are the leaves
of the trees, each as often as there.
-/

namespace Mustache

/-- The leaf that a node stands for, if it is not a section. -/
def Node.leaf? : Node → Option Tree
  | .text span       => some (.text span)
  | .variableTag tag => some (.variableTag tag)
  | .sectionTag _    => none
  | .partialTag tag  => some (.partialTag tag)

mutual

/-- Laying out a tree adds its leaves, apart from the one that it is. -/
lemma Tree.exists_leaves_lay (table : NodeTable) (t : Tree) :
    ∃ new, (t.lay table).2.nodes = table.nodes ++ new ∧
      ((new ++ [(t.lay table).1]).filterMap Node.leaf?).Perm t.leaves := by
  match t with
  | .text span => exact ⟨[], by simp, by simp [Node.leaf?]⟩
  | .variableTag tag => exact ⟨[], by simp, by simp [Node.leaf?]⟩
  | .partialTag tag => exact ⟨[], by simp, by simp [Node.leaf?]⟩
  | .sectionTag heading body =>
    obtain ⟨new, hnodes, hperm⟩ := Tree.exists_leaves_layAll table body
    refine ⟨new ++ (Tree.layAll table body).1, ?_, ?_⟩
    · simp [Tree.lay_sectionTag, NodeTable.nodes_append, hnodes]
    · rw [Tree.lay_sectionTag, Tree.leaves_sectionTag, List.filterMap_append,
        List.filterMap_cons_none rfl, List.filterMap_nil, List.append_nil]
      exact hperm

lemma Tree.exists_leaves_layAll (table : NodeTable) (ts : List Tree) :
    ∃ new, (Tree.layAll table ts).2.nodes = table.nodes ++ new ∧
      ((new ++ (Tree.layAll table ts).1).filterMap Node.leaf?).Perm (Tree.leavesAll ts) := by
  match ts with
  | [] => exact ⟨[], by simp, by simp⟩
  | t :: ts =>
    obtain ⟨new, hnodes, hperm⟩ := Tree.exists_leaves_lay table t
    obtain ⟨new', hnodes', hperm'⟩ := Tree.exists_leaves_layAll (t.lay table).2 ts
    refine ⟨new ++ new', ?_, ?_⟩
    · rw [Tree.layAll_cons, hnodes', hnodes, List.append_assoc]
    · rw [Tree.layAll_cons, Tree.leavesAll_cons]
      refine List.Perm.trans ?_ (hperm.append hperm')
      rw [← List.filterMap_append]
      refine List.Perm.filterMap _ ?_
      simp only [List.append_assoc, List.cons_append, List.nil_append]
      exact (List.perm_append_left_iff new).2 List.perm_middle

end

namespace Template

variable {source : Text} {d : Delimiters} {t : Template}

/-- The table holds the leaves of the trees, in some order. -/
theorem perm_leavesAll_of_compile (h : compile source d = .ok t) :
    (t.table.nodes.filterMap Node.leaf?).Perm (Tree.leavesAll t.trees) := by
  have ht := (eq_ofTrees_of_compile h).2
  generalize t.trees = trees at ht ⊢
  subst ht
  obtain ⟨new, hnodes, hperm⟩ := Tree.exists_leaves_layAll .empty trees
  have htable : (ofTrees source trees).table.nodes = new ++ (Tree.layAll .empty trees).1 :=
    (NodeTable.nodes_append _ _).trans (congrArg (· ++ _) hnodes)
  rwa [htable]

end Template

end Mustache
