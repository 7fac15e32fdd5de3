import Mustache.Proofs.Template.Marks

/-!
# Subtrees

The subtrees of a template are the trees of the nodes in its table: nothing is in the table that is
not part of the template. The marks of a subtree are neighbours among those of the template.
-/

namespace Mustache

namespace Tree

mutual

/-- The tree and all trees inside it. -/
def subtrees : Tree → List Tree
  | .text span               => [.text span]
  | .variableTag tag         => [.variableTag tag]
  | .sectionTag heading body => .sectionTag heading body :: subtreesAll body
  | .partialTag tag          => [.partialTag tag]

/-- The trees of a sequence and all trees inside them. -/
def subtreesAll : List Tree → List Tree
  | []      => []
  | t :: ts => t.subtrees ++ subtreesAll ts

end

@[simp] lemma subtrees_text (span : Span) : subtrees (.text span) = [.text span] := by
  simp [subtrees]

@[simp] lemma subtrees_variableTag (tag : Variable) :
    subtrees (.variableTag tag) = [.variableTag tag] := by simp [subtrees]

@[simp] lemma subtrees_sectionTag (heading : Heading) (body : List Tree) :
    subtrees (.sectionTag heading body) = .sectionTag heading body :: subtreesAll body := by
  simp [subtrees]

@[simp] lemma subtrees_partialTag (tag : Partial) :
    subtrees (.partialTag tag) = [.partialTag tag] := by simp [subtrees]

@[simp] lemma subtreesAll_nil : subtreesAll [] = [] := by simp [subtreesAll]

@[simp] lemma subtreesAll_cons (t : Tree) (ts : List Tree) :
    subtreesAll (t :: ts) = t.subtrees ++ subtreesAll ts := by simp [subtreesAll]

lemma self_mem_subtrees (t : Tree) : t ∈ t.subtrees := by
  cases t <;> simp

lemma mem_subtreesAll_of_mem {t : Tree} {ts : List Tree} (h : t ∈ ts) : t ∈ subtreesAll ts := by
  induction ts with
  | nil => simp at h
  | cons u ts ih =>
    rw [subtreesAll_cons, List.mem_append]
    rcases List.mem_cons.1 h with rfl | h
    · exact .inl t.self_mem_subtrees
    · exact .inr (ih h)

mutual

lemma marks_isInfix_of_mem_subtrees {s : Tree} (t : Tree) (h : s ∈ t.subtrees) :
    s.marks <:+: t.marks := by
  match t with
  | .text span =>
    obtain rfl : s = .text span := by simpa using h
    exact List.infix_rfl
  | .variableTag tag =>
    obtain rfl : s = .variableTag tag := by simpa using h
    exact List.infix_rfl
  | .partialTag tag =>
    obtain rfl : s = .partialTag tag := by simpa using h
    exact List.infix_rfl
  | .sectionTag heading body =>
    rw [subtrees_sectionTag, List.mem_cons] at h
    rcases h with rfl | h
    · exact List.infix_rfl
    · rw [marks_sectionTag, ← List.singleton_append, ← List.append_assoc]
      exact (marks_isInfix_of_mem_subtreesAll body h).trans (List.infix_append _ _ _)

/-- The marks of a subtree are neighbours. -/
lemma marks_isInfix_of_mem_subtreesAll {s : Tree} (ts : List Tree) (h : s ∈ subtreesAll ts) :
    s.marks <:+: marksAll ts := by
  match ts with
  | [] => simp at h
  | t :: ts =>
    rw [subtreesAll_cons, List.mem_append] at h
    rw [marksAll_cons]
    rcases h with h | h
    · exact (marks_isInfix_of_mem_subtrees t h).trans (List.prefix_append _ _).isInfix
    · exact (marks_isInfix_of_mem_subtreesAll ts h).trans (List.suffix_append _ _).isInfix

end

end Tree

/-! ### The nodes of a table -/

lemma Template.mem_of_mem_nodes {t : Template} {range : NodeRange} {node : Node}
    (h : node ∈ t.nodes range) : node ∈ t.table.nodes := by
  rw [nodes, NodeTable.get] at h
  split at h
  · exact List.mem_of_mem_drop (List.mem_of_mem_take h)
  · simp at h

lemma NodeTable.mem_append {table : NodeTable} {body : List Node} {node : Node}
    (h : node ∈ (table.append body).2.nodes) : node ∈ table.nodes ∨ node ∈ body := by
  rw [append] at h
  split at h
  · exact .inl h
  · exact List.mem_append.1 h

mutual

/-- What is added to a table when a tree is laid out are the nodes of its subtrees. -/
lemma Tree.tree_mem_subtrees {tpl : Template} {table : NodeTable} (t : Tree) {n : Nat}
    (hsub : (t.lay table).2.nodes <+: tpl.table.nodes) (hn : (t.lay table).2.size ≤ n)
    {node : Node} (hnode : node ∈ (t.lay table).2.nodes) :
    node ∈ table.nodes ∨ tpl.tree n node ∈ t.subtrees := by
  match t with
  | .text span => exact .inl (by simpa using hnode)
  | .variableTag tag => exact .inl (by simpa using hnode)
  | .partialTag tag => exact .inl (by simpa using hnode)
  | .sectionTag heading body =>
    rw [Tree.lay_sectionTag] at hsub hn hnode
    simp only at hsub hn hnode
    have hsub' := (NodeTable.prefix_append _ _).trans hsub
    rw [NodeTable.size_append] at hn
    rw [subtrees_sectionTag]
    rcases NodeTable.mem_append hnode with h | h
    · exact (Tree.tree_mem_subtreesAll body hsub' (by omega) h).imp_right (List.mem_cons_of_mem _)
    · have hbody := Tree.map_tree_layAll tpl table body (n := n) hsub' (by omega)
      have hmem : tpl.tree n node ∈ body := hbody ▸ List.mem_map_of_mem h
      exact .inr (List.mem_cons_of_mem _ (Tree.mem_subtreesAll_of_mem hmem))

lemma Tree.tree_mem_subtreesAll {tpl : Template} {table : NodeTable} (ts : List Tree) {n : Nat}
    (hsub : (Tree.layAll table ts).2.nodes <+: tpl.table.nodes)
    (hn : (Tree.layAll table ts).2.size ≤ n) {node : Node}
    (hnode : node ∈ (Tree.layAll table ts).2.nodes) :
    node ∈ table.nodes ∨ tpl.tree n node ∈ subtreesAll ts := by
  match ts with
  | [] => exact .inl (by simpa using hnode)
  | t :: ts =>
    rw [Tree.layAll_cons] at hsub hn hnode
    simp only at hsub hn hnode
    have hlater := Tree.prefix_layAll (t.lay table).2 ts
    have hsize := hlater.length_le
    rw [subtreesAll_cons, List.mem_append]
    rcases Tree.tree_mem_subtreesAll ts hsub hn hnode with h | h
    · have hfirst := Tree.tree_mem_subtrees t (hlater.trans hsub)
        (Nat.le_trans hsize hn) h
      exact hfirst.imp_right .inl
    · exact .inr (.inr h)

end

namespace Template

variable {source : Text}

lemma tree_mem_subtreesAll_ofTrees {trees : List Tree} {node : Node} {n : Nat}
    (hn : (ofTrees source trees).nodeCount ≤ n)
    (h : node ∈ (ofTrees source trees).table.nodes) :
    (ofTrees source trees).tree n node ∈ Tree.subtreesAll trees := by
  have hsub := prefix_layAll_ofTrees source trees
  have hsize := Nat.le_trans hsub.length_le hn
  rcases NodeTable.mem_append h with h | h
  · have hmem := Tree.tree_mem_subtreesAll trees hsub hsize h
    exact hmem.resolve_left (by simp [NodeTable.empty])
  · have hmem := List.mem_map_of_mem (f := (ofTrees source trees).tree n) h
    rw [Tree.map_tree_layAll (ofTrees source trees) .empty trees hsub hsize] at hmem
    exact Tree.mem_subtreesAll_of_mem hmem

/-- Every node of a template stands for one of its subtrees. -/
theorem tree_mem_subtreesAll {d : Delimiters} {t : Template} (h : compile source d = .ok t)
    {node : Node} {n : Nat} (hn : t.nodeCount ≤ n) (hnode : node ∈ t.table.nodes) :
    t.tree n node ∈ Tree.subtreesAll t.trees := by
  have ht := (eq_ofTrees_of_compile h).2
  generalize t.trees = trees at ht ⊢
  subst ht
  exact tree_mem_subtreesAll_ofTrees hn hnode

end Template

end Mustache
