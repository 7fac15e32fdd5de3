import Mathlib.Data.List.Basic
import Mustache.Proofs.Template.Marks

/-!
# Leaves

The leaves of a sequence of trees are its parts without a body, in the order of the source. They
come from the fragments one by one, whatever sections are opened and closed around them.
-/

namespace Mustache

/-! ### Leaves of trees -/

namespace Tree

mutual

/-- The parts of a tree that have no body, in the order of the source. -/
def leaves : Tree → List Tree
  | .text span         => [.text span]
  | .variableTag tag   => [.variableTag tag]
  | .sectionTag _ body => leavesAll body
  | .partialTag tag    => [.partialTag tag]

/-- The leaves of a sequence of trees. -/
def leavesAll : List Tree → List Tree
  | []      => []
  | t :: ts => t.leaves ++ leavesAll ts

end

@[simp] lemma leaves_text (span : Span) : leaves (.text span) = [.text span] := by simp [leaves]

@[simp] lemma leaves_variableTag (tag : Variable) :
    leaves (.variableTag tag) = [.variableTag tag] := by simp [leaves]

@[simp] lemma leaves_sectionTag (heading : Heading) (body : List Tree) :
    leaves (.sectionTag heading body) = leavesAll body := by simp [leaves]

@[simp] lemma leaves_partialTag (tag : Partial) :
    leaves (.partialTag tag) = [.partialTag tag] := by simp [leaves]

@[simp] lemma leavesAll_nil : leavesAll [] = [] := by simp [leavesAll]

@[simp] lemma leavesAll_cons (t : Tree) (ts : List Tree) :
    leavesAll (t :: ts) = t.leaves ++ leavesAll ts := by simp [leavesAll]

@[simp] lemma leavesAll_append (ts us : List Tree) :
    leavesAll (ts ++ us) = leavesAll ts ++ leavesAll us := by
  induction ts with
  | nil => simp
  | cons t ts ih => simp [ih]

mutual

lemma texts_eq_flatMap_leaves (t : Tree) : t.texts = t.leaves.flatMap texts := by
  match t with
  | .text span => simp
  | .variableTag tag => simp
  | .partialTag tag => simp
  | .sectionTag heading body =>
    rw [leaves_sectionTag, texts]
    exact textsAll_eq_flatMap_leavesAll body

/-- The literal text of a sequence of trees is that of its leaves. -/
lemma textsAll_eq_flatMap_leavesAll (ts : List Tree) :
    textsAll ts = (leavesAll ts).flatMap texts := by
  match ts with
  | [] => simp
  | t :: ts =>
    rw [textsAll_cons, leavesAll_cons, List.flatMap_append, texts_eq_flatMap_leaves t,
      textsAll_eq_flatMap_leavesAll ts]

end

end Tree

/-! ### Leaves of fragments -/

/-- What a fragment adds to the trees, if it neither opens nor closes a section. -/
def Fragment.leaves (source : Text) : Fragment → List Tree
  | .text span      => [.text span]
  | .tag raw indent =>
    match Tag.ofRaw raw source with
    | .ok (.variableTag path escaped) => [.variableTag ⟨path, escaped, raw.span⟩]
    | .ok (.partialTag name)          => [.partialTag ⟨name, indent, raw.span⟩]
    | _                               => []

/-- The leaf that a mark is. -/
def Mark.leaf? {α : Type} : Mark α → Option α
  | .leaf a      => some a
  | .opening _   => none
  | .closing _ _ => none

namespace Tree

mutual

lemma leaves_eq_filterMap_marks (t : Tree) : t.leaves = t.marks.filterMap Mark.leaf? := by
  match t with
  | .text span => simp [Mark.leaf?]
  | .variableTag tag => simp [Mark.leaf?]
  | .partialTag tag => simp [Mark.leaf?]
  | .sectionTag heading body =>
    simp [leavesAll_eq_filterMap_marksAll body, List.filterMap_cons, Mark.leaf?]

/-- The leaves are the marks that are left when the ends of the sections are set aside. -/
lemma leavesAll_eq_filterMap_marksAll (ts : List Tree) :
    leavesAll ts = (marksAll ts).filterMap Mark.leaf? := by
  match ts with
  | [] => simp
  | t :: ts =>
    rw [leavesAll_cons, marksAll_cons, List.filterMap_append, leaves_eq_filterMap_marks t,
      leavesAll_eq_filterMap_marksAll ts]

end

end Tree

lemma Fragment.leaves_eq_bind_mark? (source : Text) (fragment : Fragment) :
    fragment.leaves source = ((fragment.mark? source).bind Mark.leaf?).toList := by
  cases fragment with
  | text span => rfl
  | tag raw indent =>
    rw [leaves, mark?]
    cases hraw : Tag.ofRaw raw source with
    | error e => rfl
    | ok means => cases means <;> rfl

/-! ### Leaves of templates -/

namespace Template

variable {source : Text} {d : Delimiters} {t : Template}

/-- The leaves of a template are those of its fragments, one after the other. -/
theorem leavesAll_of_compile (h : compile source d = .ok t) :
    Tree.leavesAll t.trees =
      (fragments source 0 (scan source d).tokens).flatMap (Fragment.leaves source) := by
  rw [Tree.leavesAll_eq_filterMap_marksAll, marksAll_of_compile h, List.filterMap_filterMap,
    List.filterMap_eq_flatMap_toList]
  exact List.flatMap_congr fun fragment _ => (fragment.leaves_eq_bind_mark? source).symm

/-- The tags among the fragments are those among the tokens, with the indentation of their lines. -/
lemma mem_tokens_of_mem_fragments {tokens : List Token} {k : Nat} {raw : RawTag} {indent : Text}
    (h : .tag raw indent ∈ fragments source k tokens) :
    .tag raw ∈ tokens ∧ indent = raw.indent source := by
  induction tokens generalizing k with
  | nil => simp [fragments] at h
  | cons token tokens ih =>
    cases token with
    | text span =>
      rw [fragments, List.mem_append] at h
      rcases h with h | h
      · rw [textFragment] at h
        split at h <;> simp at h
      · exact ⟨List.mem_cons_of_mem _ (ih h).1, (ih h).2⟩
    | tag raw' =>
      rw [fragments, List.mem_cons] at h
      rcases h with h | h
      · rw [Fragment.tag.injEq] at h
        obtain ⟨rfl, rfl⟩ := h
        exact ⟨List.mem_cons_self, rfl⟩
      · exact ⟨List.mem_cons_of_mem _ (ih h).1, (ih h).2⟩

/-- A partial of a template comes from a partial tag of its source. -/
lemma exists_raw_of_partialTag_mem (h : compile source d = .ok t) {tag : Partial}
    (hmem : .partialTag tag ∈ Tree.leavesAll t.trees) :
    ∃ raw, .tag raw ∈ (scan source d).tokens ∧ raw.sigil = .angle ∧ tag.span = raw.span ∧
      tag.indent = raw.indent source := by
  rw [leavesAll_of_compile h, List.mem_flatMap] at hmem
  obtain ⟨fragment, hmem, hleaf⟩ := hmem
  cases fragment with
  | text span => simp [Fragment.leaves] at hleaf
  | tag raw indent =>
    obtain ⟨htoken, hindent⟩ := mem_tokens_of_mem_fragments hmem
    simp only [Fragment.leaves] at hleaf
    split at hleaf
    · simp at hleaf
    · next name hraw =>
      rw [List.mem_singleton, Tree.partialTag.injEq] at hleaf
      subst hleaf
      have hangle : raw.sigil = .angle := by
        have hmeans := Tag.ofRaw_eq_ok_iff.1 hraw
        generalize raw.sigil = sigil at hmeans
        cases hmeans
        rfl
      exact ⟨raw, htoken, hangle, rfl, hindent⟩
    · simp at hleaf

end Template

end Mustache
