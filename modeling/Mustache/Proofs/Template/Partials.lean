import Mustache.Proofs.Template.Acceptance
import Mustache.Proofs.Template.StoredLeaves

/-!
# The partials of a template

The table of a compiled template holds one partial for each partial tag that the scanner finds, and
each is reached from the root. So the names that are listed from the table are those of the tags,
each once, in the order in which the table comes to them first.
-/

namespace Mustache

/-! ### Lists without repetitions -/

variable {name : Text} {names : List Text}

lemma mem_distinct : name ∈ distinct names ↔ name ∈ names := by
  induction names with
  | nil => simp [distinct]
  | cons first names ih =>
    rw [distinct, List.mem_cons, List.mem_cons, List.mem_filter, ih]
    by_cases h : name = first <;> simp [h]

lemma nodup_distinct (names : List Text) : (distinct names).Nodup := by
  induction names with
  | nil => exact List.nodup_nil
  | cons first names ih =>
    rw [distinct, List.nodup_cons]
    exact ⟨by simp, ih.filter _⟩

/-- Of two members, the one that is listed first occurs before the other does. -/
lemma pairwise_distinct (names : List Text) :
    (distinct names).Pairwise fun a b => ∃ front back, names = front ++ back ∧ a ∈ front ∧
      b ∉ front := by
  induction names with
  | nil => exact .nil
  | cons first names ih =>
    rw [distinct, List.pairwise_cons]
    constructor
    · intro b hb
      have hne : b ≠ first := by simpa using (List.mem_filter.1 hb).2
      exact ⟨[first], names, rfl, List.mem_singleton_self first, by simpa using hne⟩
    · refine (ih.filter _).imp_of_mem fun {a b} _ hb hbefore => ?_
      obtain ⟨front, back, rfl, ha, hnot⟩ := hbefore
      have hne : b ≠ first := by simpa using (List.mem_filter.1 hb).2
      exact ⟨first :: front, back, rfl, List.mem_cons_of_mem first ha, by simp [hne, hnot]⟩

/-! ### Names of partials -/

/-- The name of a partial. -/
def Node.partialName? : Node → Option Text
  | .partialTag tag => some tag.name
  | _               => none

/-- The name of a partial among trees. -/
def Tree.partialName? : Tree → Option Text
  | .partialTag tag => some tag.name
  | _               => none

/-- The name in a tag, if it is a partial tag. -/
def Token.partialName? (source : Text) : Token → Option Text
  | .text _  => none
  | .tag raw => if raw.sigil = .angle then some (raw.name source) else none

lemma Node.partialName?_eq_some_iff {node : Node} :
    node.partialName? = some name ↔ ∃ tag, node = .partialTag tag ∧ tag.name = name := by
  cases node <;> simp [partialName?]

lemma Token.partialName?_eq_some_iff {source : Text} {token : Token} :
    token.partialName? source = some name ↔
      ∃ raw, token = .tag raw ∧ raw.sigil = .angle ∧ raw.name source = name := by
  cases token with
  | text span => simp [partialName?]
  | tag raw => by_cases h : raw.sigil = .angle <;> simp [partialName?, h]

lemma Node.filterMap_partialName?_eq (nodes : List Node) :
    nodes.filterMap partialName? = (nodes.filterMap leaf?).filterMap Tree.partialName? := by
  rw [List.filterMap_filterMap]
  refine List.filterMap_congr fun node _ => ?_
  cases node <;> rfl

/-- The leaves of a tag name the partial that the tag names. -/
lemma Fragment.partialNames_leaves {raw : RawTag} {source : Text} {tag : Tag}
    (h : Tag.ofRaw raw source = .ok tag) (indent : Text) :
    ((Fragment.tag raw indent).leaves source).filterMap Tree.partialName? =
      ((Token.tag raw).partialName? source).toList := by
  have hmeans := Tag.ofRaw_eq_ok_iff.1 h
  rw [Fragment.leaves, h, Token.partialName?]
  generalize raw.sigil = sigil at hmeans
  cases hmeans <;> rfl

/-- The leaves of fragments name the partials that the tokens name, in the same order. -/
lemma partialNames_leaves_fragments {source : Text} {tokens : List Token}
    (h : ∀ raw, .tag raw ∈ tokens → raw.WellNamed source) (skip : Nat) :
    ((fragments source skip tokens).flatMap (Fragment.leaves source)).filterMap
        Tree.partialName? = tokens.filterMap (Token.partialName? source) := by
  induction tokens generalizing skip with
  | nil => rfl
  | cons token tokens ih =>
    have hlater := ih fun raw hraw => h raw (List.mem_cons_of_mem token hraw)
    cases token with
    | text span =>
      rw [fragments, List.flatMap_append, List.filterMap_append, hlater,
        List.filterMap_cons_none rfl, textFragment]
      split <;> rfl
    | tag raw =>
      obtain ⟨tag, htag⟩ := Tag.exists_ofRaw_eq_ok_iff.2 (h raw List.mem_cons_self)
      rw [fragments, List.flatMap_cons, List.filterMap_append, hlater,
        Fragment.partialNames_leaves htag]
      cases hname : (Token.tag raw).partialName? source with
      | none => rw [List.filterMap_cons_none hname]; rfl
      | some name => rw [List.filterMap_cons_some hname]; rfl

namespace Template

variable {source : Text} {d : Delimiters} {t : Template}

lemma partialNames_eq (t : Template) :
    t.partialNames = distinct (t.table.nodes.filterMap Node.partialName?) := rfl

lemma mem_partialNames :
    name ∈ t.partialNames ↔ ∃ tag : Partial, .partialTag tag ∈ t.table.nodes ∧ tag.name = name := by
  simp only [partialNames_eq, mem_distinct, List.mem_filterMap, Node.partialName?_eq_some_iff]
  constructor
  · rintro ⟨node, hnode, tag, rfl, rfl⟩
    exact ⟨tag, hnode, rfl⟩
  · rintro ⟨tag, htag, rfl⟩
    exact ⟨_, htag, tag, rfl, rfl⟩

/-- Partials are named in the table as often as in the tags that the scanner finds. -/
theorem perm_partialNames_of_compile (h : compile source d = .ok t) :
    (t.table.nodes.filterMap Node.partialName?).Perm
      ((scan source d).tokens.filterMap (Token.partialName? source)) := by
  have hsize := (exists_grove_of_forest (eq_ofTrees_of_compile h).1).1
  have hsound := sound_of_compile hsize h
  rw [Node.filterMap_partialName?_eq, ← partialNames_leaves_fragments hsound.wellNamed 0,
    ← leavesAll_of_compile h]
  exact (perm_leavesAll_of_compile h).filterMap _

/-- The partials that are listed are those of the tags. -/
lemma mem_partialNames_iff_scan (h : compile source d = .ok t) :
    name ∈ t.partialNames ↔
      ∃ raw, .tag raw ∈ (scan source d).tokens ∧ raw.sigil = .angle ∧ raw.name source = name := by
  rw [partialNames_eq, mem_distinct, (perm_partialNames_of_compile h).mem_iff, List.mem_filterMap]
  simp only [Token.partialName?_eq_some_iff]
  constructor
  · rintro ⟨token, htoken, raw, rfl, hsigil, hname⟩
    exact ⟨raw, htoken, hsigil, hname⟩
  · rintro ⟨raw, hraw, hsigil, hname⟩
    exact ⟨_, hraw, raw, rfl, hsigil, hname⟩

/-- The partial at an index is part of the template and has this name. -/
def UsesPartial (t : Template) (i : Nat) (tag : Partial) : Prop :=
  t.Reaches i ∧ t.table.nodes[i]? = some (.partialTag tag)

/-- The partials that are listed are those that are reached from the root. -/
lemma mem_partialNames_iff_uses (h : compile source d = .ok t) :
    name ∈ t.partialNames ↔ ∃ i tag, t.UsesPartial i tag ∧ tag.name = name := by
  rw [mem_partialNames]
  constructor
  · rintro ⟨tag, htag, hname⟩
    obtain ⟨i, hi⟩ := List.mem_iff_getElem?.1 htag
    have hlt : i < t.nodeCount := (List.getElem?_eq_some_iff.1 hi).1
    exact ⟨i, tag, ⟨(wellFormed_of_compile h).2.reaches i hlt, hi⟩, hname⟩
  · rintro ⟨i, tag, ⟨-, hi⟩, hname⟩
    exact ⟨tag, List.mem_of_getElem? hi, hname⟩

end Template

/-- The nodes name one partial before they name another. -/
def NamesBefore (nodes : List Node) (a b : Text) : Prop :=
  ∃ front back, nodes = front ++ back ∧ (∃ tag, .partialTag tag ∈ front ∧ tag.name = a) ∧
    ∀ tag, .partialTag tag ∈ front → tag.name ≠ b

/-- The partials are listed in the order in which the table comes to them first. -/
lemma Template.pairwise_partialNames (t : Template) :
    t.partialNames.Pairwise (NamesBefore t.table.nodes) := by
  rw [partialNames_eq]
  refine (pairwise_distinct _).imp fun {a b} hbefore => ?_
  obtain ⟨front, back, hnames, ha, hb⟩ := hbefore
  obtain ⟨nodes, later, htable, rfl, rfl⟩ := List.filterMap_eq_append_iff.1 hnames
  refine ⟨nodes, later, htable, ?_, ?_⟩
  · obtain ⟨node, hnode, hname⟩ := List.mem_filterMap.1 ha
    obtain ⟨tag, rfl, hsame⟩ := Node.partialName?_eq_some_iff.1 hname
    exact ⟨tag, hnode, hsame⟩
  · rintro tag htag rfl
    exact hb (List.mem_filterMap.2 ⟨_, htag, rfl⟩)

end Mustache
