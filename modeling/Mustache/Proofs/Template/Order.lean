import Mustache.Proofs.Template.Subtrees
import Mustache.Proofs.Template.Trimming

/-!
# Order

The marks of a template follow one another through its source without overlap. So do the trees of
a sequence, each taking up a part of the source, and the body of a section lies between its two
tags.
-/

namespace Mustache

/-- The part of the source that a tree takes up: of a section, its opening tag and its body. -/
def Tree.extent : Tree → Span
  | .text span            => span
  | .variableTag tag      => tag.span
  | .sectionTag heading _ => ⟨heading.span.start, heading.inner.stop⟩
  | .partialTag tag       => tag.span

/-- The part of the source that a mark takes up; the end of a body takes up none. -/
def Mark.span : Mark Tree → Span
  | .leaf t         => t.extent
  | .opening o      => o.span
  | .closing _ stop => ⟨stop, stop⟩

/-- A mark at its place in the source. -/
def Mark.Sits (source : Text) : Mark Tree → Prop
  | .leaf t         => t.extent.LiesIn source ∧ t.extent.start < t.extent.stop
  | .opening o      =>
    o.span.LiesIn source ∧ o.span.start < o.span.stop ∧ o.bodyStart = o.span.stop
  | .closing _ stop => source.IsBoundary stop

/-- Marks that follow one another without overlap. -/
def InOrder (ms : List (Mark Tree)) : Prop :=
  ms.Pairwise fun a b => a.span.stop ≤ b.span.start

/-! ### The order of fragments -/

/-- The part of the source that a fragment takes up. -/
def Fragment.span : Fragment → Span
  | .text span => span
  | .tag raw _ => raw.span

lemma Tiles.start_lt_stop_of_mem {start stop : Nat} {spans : List Span}
    (h : Tiles start spans stop) :
    ∀ span ∈ spans, span.start < span.stop := by
  induction h with
  | nil n => simp
  | cons hne h ih => exact List.forall_mem_cons.2 ⟨hne, ih⟩

namespace Trimmed

variable {source : Text} {tokens : List Token} {fs : List Fragment} {start stop : Nat}

/-- Fragments take up parts of what their tokens take up, and so keep their order. -/
lemma pairwise (h : Trimmed source tokens fs)
    (htiles : Tiles start (tokens.map Token.span) stop) :
    (∀ f ∈ fs, start ≤ f.span.start) ∧ fs.Pairwise fun f g => f.span.stop ≤ g.span.start := by
  induction h generalizing start with
  | nil => simp
  | gone hink h ih =>
    cases htiles with
    | cons hne htiles =>
      obtain ⟨hstart, hpairwise⟩ := ih htiles
      exact ⟨fun f hf => Nat.le_trans (Nat.le_of_lt hne) (hstart f hf), hpairwise⟩
  | text hlies hlt hstart hstop hink h ih =>
    cases htiles with
    | cons hne htiles =>
      obtain ⟨hlater, hpairwise⟩ := ih htiles
      refine ⟨List.forall_mem_cons.2 ⟨hstart, fun f hf => ?_⟩, List.pairwise_cons.2 ⟨?_, hpairwise⟩⟩
      · exact Nat.le_trans (Nat.le_of_lt hne) (hlater f hf)
      · intro f hf
        exact Nat.le_trans hstop (hlater f hf)
  | tag raw indent h ih =>
    cases htiles with
    | cons hne htiles =>
      obtain ⟨hlater, hpairwise⟩ := ih htiles
      refine ⟨List.forall_mem_cons.2 ⟨Nat.le_refl _, fun f hf => ?_⟩,
        List.pairwise_cons.2 ⟨hlater, hpairwise⟩⟩
      exact Nat.le_trans (Nat.le_of_lt hne) (hlater f hf)

/-- Fragments take up parts of the source that are not empty, as tokens do. -/
lemma liesIn (h : Trimmed source tokens fs)
    (htokens : ∀ token ∈ tokens, token.span.LiesIn source ∧ token.span.start < token.span.stop) :
    ∀ f ∈ fs, f.span.LiesIn source ∧ f.span.start < f.span.stop := by
  induction h with
  | nil => simp
  | gone hink h ih => exact ih (List.forall_mem_cons.1 htokens).2
  | text hlies hne hstart hstop hink h ih =>
    exact List.forall_mem_cons.2 ⟨⟨hlies, hne⟩, ih (List.forall_mem_cons.1 htokens).2⟩
  | tag raw indent h ih =>
    obtain ⟨htag, hlater⟩ := List.forall_mem_cons.1 htokens
    exact List.forall_mem_cons.2 ⟨htag, ih hlater⟩

end Trimmed

/-! ### The order of marks -/

/-- A mark lies in the fragment that it comes from. -/
lemma Fragment.sits_of_mark? {source : Text} {f : Fragment} {m : Mark Tree}
    (hlies : f.span.LiesIn source) (hne : f.span.start < f.span.stop)
    (h : f.mark? source = some m) :
    m.Sits source ∧ f.span.start ≤ m.span.start ∧ m.span.stop ≤ f.span.stop := by
  cases f with
  | text span =>
    obtain rfl : Mark.leaf (.text span) = m := Option.some.inj h
    exact ⟨⟨hlies, hne⟩, Nat.le_refl _, Nat.le_refl _⟩
  | tag raw indent =>
    rw [mark?] at h
    split at h
    · next means _ =>
      cases means with
      | variableTag path escaped =>
        obtain rfl := Option.some.inj h
        exact ⟨⟨hlies, hne⟩, Nat.le_refl _, Nat.le_refl _⟩
      | openTag path inverted =>
        obtain rfl := Option.some.inj h
        exact ⟨⟨hlies, hne, rfl⟩, Nat.le_refl _, Nat.le_refl _⟩
      | closeTag path =>
        obtain rfl := Option.some.inj h
        exact ⟨hlies.start, Nat.le_refl _, Nat.le_of_lt hne⟩
      | partialTag name =>
        obtain rfl := Option.some.inj h
        exact ⟨⟨hlies, hne⟩, Nat.le_refl _, Nat.le_refl _⟩
      | commentTag | delimiterTag => simp [Tag.mark?] at h
    · simp at h

/-- The marks of a template sit in its source, in order. -/
theorem Template.inOrder_of_compile {source : Text} {d : Delimiters} {t : Template}
    (h : compile source d = .ok t) :
    (∀ m ∈ Tree.marksAll t.trees, m.Sits source) ∧ InOrder (Tree.marksAll t.trees) := by
  have hdissection := (Scanner.rounds_run (.start source d)).dissection
    (List.nil_append source).symm rfl
  obtain ⟨stop, htiles, -⟩ := hdissection.tiles
  have htrimmed := trimmed_scan source d
  have htokens : ∀ token ∈ (scan source d).tokens,
      token.span.LiesIn source ∧ token.span.start < token.span.stop := fun token htoken =>
    ⟨hdissection.span_liesIn token htoken,
      htiles.start_lt_stop_of_mem _ (List.mem_map_of_mem htoken)⟩
  have hfragments := htrimmed.liesIn htokens
  rw [marksAll_of_compile h]
  constructor
  · intro m hm
    obtain ⟨f, hf, hmark⟩ := List.mem_filterMap.1 hm
    exact (Fragment.sits_of_mark? (hfragments f hf).1 (hfragments f hf).2 hmark).1
  · rw [InOrder, List.pairwise_filterMap]
    refine (htrimmed.pairwise htiles).2.imp_of_mem fun {f g} hf hg hle m hm m' hm' => ?_
    have hfirst := Fragment.sits_of_mark? (hfragments f hf).1 (hfragments f hf).2 hm
    have hlater := Fragment.sits_of_mark? (hfragments g hg).1 (hfragments g hg).2 hm'
    exact Nat.le_trans hfirst.2.2 (Nat.le_trans hle hlater.2.1)

/-! ### The order of trees -/

namespace Tree

variable {source : Text} {heading : Heading} {body : List Tree}

/-- A tree starts with a mark. -/
lemma exists_mem_marks_start (t : Tree) : ∃ m ∈ t.marks, m.span.start = t.extent.start := by
  cases t with
  | text span => exact ⟨.leaf (.text span), by simp, rfl⟩
  | variableTag tag => exact ⟨.leaf (.variableTag tag), by simp, rfl⟩
  | partialTag tag => exact ⟨.leaf (.partialTag tag), by simp, rfl⟩
  | sectionTag heading body => exact ⟨.opening heading.opening, by simp, rfl⟩

/-- A tree ends with a mark. -/
lemma exists_mem_marks_stop (t : Tree) : ∃ m ∈ t.marks, m.span.stop = t.extent.stop := by
  cases t with
  | text span => exact ⟨.leaf (.text span), by simp, rfl⟩
  | variableTag tag => exact ⟨.leaf (.variableTag tag), by simp, rfl⟩
  | partialTag tag => exact ⟨.leaf (.partialTag tag), by simp, rfl⟩
  | sectionTag heading body => exact ⟨.closing heading.path heading.inner.stop, by simp, rfl⟩

lemma pairwise_extent {ts : List Tree} (h : InOrder (marksAll ts)) :
    ts.Pairwise fun t u => t.extent.stop ≤ u.extent.start := by
  rw [InOrder, marksAll_eq_flatMap, List.pairwise_flatMap] at h
  refine h.2.imp fun {t u} hmarks => ?_
  obtain ⟨m, hm, hstop⟩ := t.exists_mem_marks_stop
  obtain ⟨m', hm', hstart⟩ := u.exists_mem_marks_start
  rw [← hstop, ← hstart]
  exact hmarks m hm m' hm'

/-- A section at its place in the source, with the trees of its body in order between its tags. -/
structure Encloses (source : Text) (heading : Heading) (body : List Tree) : Prop where
  span_liesIn : heading.span.LiesIn source
  inner_liesIn : heading.inner.LiesIn source
  start_lt_stop : heading.span.start < heading.inner.stop
  start_inner : heading.inner.start = heading.span.stop
  within : ∀ t ∈ body, heading.inner.start ≤ t.extent.start ∧ t.extent.stop ≤ heading.inner.stop
  pairwise : body.Pairwise fun t u => t.extent.stop ≤ u.extent.start

lemma encloses_of_inOrder (hsits : ∀ m ∈ (sectionTag heading body).marks, m.Sits source)
    (h : InOrder (sectionTag heading body).marks) : Encloses source heading body := by
  simp only [marks_sectionTag, List.forall_mem_cons, List.forall_mem_append] at hsits
  obtain ⟨⟨hlies, hlt, hstart⟩, -, hstop, -⟩ := hsits
  rw [InOrder, marks_sectionTag, List.pairwise_cons, List.pairwise_append] at h
  obtain ⟨hopening, hbody, -, hclosing⟩ := h
  have hstart : heading.inner.start = heading.span.stop := hstart
  have hinner : heading.span.stop ≤ heading.inner.stop :=
    hopening (.closing heading.path heading.inner.stop) (by simp)
  refine ⟨hlies, ⟨?_, ?_, hstop⟩, ?_, hstart, fun t ht => ⟨?_, ?_⟩, pairwise_extent hbody⟩
  · exact hstart.trans_le hinner
  · exact hstart ▸ hlies.stop
  · exact Nat.lt_of_lt_of_le hlt hinner
  · obtain ⟨m, hm, hmstart⟩ := t.exists_mem_marks_start
    have hmem : m ∈ marksAll body := by
      rw [marksAll_eq_flatMap]
      exact List.mem_flatMap_of_mem ht hm
    rw [← hmstart]
    exact hstart.trans_le (hopening m (List.mem_append_left _ hmem))
  · obtain ⟨m, hm, hmstop⟩ := t.exists_mem_marks_stop
    have hmem : m ∈ marksAll body := by
      rw [marksAll_eq_flatMap]
      exact List.mem_flatMap_of_mem ht hm
    rw [← hmstop]
    exact hclosing m hmem _ (List.mem_singleton_self _)

end Tree

end Mustache
