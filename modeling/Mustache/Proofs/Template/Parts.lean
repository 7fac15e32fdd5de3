import Mustache.Proofs.Template.Acceptance
import Mustache.Proofs.Token.Continued

/-!
# Parts of a source

The tags of a part of a source stand in the source as well, moved right by what is in front of the
part. They have the same names there, and so the same faults and the same brackets.
-/

namespace Mustache

/-! ### Brackets elsewhere -/

/-- A bracket moved right by `n` bytes. -/
def Bracket.shift (n : Nat) : Bracket → Bracket
  | .opening name span => .opening name (span.shift n)
  | .closing name      => .closing name

lemma Bracket.exists_eq_of_shift_eq_opening {b : Bracket} {n : Nat} {name : Text} {span : Span}
    (h : b.shift n = .opening name span) : ∃ span', b = .opening name span' := by
  cases b with
  | opening name' span' =>
    rw [shift, Bracket.opening.injEq] at h
    exact ⟨span', by rw [h.1]⟩
  | closing name' => simp [shift] at h

lemma Bracket.eq_of_shift_eq_closing {b : Bracket} {n : Nat} {name : Text}
    (h : b.shift n = .closing name) : b = .closing name := by
  cases b with
  | opening name' span' => simp [shift] at h
  | closing name' => exact h

/-- Balance does not depend on where brackets stand. -/
lemma Bracket.Balanced.of_map_shift {bs : List Bracket} {n : Nat}
    (h : Balanced (bs.map (Bracket.shift n))) : Balanced bs := by
  generalize hms : bs.map (Bracket.shift n) = ms at h
  induction h generalizing bs with
  | nil =>
    obtain rfl := List.map_eq_nil_iff.1 hms
    exact .nil
  | enclose name span hinner hafter ihinner ihafter =>
    rw [List.cons_append, List.map_eq_cons_iff] at hms
    obtain ⟨o, bs, rfl, ho, hms⟩ := hms
    obtain ⟨inner, bs, rfl, hinner, hms⟩ := List.map_eq_append_iff.1 hms
    obtain ⟨c, after, rfl, hc, hafter⟩ := List.map_eq_cons_iff.1 hms
    obtain ⟨span', rfl⟩ := Bracket.exists_eq_of_shift_eq_opening ho
    obtain rfl := Bracket.eq_of_shift_eq_closing hc
    exact .enclose name span' (ihinner hinner) (ihafter hafter)

lemma Bracket.Balanced.map_shift {bs : List Bracket} (h : Balanced bs) (n : Nat) :
    Balanced (bs.map (Bracket.shift n)) := by
  induction h with
  | nil => exact .nil
  | enclose name span hinner hafter ihinner ihafter =>
    rw [List.cons_append, List.map_cons, List.map_append, List.map_cons]
    exact .enclose name (span.shift n) ihinner ihafter

/-- Open sections whose tags are moved right by `n` bytes. -/
def OpenNames.shift (n : Nat) (opens : OpenNames) : OpenNames :=
  opens.map fun (name, span) => (name, span.shift n)

@[simp] lemma OpenNames.shift_zero (opens : OpenNames) : opens.shift 0 = opens := List.map_id opens

lemma Bracket.LeavesOpen.map_shift {bs : List Bracket} {opens : OpenNames}
    (h : LeavesOpen bs opens) (n : Nat) :
    LeavesOpen (bs.map (Bracket.shift n)) (OpenNames.shift n opens) := by
  induction h with
  | nil => exact .nil
  | balanced _ hmore ih =>
    rw [List.map_append]
    exact ih.balanced (hmore.map_shift n)
  | opened _ name span ih =>
    rw [List.map_append]
    exact ih.opened name (span.shift n)

/-! ### Tags elsewhere -/

section
variable {source source' before part after : Text} {raw : RawTag} {tokens : List Token}
  {opens : OpenNames} {fault : ParseFault} {n : Nat}

/-- A tag of a part of a source has the same name in the source. -/
lemma RawTag.name_shift (hsource : source = before ++ part ++ after)
    (hcontent : raw.content.LiesIn part) :
    (raw.shift before.byteSize).name source = raw.name part := Span.slice_shift hsource hcontent

lemma RawTag.WellNamed.shift (h : raw.WellNamed source)
    (hname : (raw.shift n).name source' = raw.name source) : (raw.shift n).WellNamed source' where
  isName := by
    rw [hname]
    exact h.isName
  ne_nil := by
    rw [hname]
    exact h.ne_nil

lemma RawTag.bracket?_shift (hname : (raw.shift n).name source' = raw.name source) :
    (raw.shift n).bracket? source' = (raw.bracket? source).map (Bracket.shift n) := by
  have hsigil : (raw.shift n).sigil = raw.sigil := rfl
  rw [bracket?, bracket?, hname, hsigil]
  cases raw.sigil <;> rfl

/-- What is wrong with a tag is told by its name and the open sections. -/
lemma Violates.shift (h : Violates source opens raw fault)
    (hname : (raw.shift n).name source' = raw.name source) :
    Violates source' (opens.shift n) (raw.shift n) fault := by
  cases h with
  | name hfault =>
    refine .name ?_
    cases hfault with
    | empty hsigil hempty => exact .empty hsigil (hname.trans hempty)
    | invalid hsigil hne hinvalid =>
      rw [← hname] at hne hinvalid ⊢
      exact .invalid hsigil hne hinvalid
  | unexpected hsigil hwell hopens =>
    rw [← hname]
    exact .unexpected hsigil (hwell.shift hname) (by rw [hopens]; rfl)
  | mismatched hsigil hwell hopens hne =>
    rw [← hname] at hne ⊢
    exact .mismatched hsigil (hwell.shift hname) (by rw [hopens]; rfl) hne

variable (hname : ∀ raw, .tag raw ∈ tokens → (raw.shift n).name source' = raw.name source)

include hname

lemma brackets_shift :
    brackets source' (tokens.map (Token.shift n)) =
      (brackets source tokens).map (Bracket.shift n) := by
  rw [brackets, brackets, List.filterMap_map, List.map_filterMap]
  apply List.filterMap_congr
  intro token htoken
  cases token with
  | text span => rfl
  | tag raw => exact RawTag.bracket?_shift (hname raw htoken)

/-- Sound tokens are sound elsewhere, if their names are the same there. -/
lemma Sound.shift (h : Sound source tokens opens) :
    Sound source' (tokens.map (Token.shift n)) (opens.shift n) where
  wellNamed := by
    intro raw' hraw'
    obtain ⟨token, htoken, heq⟩ := List.mem_map.1 hraw'
    cases token with
    | text span => simp [Token.shift] at heq
    | tag raw =>
      obtain rfl := Token.tag.inj heq
      exact (h.wellNamed raw htoken).shift (hname raw htoken)
  leavesOpen := by
    rw [brackets_shift hname]
    exact h.leavesOpen.map_shift n

end

end Mustache
