import Mathlib.Tactic.Common
import Mustache.Span

/-!
# Brackets

Opening and closing tags are brackets with names. `Balanced` says which sequences of brackets are
nested correctly, and `LeavesOpen` which sections a sequence leaves open that can still be
completed to such a one. Both are told without a stack; `settle?` is the stack that decides them.
-/

namespace Mustache

/-- What a tag is to the nesting of sections. An opening bracket stands at a span. -/
inductive Bracket
  | opening (name : Text) (span : Span)
  | closing (name : Text)

/-- Names and opening tags of sections that are open, innermost first. -/
abbrev OpenNames := List (Text × Span)

namespace Bracket

/-- A correctly nested sequence: every bracket is closed by one with the same name. -/
inductive Balanced : List Bracket → Prop
  | nil : Balanced []
  | enclose {inner after : List Bracket} (name : Text) (span : Span) (hinner : Balanced inner)
      (hafter : Balanced after) :
      Balanced (opening name span :: inner ++ closing name :: after)

/-- A sequence that leaves sections open: correctly nested sequences, with the opening brackets of
these sections between them. -/
inductive LeavesOpen : List Bracket → OpenNames → Prop
  | nil : LeavesOpen [] []
  | balanced {bs more : List Bracket} {opens : OpenNames} (h : LeavesOpen bs opens)
      (hmore : Balanced more) : LeavesOpen (bs ++ more) opens
  | opened {bs : List Bracket} {opens : OpenNames} (h : LeavesOpen bs opens) (name : Text)
      (span : Span) : LeavesOpen (bs ++ [opening name span]) ((name, span) :: opens)

variable {bs more : List Bracket} {opens outer : OpenNames} {name : Text} {span : Span}

lemma Balanced.append (h : Balanced bs) (hmore : Balanced more) : Balanced (bs ++ more) := by
  induction h with
  | nil => exact hmore
  | enclose name span hinner _ _ ih =>
    rw [List.append_assoc, List.cons_append]
    exact .enclose name span hinner ih

lemma Balanced.enclose_all (h : Balanced bs) (name : Text) (span : Span) :
    Balanced (opening name span :: bs ++ [closing name]) := .enclose name span h .nil

/-- Nothing is left open just by the correctly nested sequences. -/
theorem leavesOpen_nil_iff : LeavesOpen bs [] ↔ Balanced bs := by
  constructor
  · intro h
    generalize hopens : ([] : OpenNames) = opens at h
    induction h with
    | nil => exact .nil
    | balanced _ hmore ih => exact (ih hopens).append hmore
    | opened => simp at hopens
  · intro h
    exact LeavesOpen.nil.balanced h

/-- The innermost open section, and what was open in front of it. -/
lemma LeavesOpen.exists_eq_append (h : LeavesOpen bs ((name, span) :: outer)) :
    ∃ before inner, bs = before ++ opening name span :: inner ∧ LeavesOpen before outer ∧
      Balanced inner := by
  generalize hopens : (name, span) :: outer = opens at h
  induction h with
  | nil => simp at hopens
  | @balanced bs more opens _ hmore ih =>
    obtain ⟨before, inner, rfl, hbefore, hinner⟩ := ih hopens
    exact ⟨before, inner ++ more, by simp, hbefore, hinner.append hmore⟩
  | @opened bs opens h name' span' =>
    obtain ⟨heq, rfl⟩ := List.cons.inj hopens
    obtain ⟨rfl, rfl⟩ := Prod.mk.inj heq
    exact ⟨bs, [], rfl, h, .nil⟩

lemma LeavesOpen.closing (h : LeavesOpen bs ((name, span) :: outer)) :
    LeavesOpen (bs ++ [closing name]) outer := by
  obtain ⟨before, inner, rfl, hbefore, hinner⟩ := h.exists_eq_append
  rw [List.append_assoc]
  exact hbefore.balanced (hinner.enclose_all name span)

/-! ### The stack -/

/-- The sections that are open after a bracket, if it can stand there. -/
def settle? : OpenNames → Bracket → Option OpenNames
  | opens,              .opening name span => some ((name, span) :: opens)
  | [],                 .closing _         => none
  | (name, _) :: outer, .closing name'     => if name = name' then some outer else none

lemma Balanced.foldlM_settle? (h : Balanced bs) (opens : OpenNames) :
    bs.foldlM settle? opens = some opens := by
  induction h generalizing opens with
  | nil => rfl
  | @enclose inner after name span _ _ ihinner ihafter =>
    have hopen : settle? opens (opening name span) = some ((name, span) :: opens) := by
      cases opens <;> rfl
    have hclose : settle? ((name, span) :: opens) (closing name) = some opens := if_pos rfl
    rw [List.cons_append, List.foldlM_cons, hopen, Option.bind_eq_bind, Option.bind_some,
      List.foldlM_append, ihinner, Option.bind_eq_bind, Option.bind_some, List.foldlM_cons, hclose]
    exact ihafter opens

/-- The stack goes on as long as no bracket is out of place. -/
lemma LeavesOpen.settle {b : Bracket} {after : OpenNames} (h : LeavesOpen bs opens)
    (hb : settle? opens b = some after) : LeavesOpen (bs ++ [b]) after := by
  cases b with
  | opening name span =>
    obtain rfl : (name, span) :: opens = after := by
      cases opens <;> exact Option.some.inj hb
    exact h.opened name span
  | closing name' =>
    cases opens with
    | nil => simp [settle?] at hb
    | cons s outer =>
      obtain ⟨name, span⟩ := s
      rw [settle?] at hb
      split at hb
      · next heq =>
        obtain rfl : outer = after := Option.some.inj hb
        exact heq ▸ h.closing
      · simp at hb

lemma LeavesOpen.foldlM_settle {after : OpenNames} (h : LeavesOpen bs opens)
    (hmore : more.foldlM settle? opens = some after) : LeavesOpen (bs ++ more) after := by
  induction more generalizing bs opens with
  | nil =>
    obtain rfl : opens = after := Option.some.inj hmore
    rwa [List.append_nil]
  | cons b more ih =>
    rw [List.foldlM_cons, Option.bind_eq_bind, Option.bind_eq_some_iff] at hmore
    obtain ⟨next, hb, hmore⟩ := hmore
    rw [List.append_cons]
    exact ih (h.settle hb) hmore

/-- The stack holds the sections that are left open. -/
theorem foldlM_settle?_eq_some_iff : bs.foldlM settle? [] = some opens ↔ LeavesOpen bs opens := by
  constructor
  · intro h
    exact LeavesOpen.nil.foldlM_settle h
  · intro h
    induction h with
    | nil => rfl
    | balanced _ hmore ih =>
      rw [List.foldlM_append, ih]
      exact hmore.foldlM_settle? _
    | @opened bs opens _ name span ih =>
      rw [List.foldlM_append, ih]
      cases opens <;> rfl

end Bracket

end Mustache
