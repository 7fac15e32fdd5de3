import Mustache.Text.Blank

/-!
# Paths and queries

The name in a tag is a path: segments joined by dots, each non-empty and free of blanks. A dot
alone is the implicit path, which has no segments and names the current context itself. Reading a
name and showing a path undo each other. A query is a path together with the index of an element,
if one is asked for.
-/

namespace Mustache

/-- The segments of a dotted name, outermost first. -/
structure Path where
  segments : List Text
  deriving DecidableEq, Repr

/-- Why a text is not a name. -/
inductive PathError
  | empty
  | malformed (name : Text)
  deriving DecidableEq, Repr

/-- Whether a text can be a segment of a name that contains it between dots. -/
def isSegment (t : Text) : Bool := t ≠ [] && !t.any isBlank

namespace Path

/-- The path of a dot alone. -/
def implicit : Path := ⟨[]⟩

/-- Whether the path is that of a dot alone. -/
def isImplicit (p : Path) : Bool := p.segments.isEmpty

/-- Reads a dotted name. -/
def parse (name : Text) : Except PathError Path :=
  if name = [] then .error .empty
  else if name = ['.'] then .ok implicit
  else
    let segments := name.pieces (· = '.')
    if segments.all isSegment then .ok ⟨segments⟩ else .error (.malformed name)

/-- The segments with dots between them; a dot alone if there are none. -/
def joined : List Text → Text
  | []        => ['.']
  | [s]       => s
  | s :: rest => s ++ '.' :: joined rest

/-- The name that a path is written as. -/
def display (p : Path) : Text := joined p.segments

@[simp] theorem display_implicit : implicit.display = ['.'] := rfl

/-! ### Reading and showing undo each other -/

theorem joined_cons {s : Text} {rest : List Text} (h : rest ≠ []) :
    joined (s :: rest) = s ++ '.' :: joined rest := by
  cases rest with
  | nil => exact absurd rfl h
  | cons _ _ => rfl

/-- Dots between the pieces of a name give the name again. -/
theorem joined_pieces (name : Text) : joined (name.pieces (· = '.')) = name := by
  induction name with
  | nil => rfl
  | cons c cs ih =>
    unfold Text.pieces
    split
    · next h =>
      rw [joined_cons (Text.pieces_ne_nil _ _), ih, List.nil_append, of_decide_eq_true h]
    · cases h : Text.pieces (· = '.') cs with
      | nil => exact absurd h (Text.pieces_ne_nil _ _)
      | cons s rest =>
        rw [h] at ih
        rw [← ih]
        cases rest <;> rfl

/-- A name that can be read is what its path is shown as. -/
theorem display_of_parse {name : Text} {p : Path} (h : parse name = .ok p) : p.display = name := by
  unfold parse at h
  split at h
  · simp at h
  · split at h
    · next hn =>
      rw [Except.ok.injEq] at h
      rw [← h, hn, display_implicit]
    · simp only at h
      split at h
      · rw [Except.ok.injEq] at h
        rw [← h]
        exact joined_pieces name
      · simp at h

theorem pieces_joined {segments : List Text} (hne : segments ≠ [])
    (h : ∀ s ∈ segments, '.' ∉ s) : Text.pieces (· = '.') (joined segments) = segments := by
  induction segments with
  | nil => exact absurd rfl hne
  | cons s rest ih =>
    have hs : ∀ c ∈ s, decide (c = '.') = false := fun c hc =>
      decide_eq_false fun hdot => h s List.mem_cons_self (hdot ▸ hc)
    cases rest with
    | nil => exact Text.pieces_of_forall hs
    | cons s' rest =>
      rw [joined_cons (by simp), Text.pieces_append_cons hs rfl,
        ih (by simp) fun t ht => h t (List.mem_cons_of_mem _ ht)]

/-- A path whose segments fit into a name is read from what it is shown as. -/
theorem parse_display {p : Path} (h : ∀ s ∈ p.segments, isSegment s ∧ '.' ∉ s) :
    parse p.display = .ok p := by
  obtain ⟨segments⟩ := p
  by_cases hne : segments = []
  · rw [hne]
    rfl
  · have hp : Text.pieces (· = '.') (joined segments) = segments :=
      pieces_joined hne fun s hs => (h s hs).2
    have hempty : ([] : Text) ∉ segments := fun hm => by simpa [isSegment] using (h [] hm).1
    have hnil : joined segments ≠ [] := fun e => by
      rw [e] at hp
      exact hempty (by rw [← hp]; simp [Text.pieces])
    have hdot : joined segments ≠ ['.'] := fun e => by
      rw [e] at hp
      exact hempty (by rw [← hp]; simp [Text.pieces])
    have hall : segments.all isSegment := List.all_eq_true.2 fun s hs => (h s hs).1
    simp [parse, display, hnil, hdot, hp, hall]

end Path

/-- A path, with the index of an element of what it names if one is asked for. -/
structure Query where
  segments : List Text
  index : Option Nat
  deriving DecidableEq, Repr

namespace Query

/-- The query for what a path names. -/
def whole (p : Path) : Query := ⟨p.segments, none⟩

/-- The query for one element of what a path names. -/
def element (p : Path) (index : Nat) : Query := ⟨p.segments, some index⟩

/-- The first segment, and the query for the rest inside what that segment names. -/
def uncons? (q : Query) : Option (Text × Query) :=
  match q.segments with
  | []        => none
  | s :: rest => some (s, ⟨rest, q.index⟩)

/-- The name of the path, followed by the index in brackets. -/
def display (q : Query) : Text :=
  Path.joined q.segments ++
    match q.index with
    | none   => []
    | some i => '[' :: Text.ofNat i ++ [']']

@[simp] theorem display_whole (p : Path) : (whole p).display = p.display := by
  simp [display, whole, Path.display]

end Query

end Mustache
