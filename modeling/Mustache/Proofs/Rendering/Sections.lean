import Mustache.Proofs.Rendering.History

/-!
# Sections

What a section does is told by the calls it makes: it asks frames of the stack for elements, renders
its body with a stack, or has a lambda expanded. The sequences of calls that a section can make are
few, and a rendering of the section is the same as making the calls of one of them in their order.
Which one it is depends on the answers of the host alone.
-/

namespace Mustache

variable {F σ τ : Type}

/-! ### Calls -/

/-- What a section may do. -/
inductive SectionCall (F : Type)
  /-- It asks a frame for the element at an index and gets this answer, or a failure. -/
  | ask (frame : F) (index : Nat) (answer : Except ResolveError (Lookup F))
  /-- It renders its body with this stack. -/
  | body (scope : List F)
  /-- It has the lambda of a frame expanded. -/
  | expand (frame : F)
  /-- It gives up, since there is no fuel for another element. -/
  | giveUp

/-- Whether the section is there for the reader: its body is rendered, or its lambda is expanded. -/
def SectionCall.isActive : SectionCall F → Bool
  | .body _   => true
  | .expand _ => true
  | _         => false

/-- Frames that do not know the path are asked for its first element, one after the other. -/
def passedOver (frames : List F) : List (SectionCall F) :=
  frames.map (.ask · 0 (.ok .notFound))

/-- For each element from an index on, the owner is asked for it, and the body is rendered with it
on top of the stack. -/
def turns (owner : F) (scope : List F) : Nat → List F → List (SectionCall F)
  | _,     []                => []
  | index, child :: children =>
    .ask owner index (.ok (.field child)) :: .body (child :: scope) ::
      turns owner scope (index + 1) children

/-- The call after the last of so many elements: the owner has something else at the next index, or
there have been too many elements for the fuel. -/
inductive LastCall (fuel : Nat) (owner : F) : Nat → SectionCall F → Prop
  | ask {n : Nat} {answer : Except ResolveError (Lookup F)} (hfuel : n ≤ fuel)
      (h : ∀ child, answer ≠ .ok (.field child)) : LastCall fuel owner n (.ask owner n answer)
  | giveUp : LastCall fuel owner (fuel + 1) .giveUp

/-- The calls that a section can make of the owner of its path, where the stack is `scope`. The flag
tells whether the section is inverted. -/
inductive OwnerPlan (fuel : Nat) (scope : List F) (owner : F) : Bool → List (SectionCall F) → Prop
  /-- The host fails. -/
  | failed (inverted : Bool) (e : ResolveError) :
      OwnerPlan fuel scope owner inverted [.ask owner 0 (.error e)]
  /-- There is no element. -/
  | nothing {answer : Lookup F} (h : answer = .broken ∨ answer = .consumed) :
      OwnerPlan fuel scope owner false [.ask owner 0 (.ok answer)]
  /-- There is no element, and this is what an inverted section is for. -/
  | nothingInverted {answer : Lookup F} (h : answer = .broken ∨ answer = .consumed) :
      OwnerPlan fuel scope owner true [.ask owner 0 (.ok answer), .body scope]
  /-- There is a lambda instead of elements. -/
  | lambda : OwnerPlan fuel scope owner false [.ask owner 0 (.ok .lambda), .expand owner]
  /-- There are elements: each has its turn, and then something else is at the next index. -/
  | elements {children : List F} {last : SectionCall F} (hne : children ≠ [])
      (hlast : LastCall fuel owner children.length last) :
      OwnerPlan fuel scope owner false (turns owner scope 0 children ++ [last])
  /-- There is something, and an inverted section does no more. -/
  | somethingInverted {answer : Lookup F} (h : answer = .lambda ∨ ∃ child, answer = .field child) :
      OwnerPlan fuel scope owner true [.ask owner 0 (.ok answer)]

/-- The calls that a section can make where the stack is `scope`: all frames are passed over, or
those in front of the owner are, and the ones behind it are not asked. -/
inductive SectionPlan (fuel : Nat) (scope : List F) (inverted : Bool) :
    List (SectionCall F) → Prop
  | nobody : SectionPlan fuel scope inverted
      (passedOver scope ++ if inverted then [.body scope] else [])
  | owned {passed later : List F} {owner : F} {calls : List (SectionCall F)}
      (hscope : scope = passed ++ owner :: later) (h : OwnerPlan fuel scope owner inverted calls) :
      SectionPlan fuel scope inverted (passedOver passed ++ calls)

section

variable {fuel n : Nat} {owner : F} {call : SectionCall F}

lemma lastCall_iff :
    LastCall fuel owner n call ↔
      (∃ answer, n ≤ fuel ∧ (∀ child, answer ≠ .ok (.field child)) ∧ call = .ask owner n answer) ∨
        n = fuel + 1 ∧ call = .giveUp := by
  constructor
  · intro h
    cases h with
    | ask hfuel h => exact .inl ⟨_, hfuel, h, rfl⟩
    | giveUp => exact .inr ⟨rfl, rfl⟩
  · rintro (⟨answer, hfuel, h, rfl⟩ | ⟨rfl, rfl⟩)
    · exact .ask hfuel h
    · exact .giveUp

lemma exists_lastCall (h : n ≤ fuel + 1) (owner : F) : ∃ last, LastCall fuel owner n last := by
  rcases Nat.le_or_eq_of_le_succ h with h | rfl
  · exact ⟨.ask owner n (.ok .consumed), .ask h fun _ => nofun⟩
  · exact ⟨.giveUp, .giveUp⟩

end

namespace Renderer

variable (r : Renderer F σ τ) (below : Nested F σ τ) (here : Setting F) (tag : Section)

/-- How a call of a section ends. -/
inductive CallEnds : SectionCall F → RenderState F σ τ →
    EStateM.Result Halt (RenderState F σ τ) Unit → Prop
  | ask {frame : F} {index : Nat} {answer : Lookup F} {s s₁ : RenderState F σ τ}
      (h : r.lookUp frame tag.path index s = .ok (.ok answer) s₁) :
      CallEnds (.ask frame index (.ok answer)) s (.ok () s₁)
  | fail {frame : F} {index : Nat} {e : ResolveError} {s s₁ : RenderState F σ τ}
      (h : r.lookUp frame tag.path index s = .ok (.error e) s₁) :
      CallEnds (.ask frame index (.error e)) s
        (.error (.failed (.interpolation (Query.element tag.path index).reported.display e)) s₁)
  | body {scope : List F} {s : RenderState F σ τ}
      {ended : EStateM.Result Halt (RenderState F σ τ) Unit}
      (h : below { here with scope } tag.body s = ended) : CallEnds (.body scope) s ended
  | expand {frame : F} {s : RenderState F σ τ}
      {ended : EStateM.Result Halt (RenderState F σ τ) Unit}
      (h : r.expandLambda below here frame tag.path
        (.overSection (here.template.text tag.inner) tag.delimiters) s = ended) :
      CallEnds (.expand frame) s ended
  | giveUp (s : RenderState F σ τ) : CallEnds .giveUp s (.error .unfinished s)

/-- The calls are made one after the other, up to the first that fails, and come to this result. -/
inductive Makes : List (SectionCall F) → RenderState F σ τ →
    EStateM.Result Halt (RenderState F σ τ) Unit → Prop
  | done (s : RenderState F σ τ) : Makes [] s (.ok () s)
  | next {call : SectionCall F} {calls : List (SectionCall F)} {s s₁ : RenderState F σ τ}
      {result : EStateM.Result Halt (RenderState F σ τ) Unit}
      (h : r.CallEnds below here tag call s (.ok () s₁)) (hrest : Makes calls s₁ result) :
      Makes (call :: calls) s result
  | stop {call : SectionCall F} {calls : List (SectionCall F)} {s s₁ : RenderState F σ τ}
      {e : Halt} (h : r.CallEnds below here tag call s (.error e s₁)) :
      Makes (call :: calls) s (.error e s₁)

section

variable {r below here tag} {frame : F} {index : Nat} {calls : List (SectionCall F)}
  {s : RenderState F σ τ} {result : EStateM.Result Halt (RenderState F σ τ) Unit}

lemma makes_nil : r.Makes below here tag [] s result ↔ result = .ok () s := by
  constructor
  · rintro ⟨⟩
    rfl
  · rintro rfl
    exact .done s

lemma makes_ask_ok {answer : Lookup F} :
    r.Makes below here tag (.ask frame index (.ok answer) :: calls) s result ↔
      ∃ s₁, r.lookUp frame tag.path index s = .ok (.ok answer) s₁ ∧
        r.Makes below here tag calls s₁ result := by
  constructor
  · intro h
    cases h with
    | next h hrest =>
      cases h with
      | ask h => exact ⟨_, h, hrest⟩
    | stop h => cases h
  · rintro ⟨s₁, h, hrest⟩
    exact .next (.ask h) hrest

lemma makes_ask_error {e : ResolveError} :
    r.Makes below here tag (.ask frame index (.error e) :: calls) s result ↔
      ∃ s₁, r.lookUp frame tag.path index s = .ok (.error e) s₁ ∧ result =
        .error (.failed (.interpolation (Query.element tag.path index).reported.display e)) s₁ := by
  constructor
  · intro h
    cases h with
    | next h _ => cases h
    | stop h =>
      cases h with
      | fail h => exact ⟨_, h, rfl⟩
  · rintro ⟨s₁, h, rfl⟩
    exact .stop (.fail h)

lemma makes_body {scope : List F} :
    r.Makes below here tag (.body scope :: calls) s result ↔
      (∃ a s₁, below { here with scope } tag.body s = .ok a s₁ ∧
        r.Makes below here tag calls s₁ result) ∨
      ∃ e s₁, below { here with scope } tag.body s = .error e s₁ ∧ result = .error e s₁ := by
  constructor
  · intro h
    cases h with
    | next h hrest =>
      cases h with
      | body h => exact .inl ⟨_, _, h, hrest⟩
    | stop h =>
      cases h with
      | body h => exact .inr ⟨_, _, h, rfl⟩
  · rintro (⟨_, s₁, h, hrest⟩ | ⟨e, s₁, h, rfl⟩)
    · exact .next (.body h) hrest
    · exact .stop (.body h)

/-- A last call ends the section as it ends itself. -/
lemma makes_singleton {call : SectionCall F} :
    r.Makes below here tag [call] s result ↔ r.CallEnds below here tag call s result := by
  constructor
  · intro h
    cases h with
    | next h hrest =>
      cases hrest
      exact h
    | stop h => exact h
  · intro h
    cases result with
    | ok _ s₁ => exact .next h (.done s₁)
    | error e s₁ => exact .stop h

lemma makes_expand :
    r.Makes below here tag [.expand frame] s result ↔
      r.expandLambda below here frame tag.path
        (.overSection (here.template.text tag.inner) tag.delimiters) s = result := by
  rw [makes_singleton]
  constructor
  · intro h
    cases h with
    | expand h => exact h
  · exact .expand

lemma makes_giveUp :
    r.Makes below here tag [.giveUp] s result ↔ .error .unfinished s = result := by
  rw [makes_singleton]
  constructor
  · rintro ⟨⟩
    rfl
  · rintro rfl
    exact .giveUp s

/-! ### Elements -/

lemma lookUp_bind_eq_iff {α : Type} {path : Path}
    {next : Except ResolveError (Lookup F) → RenderM F σ τ α}
    {result : EStateM.Result Halt (RenderState F σ τ) α} :
    (r.lookUp frame path index >>= next) s = result ↔
      ∃ answer s₁, r.lookUp frame path index s = .ok answer s₁ ∧ next answer s₁ = result := by
  rw [bind_eq_iff]
  constructor
  · rintro (h | ⟨_, _, h, _⟩)
    · exact h
    · cases h
  · exact .inl

/-- With an element, there is a turn and more to do; whatever else the owner says is the end. -/
lemma renderElements_succ_eq_iff (hindex : index ≠ 0) {n : Nat} :
    r.renderElements frame tag.path (fun elem => below (here.inside elem) tag.body) (n + 1) index
        s = result ↔
      (∃ elem s₁, r.lookUp frame tag.path index s = .ok (.ok (.field elem)) s₁ ∧
        (below (here.inside elem) tag.body >>= fun _ => r.renderElements frame tag.path
          (fun elem => below (here.inside elem) tag.body) n (index + 1)) s₁ = result) ∨
      ∃ answer, (∀ child, answer ≠ .ok (.field child)) ∧
        r.Makes below here tag [.ask frame index answer] s result := by
  have hreported : (Query.element tag.path index).reported = .element tag.path index :=
    Query.reported_element_of_ne_zero hindex
  rw [renderElements, lookUp_bind_eq_iff]
  constructor
  · rintro ⟨answer, s₁, hlook, hnext⟩
    match answer with
    | .error e =>
      refine .inr ⟨.error e, fun _ => nofun, makes_ask_error.2 ⟨s₁, hlook, ?_⟩⟩
      rw [hreported]
      exact hnext.symm
    | .ok (.field elem) => exact .inl ⟨elem, s₁, hlook, hnext⟩
    | .ok .notFound | .ok .broken | .ok .consumed | .ok .lambda =>
      refine .inr ⟨_, ?_, makes_ask_ok.2 ⟨s₁, hlook, makes_nil.2 hnext.symm⟩⟩
      exact fun _ => nofun
  · rintro (⟨elem, s₁, hlook, hnext⟩ | ⟨answer, hanswer, hmakes⟩)
    · exact ⟨_, s₁, hlook, hnext⟩
    · match answer with
      | .error e =>
        obtain ⟨s₁, hlook, rfl⟩ := makes_ask_error.1 hmakes
        rw [hreported]
        exact ⟨_, s₁, hlook, rfl⟩
      | .ok (.field elem) => exact (hanswer elem rfl).elim
      | .ok .notFound | .ok .broken | .ok .consumed | .ok .lambda =>
        obtain ⟨s₁, hlook, hdone⟩ := makes_ask_ok.1 hmakes
        exact ⟨_, s₁, hlook, (makes_nil.1 hdone).symm⟩

/-- Rendering the elements from an index on. Induction on the fuel that is left, which bounds the
last index that may be asked for. -/
lemma renderElements_eq_iff {fuel n : Nat} (hindex : index ≠ 0) (hfuel : index + n = fuel + 1) :
    r.renderElements frame tag.path (fun elem => below (here.inside elem) tag.body) n index s =
        result ↔
      ∃ children last, LastCall fuel frame (index + children.length) last ∧
        r.Makes below here tag (turns frame here.scope index children ++ [last]) s result := by
  induction n generalizing index s with
  | zero =>
    obtain rfl : index = fuel + 1 := hfuel
    constructor
    · intro h
      exact ⟨[], .giveUp, .giveUp, makes_giveUp.2 h⟩
    · rintro ⟨children, last, hlast, hmakes⟩
      rcases lastCall_iff.1 hlast with ⟨_, hle, -⟩ | ⟨heq, rfl⟩
      · omega
      · obtain rfl : children = [] := List.eq_nil_of_length_eq_zero (by omega)
        exact makes_giveUp.1 hmakes
  | succ n ih =>
    have hle : index ≤ fuel := by omega
    have hnext : index + 1 + n = fuel + 1 := by omega
    have hlength : ∀ elem children, index + (elem :: children : List F).length =
        index + 1 + children.length := fun elem children => by rw [List.length_cons]; omega
    rw [renderElements_succ_eq_iff hindex]
    constructor
    · rintro (⟨elem, s₁, hlook, hrest⟩ | ⟨answer, hanswer, hmakes⟩)
      · rcases bind_eq_iff.1 hrest with ⟨_, s₂, hbody, hrest⟩ | hfailed
        · obtain ⟨children, last, hlast, hmakes⟩ := (ih (Nat.succ_ne_zero index) hnext).1 hrest
          refine ⟨elem :: children, last, hlength elem children ▸ hlast, ?_⟩
          exact makes_ask_ok.2 ⟨s₁, hlook, makes_body.2 (.inl ⟨_, s₂, hbody, hmakes⟩)⟩
        · obtain ⟨last, hlast⟩ := exists_lastCall (Nat.succ_le_succ hle) frame
          exact ⟨[elem], last, hlast, makes_ask_ok.2 ⟨s₁, hlook, makes_body.2 (.inr hfailed)⟩⟩
      · exact ⟨[], _, .ask hle hanswer, hmakes⟩
    · rintro ⟨children, last, hlast, hmakes⟩
      cases children with
      | nil =>
        rcases lastCall_iff.1 hlast with ⟨answer, -, hanswer, rfl⟩ | ⟨heq, -⟩
        · exact .inr ⟨answer, hanswer, hmakes⟩
        · exact absurd heq (by simpa using Nat.ne_of_lt (Nat.lt_succ_of_le hle))
      | cons elem children =>
        rw [hlength] at hlast
        obtain ⟨s₁, hlook, hbody⟩ := makes_ask_ok.1 hmakes
        refine .inl ⟨elem, s₁, hlook, bind_eq_iff.2 ?_⟩
        rcases makes_body.1 hbody with ⟨_, s₂, hbody, hrest⟩ | hfailed
        · exact .inl ⟨_, s₂, hbody, (ih (Nat.succ_ne_zero index) hnext).2
            ⟨children, last, hlast, hrest⟩⟩
        · exact .inr hfailed

/-! ### The owner -/

/-- Frames that do not know the path change nothing but the state of the host. -/
lemma makes_passedOver_append (frames : List F) :
    r.Makes below here tag (passedOver frames ++ calls) s result ↔
      ∃ s₁, r.Makes below here tag (passedOver frames) s (.ok () s₁) ∧
        r.Makes below here tag calls s₁ result := by
  induction frames generalizing s with
  | nil =>
    constructor
    · intro h
      exact ⟨s, .done s, h⟩
    · rintro ⟨s₁, hdone, h⟩
      cases makes_nil.1 hdone
      exact h
  | cons frame frames ih =>
    constructor
    · intro h
      obtain ⟨s₁, hlook, hrest⟩ := makes_ask_ok.1 h
      obtain ⟨s₂, hpassed, hrest⟩ := ih.1 hrest
      exact ⟨s₂, makes_ask_ok.2 ⟨s₁, hlook, hpassed⟩, hrest⟩
    · rintro ⟨s₂, hpassed, hrest⟩
      obtain ⟨s₁, hlook, hpassed⟩ := makes_ask_ok.1 hpassed
      exact makes_ask_ok.2 ⟨s₁, hlook, ih.2 ⟨s₂, hpassed, hrest⟩⟩

/-- A plan is made in two parts: first the owner is found, and then it is dealt with. -/
lemma exists_plan_iff {fuel : Nat} {inverted : Bool} :
    (∃ calls, SectionPlan fuel here.scope inverted calls ∧
        r.Makes below here tag calls s result) ↔
      (∃ s₁, r.Makes below here tag (passedOver here.scope) s (.ok () s₁) ∧
        r.Makes below here tag (if inverted then [.body here.scope] else []) s₁ result) ∨
      ∃ passed owner later s₁, here.scope = passed ++ owner :: later ∧
        r.Makes below here tag (passedOver passed) s (.ok () s₁) ∧
        ∃ calls, OwnerPlan fuel here.scope owner inverted calls ∧
          r.Makes below here tag calls s₁ result := by
  constructor
  · rintro ⟨calls, hplan, hmakes⟩
    cases hplan with
    | nobody => exact .inl ((makes_passedOver_append here.scope).1 hmakes)
    | @owned passed later owner calls hscope hplan =>
      obtain ⟨s₁, hpassed, hmakes⟩ := (makes_passedOver_append passed).1 hmakes
      exact .inr ⟨passed, owner, later, s₁, hscope, hpassed, calls, hplan, hmakes⟩
  · rintro (h | ⟨passed, owner, later, s₁, hscope, hpassed, calls, hplan, hmakes⟩)
    · exact ⟨_, .nobody, (makes_passedOver_append here.scope).2 h⟩
    · exact ⟨_, .owned hscope hplan, (makes_passedOver_append passed).2 ⟨s₁, hpassed, hmakes⟩⟩

/-- Either no frame knows the path, or there is a first one that fails or says something else. -/
lemma owner_bind_eq_iff {next : Option (F × Lookup F) → RenderM F σ τ Unit} (frames : List F) :
    (r.owner tag.path frames >>= next) s = result ↔
      (∃ s₁, r.Makes below here tag (passedOver frames) s (.ok () s₁) ∧ next none s₁ = result) ∨
      ∃ passed owner later s₁, frames = passed ++ owner :: later ∧
        r.Makes below here tag (passedOver passed) s (.ok () s₁) ∧
        ((∃ e, r.Makes below here tag [.ask owner 0 (.error e)] s₁ result) ∨
          ∃ answer s₂, answer ≠ .notFound ∧ r.lookUp owner tag.path 0 s₁ = .ok (.ok answer) s₂ ∧
            next (some (owner, answer)) s₂ = result) := by
  induction frames generalizing s with
  | nil =>
    constructor
    · intro h
      exact .inl ⟨s, .done s, h⟩
    · rintro (⟨s₁, hdone, h⟩ | ⟨passed, _, _, _, hnil, -⟩)
      · cases makes_nil.1 hdone
        exact h
      · cases passed <;> cases hnil
  | cons frame frames ih =>
    have hreported := Query.display_reported_element_zero tag.path
    rw [owner, bind_assoc, lookUp_bind_eq_iff]
    constructor
    · rintro ⟨answer, s₁, hlook, hnext⟩
      match answer with
      | .error e =>
        have hfail : r.Makes below here tag [.ask frame 0 (.error e)] s result :=
          makes_ask_error.2 ⟨s₁, hlook, hreported ▸ hnext.symm⟩
        exact .inr ⟨[], frame, frames, s, rfl, .done s, .inl ⟨e, hfail⟩⟩
      | .ok .notFound =>
        rcases ih.1 hnext with ⟨s₂, hpassed, hnext⟩ | ⟨passed, owner, later, s₂, rfl, hpassed, hown⟩
        · exact .inl ⟨s₂, makes_ask_ok.2 ⟨s₁, hlook, hpassed⟩, hnext⟩
        · exact .inr ⟨frame :: passed, owner, later, s₂, rfl,
            makes_ask_ok.2 ⟨s₁, hlook, hpassed⟩, hown⟩
      | .ok .broken | .ok .consumed | .ok .lambda | .ok (.field elem) =>
        refine .inr ⟨[], frame, frames, s, rfl, .done s, .inr ⟨_, s₁, ?_, hlook, hnext⟩⟩
        exact nofun
    · rintro (⟨s₂, hpassed, hnext⟩ | ⟨passed, owner, later, s₂, hframes, hpassed, hown⟩)
      · obtain ⟨s₁, hlook, hpassed⟩ := makes_ask_ok.1 hpassed
        exact ⟨_, s₁, hlook, ih.2 (.inl ⟨s₂, hpassed, hnext⟩)⟩
      · cases passed with
        | nil =>
          obtain ⟨rfl, rfl⟩ := List.cons.inj hframes
          cases makes_nil.1 hpassed
          rcases hown with ⟨e, hfail⟩ | ⟨answer, s₁, hanswer, hlook, hnext⟩
          · obtain ⟨s₁, hlook, rfl⟩ := makes_ask_error.1 hfail
            rw [hreported]
            exact ⟨_, s₁, hlook, rfl⟩
          · refine ⟨_, s₁, hlook, ?_⟩
            cases answer with
            | notFound => exact (hanswer rfl).elim
            | broken | consumed | lambda | field elem => exact hnext
        | cons first passed =>
          obtain ⟨rfl, rfl⟩ := List.cons.inj hframes
          obtain ⟨s₁, hlook, hpassed⟩ := makes_ask_ok.1 hpassed
          exact ⟨_, s₁, hlook, ih.2 (.inr ⟨passed, owner, later, s₂, rfl, hpassed, hown⟩)⟩

/-- A section is told by its plans if what it does when nobody knows the path, and what it does with
the owner, are. -/
lemma owner_bind_eq_iff_plan {fuel : Nat} {inverted : Bool}
    {next : Option (F × Lookup F) → RenderM F σ τ Unit}
    (hnobody : ∀ s₁, next none s₁ = result ↔
      r.Makes below here tag (if inverted then [.body here.scope] else []) s₁ result)
    (howned : ∀ owner s₁, ((∃ e, r.Makes below here tag [.ask owner 0 (.error e)] s₁ result) ∨
        ∃ answer s₂, answer ≠ .notFound ∧ r.lookUp owner tag.path 0 s₁ = .ok (.ok answer) s₂ ∧
          next (some (owner, answer)) s₂ = result) ↔
      ∃ calls, OwnerPlan fuel here.scope owner inverted calls ∧
        r.Makes below here tag calls s₁ result) :
    (r.owner tag.path here.scope >>= next) s = result ↔
      ∃ calls, SectionPlan fuel here.scope inverted calls ∧
        r.Makes below here tag calls s result := by
  rw [exists_plan_iff]
  refine (@owner_bind_eq_iff _ _ _ r below here tag s result next here.scope).trans ?_
  simp only [hnobody, howned]

/-! ### Whole sections -/

variable {fuel : Nat}

/-- The element that the owner has first is the first of the turns. -/
lemma field_turns_eq_iff {owner elem : F} :
    ((below (here.inside elem) tag.body >>= fun _ => r.renderElements owner tag.path
        (fun elem => below (here.inside elem) tag.body) fuel 1) s = result) ↔
      ∃ children last, LastCall fuel owner (elem :: children).length last ∧
        r.Makes below here tag
          (.body (elem :: here.scope) :: (turns owner here.scope 1 children ++ [last])) s
          result := by
  have hlength : ∀ children, (elem :: children).length = 1 + children.length := fun children =>
    Nat.add_comm children.length 1
  constructor
  · intro h
    rcases bind_eq_iff.1 h with ⟨_, s₁, hbody, hrest⟩ | hfailed
    · obtain ⟨children, last, hlast, hmakes⟩ :=
        (renderElements_eq_iff Nat.one_ne_zero (Nat.add_comm 1 fuel)).1 hrest
      exact ⟨children, last, hlength children ▸ hlast, makes_body.2 (.inl ⟨_, s₁, hbody, hmakes⟩)⟩
    · obtain ⟨last, hlast⟩ := exists_lastCall (Nat.succ_le_succ (Nat.zero_le fuel)) owner
      exact ⟨[], last, hlast, makes_body.2 (.inr hfailed)⟩
  · rintro ⟨children, last, hlast, hmakes⟩
    rw [hlength] at hlast
    rcases makes_body.1 hmakes with ⟨_, s₁, hbody, hrest⟩ | hfailed
    · exact bind_eq_iff.2 (.inl ⟨_, s₁, hbody,
        (renderElements_eq_iff Nat.one_ne_zero (Nat.add_comm 1 fuel)).2
          ⟨children, last, hlast, hrest⟩⟩)
    · exact bind_eq_iff.2 (.inr hfailed)

lemma renderSection_eq_iff :
    r.renderSection below fuel here tag s = result ↔
      ∃ calls, SectionPlan fuel here.scope false calls ∧ r.Makes below here tag calls s result := by
  rw [renderSection]
  apply owner_bind_eq_iff_plan
  · intro s₁
    exact (makes_nil.trans eq_comm).symm
  intro owner s₁
  constructor
  · rintro (⟨e, hfail⟩ | ⟨answer, s₂, hanswer, hlook, hnext⟩)
    · exact ⟨_, .failed false e, hfail⟩
    · cases answer with
      | notFound => exact (hanswer rfl).elim
      | broken =>
        exact ⟨_, .nothing (.inl rfl), makes_ask_ok.2 ⟨s₂, hlook, makes_nil.2 hnext.symm⟩⟩
      | consumed =>
        exact ⟨_, .nothing (.inr rfl), makes_ask_ok.2 ⟨s₂, hlook, makes_nil.2 hnext.symm⟩⟩
      | lambda => exact ⟨_, .lambda, makes_ask_ok.2 ⟨s₂, hlook, makes_expand.2 hnext⟩⟩
      | field elem =>
        obtain ⟨children, last, hlast, hmakes⟩ := field_turns_eq_iff.1 hnext
        exact ⟨_, .elements (List.cons_ne_nil elem children) hlast,
          makes_ask_ok.2 ⟨s₂, hlook, hmakes⟩⟩
  · rintro ⟨calls, hplan, hmakes⟩
    cases hplan with
    | failed _ e => exact .inl ⟨e, hmakes⟩
    | nothing h =>
      obtain ⟨s₂, hlook, hdone⟩ := makes_ask_ok.1 hmakes
      have hdone := (makes_nil.1 hdone).symm
      rcases h with rfl | rfl
      · exact .inr ⟨.broken, s₂, nofun, hlook, hdone⟩
      · exact .inr ⟨.consumed, s₂, nofun, hlook, hdone⟩
    | lambda =>
      obtain ⟨s₂, hlook, hexpand⟩ := makes_ask_ok.1 hmakes
      exact .inr ⟨.lambda, s₂, nofun, hlook, makes_expand.1 hexpand⟩
    | elements hne hlast =>
      obtain ⟨elem, children, rfl⟩ := List.exists_cons_of_ne_nil hne
      obtain ⟨s₂, hlook, hturns⟩ := makes_ask_ok.1 hmakes
      exact .inr ⟨.field elem, s₂, nofun, hlook,
        field_turns_eq_iff.2 ⟨children, _, hlast, hturns⟩⟩

/-- The body alone, with the stack as it is. -/
lemma makes_body_singleton :
    r.Makes below here tag [.body here.scope] s result ↔ below here tag.body s = result := by
  rw [makes_singleton]
  constructor
  · intro h
    cases h with
    | body h => exact h
  · exact .body

lemma renderInverted_eq_iff :
    r.renderInverted below here tag s = result ↔
      ∃ calls, SectionPlan fuel here.scope true calls ∧ r.Makes below here tag calls s result := by
  rw [renderInverted]
  apply owner_bind_eq_iff_plan
  · intro s₁
    exact makes_body_singleton.symm
  intro owner s₁
  constructor
  · rintro (⟨e, hfail⟩ | ⟨answer, s₂, hanswer, hlook, hnext⟩)
    · exact ⟨_, .failed true e, hfail⟩
    · cases answer with
      | notFound => exact (hanswer rfl).elim
      | broken =>
        exact ⟨_, .nothingInverted (.inl rfl),
          makes_ask_ok.2 ⟨s₂, hlook, makes_body_singleton.2 hnext⟩⟩
      | consumed =>
        exact ⟨_, .nothingInverted (.inr rfl),
          makes_ask_ok.2 ⟨s₂, hlook, makes_body_singleton.2 hnext⟩⟩
      | lambda =>
        exact ⟨_, .somethingInverted (.inl rfl),
          makes_ask_ok.2 ⟨s₂, hlook, makes_nil.2 hnext.symm⟩⟩
      | field elem =>
        exact ⟨_, .somethingInverted (.inr ⟨elem, rfl⟩),
          makes_ask_ok.2 ⟨s₂, hlook, makes_nil.2 hnext.symm⟩⟩
  · rintro ⟨calls, hplan, hmakes⟩
    cases hplan with
    | failed _ e => exact .inl ⟨e, hmakes⟩
    | nothingInverted h =>
      obtain ⟨s₂, hlook, hbody⟩ := makes_ask_ok.1 hmakes
      have hbody := makes_body_singleton.1 hbody
      rcases h with rfl | rfl
      · exact .inr ⟨.broken, s₂, nofun, hlook, hbody⟩
      · exact .inr ⟨.consumed, s₂, nofun, hlook, hbody⟩
    | somethingInverted h =>
      obtain ⟨s₂, hlook, hdone⟩ := makes_ask_ok.1 hmakes
      have hdone := (makes_nil.1 hdone).symm
      rcases h with rfl | ⟨elem, rfl⟩
      · exact .inr ⟨.lambda, s₂, nofun, hlook, hdone⟩
      · exact .inr ⟨.field elem, s₂, nofun, hlook, hdone⟩

end

end Renderer

/-! ### A section and its inverse -/

/-- The first answer, frame by frame, that is not that the path is unknown. -/
def ownAnswer (answer : F → Except ResolveError (Lookup F)) (scope : List F) :
    Option (Except ResolveError (Lookup F)) :=
  (scope.map answer).find? fun
    | .ok .notFound => false
    | _             => true

/-- Whether an answer is that there is something to show. -/
def Lookup.shows : Lookup F → Bool
  | .lambda   => true
  | .field _  => true
  | .notFound => false
  | .broken   => false
  | .consumed => false

/-- The owner is asked first, and its answer tells what is shown. -/
lemma OwnerPlan.exists_ask {fuel : Nat} {scope : List F} {owner : F} {inverted : Bool}
    {calls : List (SectionCall F)} (h : OwnerPlan fuel scope owner inverted calls) :
    (∃ e, calls = [.ask owner 0 (.error e)]) ∨
      ∃ answer rest, answer ≠ .notFound ∧ calls = .ask owner 0 (.ok answer) :: rest ∧
        rest.any SectionCall.isActive = (answer.shows != inverted) := by
  cases h with
  | failed _ e => exact .inl ⟨e, rfl⟩
  | nothing h =>
    rcases h with rfl | rfl
    · exact .inr ⟨.broken, [], nofun, rfl, rfl⟩
    · exact .inr ⟨.consumed, [], nofun, rfl, rfl⟩
  | nothingInverted h =>
    rcases h with rfl | rfl
    · exact .inr ⟨.broken, [.body scope], nofun, rfl, rfl⟩
    · exact .inr ⟨.consumed, [.body scope], nofun, rfl, rfl⟩
  | lambda => exact .inr ⟨.lambda, [.expand owner], nofun, rfl, rfl⟩
  | elements hne hlast =>
    obtain ⟨elem, children, rfl⟩ := List.exists_cons_of_ne_nil hne
    exact .inr ⟨.field elem, _, nofun, rfl, rfl⟩
  | somethingInverted h =>
    rcases h with rfl | ⟨elem, rfl⟩
    · exact .inr ⟨.lambda, [], nofun, rfl, rfl⟩
    · exact .inr ⟨.field elem, [], nofun, rfl, rfl⟩

section

variable {answer : F → Except ResolveError (Lookup F)} {passed later : List F} {owner : F}

lemma ownAnswer_of_passedOver (h : ∀ frame ∈ passed, answer frame = .ok .notFound) :
    ownAnswer answer passed = none := by
  rw [ownAnswer, List.find?_eq_none]
  intro a ha
  obtain ⟨frame, hframe, rfl⟩ := List.mem_map.1 ha
  rw [h frame hframe]
  simp

lemma ownAnswer_append (h : ∀ frame ∈ passed, answer frame = .ok .notFound)
    (howner : answer owner ≠ .ok .notFound) :
    ownAnswer answer (passed ++ owner :: later) = some (answer owner) := by
  have hpassed : (passed.map answer).find? _ = none := ownAnswer_of_passedOver h
  rw [ownAnswer, List.map_append, List.find?_append, hpassed, List.map_cons, Option.none_or,
    List.find?_cons_of_pos]
  split
  · contradiction
  · rfl

lemma any_isActive_passedOver_append (frames : List F) (calls : List (SectionCall F)) :
    (passedOver frames ++ calls).any SectionCall.isActive = calls.any SectionCall.isActive := by
  rw [List.any_append, passedOver, List.any_map]
  simp [SectionCall.isActive]

end

namespace Renderer

variable {r : Renderer F σ τ} {below : Nested F σ τ} {here : Setting F} {tag : Section}
  {answer : F → Except ResolveError (Lookup F)} {s : RenderState F σ τ}
  {result : EStateM.Result Halt (RenderState F σ τ) Unit}

lemma eq_of_lookUp {frame : F} {a : Except ResolveError (Lookup F)} {s₁ : RenderState F σ τ}
    (hget : ∀ host, (r.host.get frame tag.path 0 host).1 = answer frame)
    (h : r.lookUp frame tag.path 0 s = .ok a s₁) : answer frame = a := by
  rw [← hget s.host]
  cases h
  rfl

lemma answer_of_makes_passedOver {frames : List F} {s₁ : RenderState F σ τ}
    (hget : ∀ frame ∈ frames, ∀ host, (r.host.get frame tag.path 0 host).1 = answer frame)
    (h : r.Makes below here tag (passedOver frames) s (.ok () s₁)) :
    ∀ frame ∈ frames, answer frame = .ok .notFound := by
  induction frames generalizing s with
  | nil => simp
  | cons first frames ih =>
    obtain ⟨s₂, hlook, hrest⟩ := makes_ask_ok.1 h
    intro frame hframe
    rcases List.mem_cons.1 hframe with rfl | hframe
    · exact eq_of_lookUp (hget _ List.mem_cons_self) hlook
    · exact ih (fun g hg => hget g (List.mem_cons_of_mem first hg)) hrest frame hframe

/-- A section whose owner answers shows its body or its lambda just if there is something to show,
and an inverted one just if there is not. -/
lemma any_isActive_of_makes {fuel : Nat} {inverted : Bool} {calls : List (SectionCall F)}
    (hget : ∀ frame ∈ here.scope, ∀ host, (r.host.get frame tag.path 0 host).1 = answer frame)
    (hplan : SectionPlan fuel here.scope inverted calls)
    (hmakes : r.Makes below here tag calls s result) :
    match ownAnswer answer here.scope with
    | none            => calls.any SectionCall.isActive = inverted
    | some (.ok a)    => calls.any SectionCall.isActive = (a.shows != inverted)
    | some (.error e) =>
      ∃ s₁, result = .error (.failed (.interpolation tag.path.display e)) s₁ := by
  cases hplan with
  | nobody =>
    obtain ⟨s₁, hpassed, -⟩ := (makes_passedOver_append here.scope).1 hmakes
    rw [ownAnswer_of_passedOver (answer_of_makes_passedOver hget hpassed),
      any_isActive_passedOver_append]
    cases inverted <;> rfl
  | @owned passed later owner calls hscope hplan =>
    obtain ⟨s₁, hpassed, hmakes⟩ := (makes_passedOver_append passed).1 hmakes
    have hmem : ∀ frame ∈ passed ++ owner :: later, frame ∈ here.scope := fun _ h => hscope ▸ h
    have howner : owner ∈ here.scope := hmem owner (by simp)
    have hnone := answer_of_makes_passedOver
      (fun frame h => hget frame (hmem frame (List.mem_append_left _ h))) hpassed
    have hown : ∀ {a}, answer owner = a → a ≠ .ok .notFound →
        ownAnswer answer here.scope = some a := by
      rintro _ rfl hne
      rw [hscope]
      exact ownAnswer_append hnone hne
    rw [any_isActive_passedOver_append]
    rcases hplan.exists_ask with ⟨e, rfl⟩ | ⟨a, rest, hne, rfl, hactive⟩
    · obtain ⟨s₂, hlook, rfl⟩ := makes_ask_error.1 hmakes
      have ha := eq_of_lookUp (hget owner howner) hlook
      rw [hown ha nofun, Query.display_reported_element_zero]
      exact ⟨s₂, rfl⟩
    · obtain ⟨s₂, hlook, -⟩ := makes_ask_ok.1 hmakes
      rw [hown (eq_of_lookUp (hget owner howner) hlook) fun h => hne (Except.ok.inj h)]
      exact hactive

/-- A rendering of a section comes to a result just if the calls of one of its plans do. Of a
section and its inverse, where answers do not depend on what has happened before, exactly one is
there for the reader, unless a frame fails on the path: then both renderings end with this failure.
-/
theorem renderNode_section_iff (r : Renderer F σ τ) (below : Nested F σ τ) (fuel : Nat)
    (here : Setting F) :
    (∀ tag s result, r.renderNode below fuel here (.sectionTag tag) s = result ↔
      ∃ calls, SectionPlan fuel here.scope tag.inverted calls ∧
        r.Makes below here tag calls s result) ∧
    ∀ (plain inverse : Section) (answer : F → Except ResolveError (Lookup F)),
      plain.inverted = false → inverse.inverted = true → inverse.path = plain.path →
      (∀ frame ∈ here.scope, ∀ host, (r.host.get frame plain.path 0 host).1 = answer frame) →
      ∀ calls calls' s s' result result',
        SectionPlan fuel here.scope plain.inverted calls →
        r.Makes below here plain calls s result →
        SectionPlan fuel here.scope inverse.inverted calls' →
        r.Makes below here inverse calls' s' result' →
        calls'.any SectionCall.isActive = !calls.any SectionCall.isActive ∨
          ∃ frame ∈ here.scope, ∃ e s₁ s₁', answer frame = .error e ∧
            result = .error (.failed (.interpolation plain.path.display e)) s₁ ∧
            result' = .error (.failed (.interpolation plain.path.display e)) s₁' := by
  constructor
  · intro tag s result
    rw [renderNode]
    split
    · next hinverted =>
      rw [hinverted]
      exact renderInverted_eq_iff
    · next hplain =>
      rw [eq_false_of_ne_true hplain]
      exact renderSection_eq_iff
  · intro plain inverse answer hplain hinverse hpath hget calls calls' s s' result result' hplan
      hmakes hplan' hmakes'
    have hget' : ∀ frame ∈ here.scope, ∀ host,
        (r.host.get frame inverse.path 0 host).1 = answer frame := hpath ▸ hget
    have hshown := any_isActive_of_makes hget hplan hmakes
    have hshown' := any_isActive_of_makes hget' hplan' hmakes'
    rw [hplain] at hshown
    rw [hinverse] at hshown'
    rcases hown : ownAnswer answer here.scope with _ | e | a
    · rw [hown] at hshown hshown'
      rw [hshown, hshown']
      exact .inl rfl
    · rw [hown] at hshown hshown'
      obtain ⟨s₁, rfl⟩ := hshown
      obtain ⟨s₁', rfl⟩ := hshown'
      obtain ⟨frame, hframe, ha⟩ := List.mem_map.1 (List.mem_of_find?_eq_some hown)
      exact .inr ⟨frame, hframe, e, s₁, s₁', ha, rfl, by rw [hpath]⟩
    · rw [hown] at hshown hshown'
      rw [hshown, hshown']
      exact .inl (by cases a.shows <;> rfl)

/-- A host of numbers: zero has two elements, whatever the path, and no other one knows any. -/
def zeroHasTwo : Host Nat Unit where
  get frame _ index s :=
    (.ok (if frame ≠ 0 then .notFound else if index < 2 then .field (10 + index) else .consumed), s)
  interpolate _ _ _ s := .answer (.ok .notFound) s
  expand _ _ _ s := .answer (.ok .notFound) s
  hint _ _ s := ((.notFound, 0), s)

/-- A section without nodes in its body. -/
def hollow (inverted : Bool) : Section := ⟨⟨⟨[['p']]⟩, inverted, ⟨0, 0⟩, .standard, ⟨0, 0⟩⟩, .empty⟩

/-- With zero under one on the stack, a section is rendered for each element of zero, on top of the
whole stack, and its inverse only asks. -/
theorem renderNode_hollow_iff :
    let r : Renderer Nat Unit ByteArray := ⟨zeroHasTwo, .buffer, .standard, fun _ => none⟩
    let here : Setting Nat := ⟨⟨[], .empty, .empty⟩, [1, 0], 0⟩
    let calls : List (SectionCall Nat) := [.ask 1 0 (.ok .notFound), .ask 0 0 (.ok (.field 10)),
      .body [10, 1, 0], .ask 0 1 (.ok (.field 11)), .body [11, 1, 0], .ask 0 2 (.ok .consumed)]
    let calls' : List (SectionCall Nat) := [.ask 1 0 (.ok .notFound), .ask 0 0 (.ok (.field 10))]
    ∃ s s', r.Makes (r.renderNodes 1) here (hollow false) calls (.start () .empty) (.ok () s) ∧
      r.renderNode (r.renderNodes 1) 5 here (.sectionTag (hollow false)) (.start () .empty) =
        .ok () s ∧
      r.Makes (r.renderNodes 1) here (hollow true) calls' (.start () .empty) (.ok () s') ∧
      r.renderNode (r.renderNodes 1) 5 here (.sectionTag (hollow true)) (.start () .empty) =
        .ok () s' ∧
      calls'.any SectionCall.isActive = !calls.any SectionCall.isActive := by
  intro r here calls calls'
  have hplan : SectionPlan 5 here.scope false calls :=
    show SectionPlan 5 [1, 0] false
      (passedOver [1] ++ (turns 0 [1, 0] 0 [10, 11] ++ [.ask 0 2 (.ok .consumed)])) from
    .owned rfl (.elements (by simp) (.ask (by decide) fun _ => nofun))
  have hplan' : SectionPlan 5 here.scope true calls' :=
    show SectionPlan 5 [1, 0] true (passedOver [1] ++ [.ask 0 0 (.ok (.field 10))]) from
    .owned rfl (.somethingInverted (.inr ⟨10, rfl⟩))
  have hmakes : ∃ s, r.Makes (r.renderNodes 1) here (hollow false) calls (.start () .empty)
      (.ok () s) :=
    ⟨_, .next (.ask rfl) <| .next (.ask rfl) <| .next (.body rfl) <| .next (.ask rfl) <|
      .next (.body rfl) <| .next (.ask rfl) <| .done _⟩
  have hmakes' : ∃ s, r.Makes (r.renderNodes 1) here (hollow true) calls' (.start () .empty)
      (.ok () s) :=
    ⟨_, .next (.ask rfl) <| .next (.ask rfl) <| .done _⟩
  obtain ⟨s, hmakes⟩ := hmakes
  obtain ⟨s', hmakes'⟩ := hmakes'
  obtain ⟨hruns, hexactly⟩ := renderNode_section_iff r (r.renderNodes 1) 5 here
  refine ⟨s, s', hmakes, (hruns (hollow false) _ _).2 ⟨calls, hplan, hmakes⟩, hmakes',
    (hruns (hollow true) _ _).2 ⟨calls', hplan', hmakes'⟩, ?_⟩
  have hanswers : ∀ frame ∈ here.scope, ∀ host : Unit, (zeroHasTwo.get frame (hollow false).path 0
      host).1 = .ok (if frame ≠ 0 then .notFound else .field 10) := fun _ _ _ => rfl
  rcases hexactly (hollow false) (hollow true) _ rfl rfl rfl hanswers calls calls' _ _ _ _ hplan
    hmakes hplan' hmakes' with h | ⟨_, -, _, _, _, hfailed, -⟩
  · exact h
  · cases hfailed

end Renderer

end Mustache
