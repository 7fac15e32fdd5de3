import Mathlib.Tactic.Common
import Mustache.Host.Served
import Mustache.Markup.Evaluation

/-!
# Hosts of plain values

What a host has to answer about plain values, whatever its frames are. A frame stands for a value,
and a section finds the elements of a value by their indices. The host that serves values keeps to
this protocol; a renderer that gets by with it renders alike on every host that does.
-/

namespace Mustache

/-! ### Plain values -/

namespace Value

variable {v w : Value} {path : Path}

namespace Plain

lemma member? {name : Text} (h : v.Plain) (hw : v.member? name = some w) : w.Plain := by
  cases h with
  | map hmembers =>
    obtain ⟨before, after, rfl, -⟩ := List.lookup_eq_some_iff.1 hw
    exact hmembers (name, w) (by simp)
  | null | bool | int | text | list => simp [Value.member?] at hw

lemma descend? {names : List Text} (h : v.Plain) (hw : descend? names v = some w) : w.Plain := by
  induction names generalizing v with
  | nil =>
    rw [Value.descend?, Option.some.injEq] at hw
    exact hw ▸ h
  | cons name names ih =>
    rw [Value.descend?, Option.bind_eq_some_iff] at hw
    obtain ⟨u, hu, hw⟩ := hw
    exact ih (h.member? hu) hw

/-- What a path leads to inside a plain value is plain. -/
lemma resolve (h : v.Plain) (hw : v.resolve path = .ok w) : w.Plain := by
  rw [Value.resolve] at hw
  split at hw
  · rw [Except.ok.injEq] at hw
    exact hw ▸ h
  · split at hw
    · simp at hw
    · next inner hinner =>
      split at hw
      · simp at hw
      · next u hu =>
        rw [Except.ok.injEq] at hw
        exact hw ▸ (h.member? hinner).descend? hu

lemma of_mem_elements {e : Value} (h : v.Plain) (he : e ∈ v.elements) : e.Plain := by
  simp only [elements] at he
  split at he
  · next es =>
    cases h with
    | list helements => exact helements e he
  · split at he
    · rw [List.mem_singleton] at he
      exact he ▸ h
    · simp at he

/-- The index protocol: the elements of a value, one after the other, and then no more. -/
lemma element (h : v.Plain) (index : Nat) :
    v.element index = .ok (match v.elements[index]? with
      | some e => .field e
      | none   => .consumed) := by
  cases h with
  | list helements =>
    simp only [Value.element, elements]
    split <;> simp_all
  | null => simp [Value.element, elements, isTruthy]
  | bool b =>
    simp only [Value.element, elements, isTruthy]
    cases b <;> cases index <;> simp
  | int n | text t | map hmembers =>
    simp only [Value.element, elements, isTruthy]
    cases index <;> simp

end Plain

/-- A path that leads nowhere is unknown from its first segment on, or from a later one. -/
lemma eq_of_resolve_eq_error {r : Resolution} (h : v.resolve path = .error r) :
    r = .notFound ∨ r = .broken := by
  rw [resolve] at h
  split at h
  · simp at h
  · split at h
    · rw [Except.error.injEq] at h
      exact .inl h.symm
    · split at h
      · rw [Except.error.injEq] at h
        exact .inr h.symm
      · simp at h

end Value

/-! ### The protocol -/

namespace Host

variable {F σ : Type}

/-- A host serves plain values if, whatever it remembers, a frame that stands for one answers about
paths as the value does. -/
structure Serves (host : Host F σ) (Stands : F → Value → Prop) : Prop where
  get_error : ∀ {f v path r}, Stands f v → v.Plain → v.resolve path = .error r →
    ∀ index s, (host.get f path index s).1 = .ok (.ofResolution r)
  get_element : ∀ {f v path w index e}, Stands f v → v.Plain → v.resolve path = .ok w →
    w.elements[index]? = some e →
    ∀ s, ∃ g, (host.get f path index s).1 = .ok (.field g) ∧ Stands g e
  get_consumed : ∀ {f v path w index}, Stands f v → v.Plain → v.resolve path = .ok w →
    w.elements[index]? = none → ∀ s, (host.get f path index s).1 = .ok .consumed
  interpolate_error : ∀ {f v path r}, Stands f v → v.Plain → v.resolve path = .error r →
    ∀ escaped s, ∃ s', host.interpolate f path escaped s = .answer (.ok r) s'
  interpolate_scalar : ∀ {f v path w t}, Stands f v → v.Plain → v.resolve path = .ok w →
    w.scalar? = some t → ∀ escaped s, ∃ next s',
      host.interpolate f path escaped s = .write false t next ∧
        next (.ok ()) = .answer (.ok .field) s'
  interpolate_other : ∀ {f v path w}, Stands f v → v.Plain → v.resolve path = .ok w →
    w.scalar? = none →
    ∀ escaped s, ∃ s', host.interpolate f path escaped s = .answer (.ok .field) s'

end Host

namespace Served

variable {f : Frame} {path : Path} {r : Resolution} {w : Value}

lemma get_of_error (h : f.value.resolve path = .error r) (index : Nat) (calls : Calls) :
    (get f path index calls).1 = .ok (.ofResolution r) := by simp [get, h]

lemma get_of_plain (h : f.value.resolve path = .ok w) (hw : w.Plain) (index : Nat)
    (calls : Calls) :
    (get f path index calls).1 = .ok (match w.elements[index]? with
      | some e => .field (f.child (.element path index) e)
      | none   => .consumed) := by
  simp only [get, h, hw.element index]
  cases w.elements[index]? <;> rfl

lemma interpolate_of_error (h : f.value.resolve path = .error r) (escaped : Bool)
    (calls : Calls) : interpolate f path escaped calls = .answer (.ok r) calls := by
  simp [interpolate, h]

lemma interpolate_of_plain (h : f.value.resolve path = .ok w) (hw : w.Plain) (escaped : Bool)
    (calls : Calls) :
    interpolate f path escaped calls = match w.scalar? with
      | some t => write escaped (.ok .field) calls [.text t]
      | none   => .answer (.ok .field) calls := by
  simp only [interpolate, h]
  cases hw <;> rfl

/-- The host that serves values keeps to the protocol. -/
theorem serves_host : host.Serves fun f v => f.value = v where
  get_error := by
    rintro f v path r rfl - h index calls
    exact get_of_error h index calls
  get_element := by
    rintro f v path w index e rfl hplain h he calls
    refine ⟨f.child (.element path index) e, ?_, rfl⟩
    exact (get_of_plain h (hplain.resolve h) index calls).trans (by rw [he])
  get_consumed := by
    rintro f v path w index rfl hplain h he calls
    exact (get_of_plain h (hplain.resolve h) index calls).trans (by rw [he])
  interpolate_error := by
    rintro f v path r rfl - h escaped calls
    exact ⟨calls, interpolate_of_error h escaped calls⟩
  interpolate_scalar := by
    rintro f v path w t rfl hplain h ht escaped calls
    have hanswer := interpolate_of_plain h (hplain.resolve h) escaped calls
    rw [ht] at hanswer
    exact ⟨_, calls, hanswer, rfl⟩
  interpolate_other := by
    rintro f v path w rfl hplain h ht escaped calls
    have hanswer := interpolate_of_plain h (hplain.resolve h) escaped calls
    rw [ht] at hanswer
    exact ⟨calls, hanswer⟩

end Served

end Mustache
