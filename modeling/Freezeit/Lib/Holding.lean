import Mathlib.Data.List.Basic
import Mathlib.Tactic.Tauto

/-! # Holding things along a sequence of events

    Events may take a thing or let go of it.  A thing is held when some event
    took it and no later event let go of it. -/

namespace Holding

variable {ε κ : Type}

/-- What an event does to the thing it is about. -/
inductive Effect (κ : Type) where
  | take (k : κ)
  | release (k : κ)
  | none
  deriving DecidableEq

variable {effect : ε → Effect κ} {t t₁ t₂ : List ε} {k : κ}

/-- Some event took it. -/
def Taken (effect : ε → Effect κ) (t : List ε) (k : κ) : Prop := ∃ e ∈ t, effect e = .take k

/-- Some event let go of it. -/
def Released (effect : ε → Effect κ) (t : List ε) (k : κ) : Prop :=
  ∃ e ∈ t, effect e = .release k

/-- Taken, and not let go of since. -/
def Held (effect : ε → Effect κ) (t : List ε) (k : κ) : Prop :=
  ∃ pre e post, t = pre ++ e :: post ∧ effect e = .take k ∧ ¬ Released effect post k

theorem not_taken_nil : ¬ Taken effect [] k := by
  rintro ⟨e, he, -⟩
  simp at he

/-- What two stretches take is what one of them takes. -/
theorem taken_append : Taken effect (t₁ ++ t₂) k ↔ Taken effect t₁ k ∨ Taken effect t₂ k := by
  simp only [Taken, List.mem_append, or_and_right, exists_or]

/-- What two stretches let go of is what one of them lets go of. -/
theorem released_append :
    Released effect (t₁ ++ t₂) k ↔ Released effect t₁ k ∨ Released effect t₂ k := by
  simp only [Released, List.mem_append, or_and_right, exists_or]

/-- What is held was taken. -/
theorem Held.taken (h : Held effect t k) : Taken effect t k := by
  obtain ⟨pre, e, post, rfl, he, -⟩ := h
  exact ⟨e, by simp, he⟩

theorem not_held_nil : ¬ Held effect [] k := fun h => not_taken_nil h.taken

/-- What is held after two stretches was taken in the second and kept, or was
    held before and the second let it be. -/
theorem held_append :
    Held effect (t₁ ++ t₂) k ↔
      Held effect t₂ k ∨ Held effect t₁ k ∧ ¬ Released effect t₂ k := by
  constructor
  · rintro ⟨pre, e, post, heq, he, hpost⟩
    -- The event that took it stands in the second stretch or in the first.
    rcases List.append_eq_append_iff.mp heq with ⟨mid, hpre, ht₂⟩ | ⟨mid, ht₁, hmid⟩
    · exact .inl ⟨mid, e, post, ht₂, he, hpost⟩
    · cases mid with
      | nil =>
        refine .inl ⟨[], e, post, ?_, he, hpost⟩
        simpa using hmid.symm
      | cons a mid =>
        rw [List.cons_append] at hmid
        obtain ⟨rfl, rfl⟩ := List.cons.inj hmid
        rw [released_append, not_or] at hpost
        exact .inr ⟨⟨pre, e, mid, ht₁, he, hpost.1⟩, hpost.2⟩
  · rintro (⟨pre, e, post, rfl, he, hpost⟩ | ⟨⟨pre, e, post, rfl, he, hpost⟩, hkept⟩)
    · exact ⟨t₁ ++ pre, e, post, by simp, he, hpost⟩
    · refine ⟨pre, e, post ++ t₂, by simp, he, ?_⟩
      rw [released_append]
      tauto

/-- A stretch that takes nothing only lets go. -/
theorem held_append_of_not_taken (h : ¬ Taken effect t₂ k) (hk : Held effect (t₁ ++ t₂) k) :
    Held effect t₁ k ∧ ¬ Released effect t₂ k := by
  rcases held_append.mp hk with hk | hk
  · exact absurd hk.taken h
  · exact hk

/-- A stretch without effects changes nothing. -/
theorem held_append_of_idle (h : ∀ e ∈ t₂, effect e = .none) :
    Held effect (t₁ ++ t₂) k ↔ Held effect t₁ k := by
  have htaken : ¬ Taken effect t₂ k := by
    rintro ⟨e, he, heff⟩
    rw [h e he] at heff
    cases heff
  have hreleased : ¬ Released effect t₂ k := by
    rintro ⟨e, he, heff⟩
    rw [h e he] at heff
    cases heff
  rw [held_append]
  have hheld : ¬ Held effect t₂ k := fun hk => htaken hk.taken
  tauto

end Holding
