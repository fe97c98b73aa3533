import Mathlib.Data.List.Induction

/-! # Since

    The past-time operator over finite histories: `Since P Q l` says that some
    element of `l` satisfies `P`, and every later one `Q`. -/

variable {α : Type*} {P P' Q Q' R : α → Prop} {l l' : List α} {a : α}

def Since (P Q : α → Prop) (l : List α) : Prop :=
  ∃ before a after, l = before ++ a :: after ∧ P a ∧ ∀ b ∈ after, Q b

namespace Since

/-- Something has to start it. -/
theorem exists_mem (h : Since P Q l) : ∃ a ∈ l, P a := by
  obtain ⟨before, a, after, rfl, ha, -⟩ := h
  exact ⟨a, List.mem_append_right _ List.mem_cons_self, ha⟩

theorem concat (h : P a) : Since P Q (l ++ [a]) := by
  refine ⟨l, a, [], rfl, h, ?_⟩
  intro b hb
  cases hb

/-- What has held since, goes on holding. -/
theorem append (h : Since P Q l) (hall : ∀ b ∈ l', Q b) : Since P Q (l ++ l') := by
  obtain ⟨before, a, after, rfl, ha, hafter⟩ := h
  refine ⟨before, a, after ++ l', by rw [List.append_assoc, List.cons_append], ha, ?_⟩
  intro b hb
  cases List.mem_append.mp hb with
  | inl hb => exact hafter b hb
  | inr hb => exact hall b hb

/-- The recursive equation: after one more element it has started there, or it held before
    and goes on. -/
theorem concat_iff : Since P Q (l ++ [a]) ↔ P a ∨ Since P Q l ∧ Q a := by
  constructor
  · intro ⟨before, b, after, hsplit, hb, hafter⟩
    induction after using List.reverseRecOn with
    -- Nothing comes later, so the new element is the one that started it.
    | nil =>
      have hlast := (List.append_inj' hsplit rfl).2
      rw [List.cons.inj hlast |>.1]
      exact .inl hb
    | append_singleton after c _ =>
      have hassoc : l ++ [a] = (before ++ b :: after) ++ [c] := by simpa using hsplit
      obtain ⟨hinit, hlast⟩ := List.append_inj' hassoc rfl
      rw [(List.cons.inj hlast).1]
      refine .inr ⟨⟨before, b, after, hinit, hb, ?_⟩, ?_⟩
      · intro d hd
        exact hafter d (List.mem_append_left _ hd)
      · exact hafter c (List.mem_append_right _ List.mem_cons_self)
  · intro h
    cases h with
    | inl ha => exact concat ha
    | inr hsince =>
      apply hsince.1.append
      intro b hb
      rw [List.mem_singleton.mp hb]
      exact hsince.2

/-- Both properties can be weakened. -/
theorem imp (h : Since P Q l) (hP : ∀ a, P a → P' a) (hQ : ∀ a, Q a → Q' a) : Since P' Q' l := by
  obtain ⟨before, a, after, hsplit, ha, hafter⟩ := h
  exact ⟨before, a, after, hsplit, hP a ha, fun b hb => hQ b (hafter b hb)⟩

/-- If `Q` has held since `P`, but never since an `R` at which it held, then no
    `R` has come since `P`. -/
theorem of_not_since (h : Since P Q l) (hR : ¬ Since (fun a => R a ∧ Q a) Q l) :
    Since P (fun a => ¬ R a) l := by
  obtain ⟨before, a, after, hsplit, ha, hafter⟩ := h
  refine ⟨before, a, after, hsplit, ha, ?_⟩
  intro b hb hRb
  obtain ⟨mid, rest, hmid⟩ := List.append_of_mem hb
  refine hR ⟨before ++ a :: mid, b, rest, ?_, ⟨hRb, hafter b hb⟩, ?_⟩
  · rw [hsplit, hmid, List.append_assoc, List.cons_append]
  · intro c hc
    apply hafter c
    rw [hmid]
    exact List.mem_append_right _ (List.mem_cons_of_mem _ hc)

end Since

/-! ## Every place of a history -/

/-- Every element satisfies `Q` with the elements before it. -/
def Everywhere (Q : List α → α → Prop) (l : List α) : Prop :=
  ∀ pre a post, l = pre ++ a :: post → Q pre a

namespace Everywhere

variable {Q : List α → α → Prop}

theorem nil : Everywhere Q [] := by
  intro pre a post hsplit
  have hne : pre ++ a :: post ≠ [] := by simp
  exact absurd hsplit.symm hne

/-- A prefix of such a history is one. -/
theorem init (h : Everywhere Q (l ++ l')) : Everywhere Q l := by
  intro pre a post hsplit
  refine h pre a (post ++ l') ?_
  rw [hsplit, List.append_assoc, List.cons_append]

theorem concat (h : Everywhere Q l) (ha : Q l a) : Everywhere Q (l ++ [a]) := by
  intro pre b post hsplit
  -- The place is the new one, or one of the old history.
  -- The place is the new one, or one of the old history.
  induction post using List.reverseRecOn with
  | nil =>
    obtain ⟨hinit, hlast⟩ := List.append_inj' hsplit rfl
    rw [← hinit, ← (List.cons.inj hlast).1]
    exact ha
  | append_singleton post c _ =>
    have hassoc : l ++ [a] = (pre ++ b :: post) ++ [c] := by simpa using hsplit
    exact h pre b post (List.append_inj' hassoc rfl).1

end Everywhere
