import Mathlib.Data.List.Induction

/-! # Labelled transition systems

    `Steps step s ls s'` says that steps with the labels `ls` lead from `s` to
    `s'`.  What one step keeps, every path keeps; and a view of the states
    under which each step is a step of another system, or changes nothing,
    takes paths to paths. -/

variable {S T L M : Type*} {step : S → L → S → Prop} {s s' : S} {l : L} {ls ls₁ ls₂ : List L}

/-- Paths grow at their end, so that an induction on them goes back to the last step. -/
inductive Steps (step : S → L → S → Prop) (s : S) : List L → S → Prop where
  | nil : Steps step s [] s
  | snoc : ∀ {ls s₁ l s'}, Steps step s ls s₁ → step s₁ l s' → Steps step s (ls ++ [l]) s'

namespace Steps

theorem nil_iff : Steps step s [] s' ↔ s' = s := by
  constructor
  · intro h
    generalize hls : ([] : List L) = ls at h
    cases h with
    | nil => rfl
    | snoc => simp at hls
  · intro h
    rw [h]
    exact .nil

/-- A path with a last label has a last step. -/
theorem snoc_iff : Steps step s (ls ++ [l]) s' ↔ ∃ s₁, Steps step s ls s₁ ∧ step s₁ l s' := by
  constructor
  · intro h
    generalize hls : ls ++ [l] = all at h
    cases h with
    | nil => simp at hls
    | snoc hpath hstep =>
      obtain ⟨rfl, hlast⟩ := List.append_inj' hls rfl
      cases hlast
      exact ⟨_, hpath, hstep⟩
  · intro ⟨s₁, hpath, hstep⟩
    exact hpath.snoc hstep

theorem single_iff : Steps step s [l] s' ↔ step s l s' := by
  have h : Steps step s ([] ++ [l]) s' ↔ ∃ s₁, Steps step s [] s₁ ∧ step s₁ l s' := snoc_iff
  simpa [nil_iff] using h

/-- A path splits wherever its labels are split. -/
theorem append_iff :
    Steps step s (ls₁ ++ ls₂) s' ↔ ∃ s₁, Steps step s ls₁ s₁ ∧ Steps step s₁ ls₂ s' := by
  induction ls₂ using List.reverseRecOn generalizing s' with
  | nil => simp [nil_iff]
  | append_singleton ls₂ l ih =>
    rw [← List.append_assoc, snoc_iff]
    constructor
    · intro ⟨s₂, hpath, hstep⟩
      obtain ⟨s₁, h₁, h₂⟩ := ih.mp hpath
      exact ⟨s₁, h₁, h₂.snoc hstep⟩
    · intro ⟨s₁, h₁, h₂⟩
      obtain ⟨s₂, hpath, hstep⟩ := snoc_iff.mp h₂
      exact ⟨s₂, ih.mpr ⟨s₁, h₁, hpath⟩, hstep⟩

/-- A path with a first label has a first step. -/
theorem cons_iff : Steps step s (l :: ls) s' ↔ ∃ s₁, step s l s₁ ∧ Steps step s₁ ls s' := by
  have h : Steps step s ([l] ++ ls) s' ↔ _ := append_iff
  simpa [single_iff] using h

theorem append {s₁ : S} (h₁ : Steps step s ls₁ s₁) (h₂ : Steps step s₁ ls₂ s') :
    Steps step s (ls₁ ++ ls₂) s' := append_iff.mpr ⟨s₁, h₁, h₂⟩

/-- The rule for invariants. -/
theorem invariant {I : S → Prop} (hstep : ∀ ⦃s l s'⦄, I s → step s l s' → I s')
    (h : Steps step s ls s') (hs : I s) : I s' := by
  induction h with
  | nil => exact hs
  | snoc _ hlast ih => exact hstep ih hlast

/-- The rule for invariants that speak of the labels so far. -/
theorem invariant_of_past {I : List L → S → Prop}
    (hstep : ∀ ⦃past s l s'⦄, I past s → step s l s' → I (past ++ [l]) s')
    (h : Steps step s ls s') (hs : I [] s) : I ls s' := by
  induction h with
  | nil => exact hs
  | snoc _ hlast ih => exact hstep ih hlast

/-- Every step of a path starts where a path has led. -/
theorem at_step {before after : List L} (h : Steps step s (before ++ l :: after) s') :
    ∃ s₁ s₂, Steps step s before s₁ ∧ step s₁ l s₂ ∧ Steps step s₂ after s' := by
  obtain ⟨s₁, h₁, hrest⟩ := append_iff.mp h
  obtain ⟨s₂, hstep, h₂⟩ := cons_iff.mp hrest
  exact ⟨s₁, s₂, h₁, hstep, h₂⟩

/-- The rule for refinement: under an invariant every visible step is a step
    of the other system, and the others change nothing there. -/
theorem refines {abstractStep : T → M → T → Prop} {view : S → T} {visible : L → Option M}
    {I : S → Prop} (hinv : ∀ ⦃s l s'⦄, I s → step s l s' → I s')
    (hsilent : ∀ ⦃s l s'⦄, I s → step s l s' → visible l = none → view s' = view s)
    (hvisible : ∀ ⦃s l s' m⦄, I s → step s l s' → visible l = some m →
      abstractStep (view s) m (view s'))
    (h : Steps step s ls s') (hs : I s) :
    Steps abstractStep (view s) (ls.filterMap visible) (view s') := by
  induction h with
  | nil => exact .nil
  | snoc hpath hlast ih =>
    have hbefore := hpath.invariant hinv hs
    rw [List.filterMap_append]
    -- A step that is not seen leaves the view alone, and its label is filtered out; one
    -- that is seen is the next step of the other system.
    cases hlabel : visible _ with
    | none =>
      rw [hsilent hbefore hlast hlabel, List.filterMap_cons_none hlabel, List.filterMap_nil,
        List.append_nil]
      exact ih
    | some m =>
      rw [List.filterMap_cons_some hlabel, List.filterMap_nil]
      exact ih.snoc (hvisible hbefore hlast hlabel)

/-- Paths of a step relation that allows more. -/
theorem mono {step' : S → L → S → Prop} (hstep : ∀ ⦃s l s'⦄, step s l s' → step' s l s')
    (h : Steps step s ls s') : Steps step' s ls s' := by
  induction h with
  | nil => exact .nil
  | snoc _ hlast ih => exact ih.snoc (hstep hlast)

end Steps
