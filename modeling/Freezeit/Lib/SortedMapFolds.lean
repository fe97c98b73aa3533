import Freezeit.Lib.SortedMap
import Mathlib.Algebra.Order.BigOperators.Group.List
import Mathlib.Algebra.Order.Ring.Int
import Mathlib.Tactic.Abel

/-! # Folds into maps and over them

    What is found after a list was inserted, and sums over the values. -/

namespace SortedMap

variable {α β M : Type} [LinearOrder α]

/-! ## Inserting a list -/

section
variable {γ : Type} {f : γ → α} {g : γ → β} {l : List γ} {m : SortedMap α β}

/-- The last of the elements with a key is found there. -/
theorem get?_foldl_insert (f : γ → α) (g : γ → β) (l : List γ) (m : SortedMap α β) (k : α) :
    (l.foldl (fun m e => m.insert (f e) (g e)) m).get? k
      = ((l.reverse.find? fun e => f e = k).map g).or (m.get? k) := by
  induction l generalizing m with
  | nil => rfl
  | cons e rest ih =>
    rw [List.foldl_cons, ih, get?_insert, List.reverse_cons, List.find?_append]
    cases rest.reverse.find? fun e => f e = k with
    | some found => rfl
    | none =>
      by_cases heq : f e = k
      · simp [heq]
      · simp [heq]

/-- What is found comes from the list or was there before. -/
theorem exists_of_get?_foldl_insert {k : α} {v : β}
    (h : (l.foldl (fun m e => m.insert (f e) (g e)) m).get? k = some v) :
    (∃ e ∈ l, f e = k ∧ g e = v) ∨ m.get? k = some v := by
  rw [get?_foldl_insert] at h
  rcases Option.or_eq_some_iff.mp h with hfound | ⟨-, hget⟩
  · obtain ⟨e, he, rfl⟩ := Option.map_eq_some_iff.mp hfound
    have hkey := List.find?_some he
    exact .inl ⟨e, List.mem_reverse.mp (List.mem_of_find?_eq_some he), of_decide_eq_true hkey, rfl⟩
  · exact .inr hget

/-- Where all elements with a key agree, any of them is found. -/
theorem get?_foldl_insert_of_mem {e : γ} (hmem : e ∈ l)
    (hagree : ∀ e' ∈ l, f e' = f e → g e' = g e) :
    (l.foldl (fun m e => m.insert (f e) (g e)) m).get? (f e) = some (g e) := by
  rw [get?_foldl_insert]
  cases hfound : l.reverse.find? fun e' => f e' = f e with
  | none =>
    have hnot := List.find?_eq_none.mp hfound e (List.mem_reverse.mpr hmem)
    simp at hnot
  | some e' =>
    have hkey : f e' = f e := by simpa using List.find?_some hfound
    have hval := hagree e' (List.mem_reverse.mp (List.mem_of_find?_eq_some hfound)) hkey
    show some (g e') = _
    rw [hval]

end

/-! ## Sums over the values -/

variable [AddCommMonoid M]

/-- The same on the entries, by the recursion of the insertion. -/
theorem sum_insertEntry (f : β → M) (k : α) (v : β) {l : List (α × β)} (hl : Sorted l) :
    ((insertEntry k v l).map fun e => f e.2).sum + (lookupEntry k l).elim 0 f
      = (l.map fun e => f e.2).sum + f v := by
  induction l with
  | nil =>
    show (f v + 0) + 0 = 0 + f v
    simp
  | cons e rest ih =>
    obtain ⟨k', v'⟩ := e
    obtain ⟨hhead, hrest⟩ := List.pairwise_cons.mp hl
    rw [insertEntry_cons, lookupEntry_cons]
    by_cases hlt : k < k'
    · -- The key comes before all others.
      have habsent : lookupEntry k rest = none :=
        lookupEntry_eq_none_of_lt fun a ha => lt_trans hlt (hhead a ha)
      rw [if_pos hlt, if_neg (ne_of_gt hlt), habsent]
      simp only [List.map_cons, List.sum_cons, Option.elim_none]
      abel
    -- The key is that of the first entry, or comes after it.
    rw [if_neg hlt]
    by_cases heq : k = k'
    · rw [if_pos heq, if_pos heq.symm]
      simp only [List.map_cons, List.sum_cons, Option.elim_some]
      abel
    · rw [if_neg heq, if_neg (Ne.symm heq)]
      simp only [List.map_cons, List.sum_cons]
      rw [add_assoc, ih hrest, add_assoc]

/-- The sum grows by the new value and loses the one that it replaces. -/
theorem sum_values_insert (f : β → M) (m : SortedMap α β) (k : α) (v : β) :
    ((m.insert k v).values.map f).sum + (m.get? k).elim 0 f = (m.values.map f).sum + f v := by
  have hsum := sum_insertEntry f k v m.sorted
  unfold values
  rw [List.map_map, List.map_map]
  exact hsum

end SortedMap
