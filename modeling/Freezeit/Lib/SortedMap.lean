import Mathlib.Order.Lattice
import Mathlib.Data.List.Basic
import Mathlib.Tactic.Tauto

/-! # Sorted finite maps

    Finite maps over a linearly ordered key type, kept as an entry list in
    strictly increasing key order.  The order is a field of the structure, so
    every map has exactly one representation and iteration is in key order,
    as it is for a B-tree map.  A set is a map to `Unit`.

    Every operation is structural on the entry list, so closed terms reduce
    in the kernel. -/

namespace SortedMap

/-! ## Entry lists -/

section entries
variable {α β : Type} [LinearOrder α]

/-- Strictly increasing keys. -/
def Sorted (l : List (α × β)) : Prop := l.Pairwise (fun a b => a.1 < b.1)

/-- The value at the first entry with the key. -/
def lookupEntry (k : α) : List (α × β) → Option β
  | [] => none
  | (k', v) :: rest => if k' = k then some v else lookupEntry k rest

/-- Insert in key order, replacing an entry with the same key. -/
def insertEntry (k : α) (v : β) : List (α × β) → List (α × β)
  | [] => [(k, v)]
  | (k', v') :: rest =>
      if k < k' then (k, v) :: (k', v') :: rest
      else if k = k' then (k, v) :: rest
      else (k', v') :: insertEntry k v rest

theorem lookupEntry_cons (k k' : α) (v : β) (l : List (α × β)) :
    lookupEntry k ((k', v) :: l) = if k' = k then some v else lookupEntry k l := rfl

theorem insertEntry_cons (k k' : α) (v v' : β) (l : List (α × β)) :
    insertEntry k v ((k', v') :: l) =
      if k < k' then (k, v) :: (k', v') :: l
      else if k = k' then (k, v) :: l
      else (k', v') :: insertEntry k v l := rfl

/-- Nothing else comes in. -/
theorem mem_insertEntry {k : α} {v : β} {a : α × β} {l : List (α × β)}
    (h : a ∈ insertEntry k v l) : a = (k, v) ∨ a ∈ l := by
  induction l with
  | nil => exact Or.inl (List.mem_singleton.mp h)
  | cons x xs ih =>
    obtain ⟨k', v'⟩ := x
    rw [insertEntry_cons] at h
    split at h
    · simpa using h
    · split at h
      · rcases List.mem_cons.mp h with h | h
        · exact Or.inl h
        · exact Or.inr (List.mem_cons_of_mem _ h)
      · rcases List.mem_cons.mp h with h | h
        · exact Or.inr (by simp [h])
        · exact (ih h).imp id (List.mem_cons_of_mem _)

/-- The order is kept. -/
theorem insertEntry_sorted (k : α) (v : β) {l : List (α × β)} (h : Sorted l) :
    Sorted (insertEntry k v l) := by
  induction l with
  | nil => exact List.pairwise_singleton _ _
  | cons x xs ih =>
    obtain ⟨k', v'⟩ := x
    have hx := List.pairwise_cons.mp h
    rw [insertEntry_cons]
    split
    · next hlt =>
      refine List.pairwise_cons.mpr ⟨fun a ha => ?_, h⟩
      rcases List.mem_cons.mp ha with rfl | ha
      · exact hlt
      · exact lt_trans hlt (hx.1 a ha)
    · next hnlt =>
      split
      · next heq =>
        exact List.pairwise_cons.mpr ⟨fun a ha => by simpa [heq] using hx.1 a ha, hx.2⟩
      · next hne =>
        refine List.pairwise_cons.mpr ⟨fun a ha => ?_, ih hx.2⟩
        -- What comes later is the new entry or one of the old ones.
        rcases mem_insertEntry ha with rfl | ha
        · exact lt_of_le_of_ne (not_lt.mp hnlt) (Ne.symm hne)
        · exact hx.1 a ha

/-- The new entry is found, the others as before. -/
theorem lookupEntry_insertEntry (k k' : α) (v : β) (l : List (α × β)) :
    lookupEntry k' (insertEntry k v l) = if k = k' then some v else lookupEntry k' l := by
  induction l with
  | nil => rfl
  | cons x xs ih =>
    obtain ⟨k₀, v₀⟩ := x
    rw [insertEntry_cons]
    split
    · rfl
    · split
      · next heq => subst heq; by_cases h : k = k' <;> simp [lookupEntry_cons, h]
      · next hne =>
        by_cases h : k₀ = k'
        · subst h; simp [lookupEntry_cons, hne]
        · simp [lookupEntry_cons, h, ih]

/-- A key below all others is not there. -/
theorem lookupEntry_eq_none_of_lt {k : α} {l : List (α × β)} (h : ∀ a ∈ l, k < a.1) :
    lookupEntry k l = none := by
  induction l with
  | nil => rfl
  | cons x xs ih =>
    rw [lookupEntry_cons, if_neg (ne_of_gt (h x (by simp)))]
    exact ih fun a ha => h a (List.mem_cons_of_mem _ ha)

/-- A key is found after filtering if its entry passes. This needs the order: without it a
    later entry with the same key could come to light. -/
theorem lookupEntry_filter (p : α → β → Bool) (k : α) {l : List (α × β)} (hl : Sorted l) :
    lookupEntry k (l.filter fun e => p e.1 e.2) = (lookupEntry k l).filter (p k) := by
  induction l with
  | nil => rfl
  | cons x xs ih =>
    obtain ⟨k', v'⟩ := x
    have hx := List.pairwise_cons.mp hl
    have ih := ih hx.2
    by_cases hk : k' = k
    · subst hk
      -- No later entry has this key, so dropping the entry drops the key.
      have hnone : lookupEntry k' xs = none := lookupEntry_eq_none_of_lt hx.1
      by_cases hp : p k' v' = true
      · simp [lookupEntry_cons, hp, Option.filter]
      · simp [lookupEntry_cons, hp, ih, hnone, Option.filter]
    · by_cases hp : p k' v' = true
      · simp [lookupEntry_cons, hp, hk, ih]
      · simp [lookupEntry_cons, hp, hk, ih]

/-- Looking up a key finds its entry, as there is only one. -/
theorem lookupEntry_eq_some_iff {k : α} {v : β} {l : List (α × β)} (hl : Sorted l) :
    lookupEntry k l = some v ↔ (k, v) ∈ l := by
  induction l with
  | nil => exact ⟨nofun, nofun⟩
  | cons x xs ih =>
    obtain ⟨k', v'⟩ := x
    have hx := List.pairwise_cons.mp hl
    by_cases hk : k' = k
    · subst hk
      have hnot : (k', v) ∉ xs := fun hm => lt_irrefl k' (hx.1 (k', v) hm)
      simp [lookupEntry_cons, hnot, eq_comm]
    · simp [lookupEntry_cons, hk, ih hx.2, Ne.symm hk]

end entries

end SortedMap

/-! ## The map type -/

/-- A finite map with its entries in strictly increasing key order. -/
structure SortedMap (α β : Type) [LinearOrder α] where
  entries : List (α × β)
  sorted  : SortedMap.Sorted entries

/-- A finite set, iterated in increasing order. -/
abbrev SortedSet (α : Type) [LinearOrder α] : Type := SortedMap α Unit

namespace SortedMap

variable {α β : Type} [LinearOrder α]

def empty : SortedMap α β := ⟨[], List.Pairwise.nil⟩

def get? (m : SortedMap α β) (k : α) : Option β := lookupEntry k m.entries

def contains (m : SortedMap α β) (k : α) : Bool := (m.get? k).isSome

def insert (m : SortedMap α β) (k : α) (v : β) : SortedMap α β :=
  ⟨insertEntry k v m.entries, insertEntry_sorted k v m.sorted⟩

/-- Keep the entries that satisfy `p`. -/
def retain (m : SortedMap α β) (p : α → β → Bool) : SortedMap α β :=
  ⟨m.entries.filter fun e => p e.1 e.2, m.sorted.filter _⟩

def erase (m : SortedMap α β) (k : α) : SortedMap α β := m.retain fun k' _ => k' ≠ k

def keys (m : SortedMap α β) : List α := m.entries.map Prod.fst

def values (m : SortedMap α β) : List β := m.entries.map Prod.snd

def isEmpty (m : SortedMap α β) : Bool := m.entries.isEmpty

instance : Membership α (SortedMap α β) := ⟨fun m k => m.contains k = true⟩

instance (m : SortedMap α β) (k : α) : Decidable (k ∈ m) :=
  inferInstanceAs (Decidable (m.contains k = true))

instance [DecidableEq β] : DecidableEq (SortedMap α β) := fun a b =>
  decidable_of_iff (a.entries = b.entries)
    ⟨fun h => by cases a; cases b; cases h; rfl, fun h => by rw [h]⟩

instance : EmptyCollection (SortedMap α β) := ⟨empty⟩

instance : Inhabited (SortedMap α β) := ⟨empty⟩

/-! ### Lookup -/

@[simp] theorem get?_empty (k : α) : (∅ : SortedMap α β).get? k = none := rfl

/-- One key is set, and no other is touched. -/
theorem get?_insert (m : SortedMap α β) (k k' : α) (v : β) :
    (m.insert k v).get? k' = if k = k' then some v else m.get? k' :=
  lookupEntry_insertEntry k k' v m.entries

@[simp] theorem get?_insert_self (m : SortedMap α β) (k : α) (v : β) :
    (m.insert k v).get? k = some v := by
  simp [get?_insert]

theorem get?_insert_ne (m : SortedMap α β) {k k' : α} (v : β) (h : k ≠ k') :
    (m.insert k v).get? k' = m.get? k' := by
  simp [get?_insert, h]

@[simp] theorem get?_retain (m : SortedMap α β) (p : α → β → Bool) (k : α) :
    (m.retain p).get? k = (m.get? k).filter (p k) :=
  lookupEntry_filter p k m.sorted

/-- One key is gone, and no other is touched. -/
theorem get?_erase (m : SortedMap α β) (k k' : α) :
    (m.erase k).get? k' = if k' = k then none else m.get? k' := by
  rw [erase, get?_retain]
  by_cases h : k' = k
  · cases m.get? k' <;> simp [h, Option.filter]
  · cases m.get? k' <;> simp [h, Option.filter]

@[simp] theorem get?_erase_self (m : SortedMap α β) (k : α) : (m.erase k).get? k = none := by
  simp [get?_erase]

theorem get?_erase_ne (m : SortedMap α β) {k k' : α} (h : k' ≠ k) :
    (m.erase k).get? k' = m.get? k' := by
  simp [get?_erase, h]

/-! ### Membership -/

/-- A key is there if it has a value. -/
theorem mem_iff_get? {m : SortedMap α β} {k : α} : k ∈ m ↔ ∃ v, m.get? k = some v :=
  Option.isSome_iff_exists

theorem not_mem_iff_get? {m : SortedMap α β} {k : α} : k ∉ m ↔ m.get? k = none := by
  rw [mem_iff_get?]
  cases m.get? k <;> simp

theorem mem_of_get? {m : SortedMap α β} {k : α} {v : β} (h : m.get? k = some v) : k ∈ m :=
  mem_iff_get?.mpr ⟨v, h⟩

@[simp] theorem contains_iff_mem {m : SortedMap α β} {k : α} : m.contains k = true ↔ k ∈ m :=
  Iff.rfl

@[simp] theorem not_mem_empty (k : α) : k ∉ (∅ : SortedMap α β) := by
  simp [not_mem_iff_get?]

@[simp] theorem mem_insert {m : SortedMap α β} {k k' : α} {v : β} :
    k' ∈ m.insert k v ↔ k' = k ∨ k' ∈ m := by
  by_cases h : k = k'
  · simp [mem_iff_get?, h]
  · simp [mem_iff_get?, get?_insert, h, Ne.symm h]

@[simp] theorem mem_erase {m : SortedMap α β} {k k' : α} :
    k' ∈ m.erase k ↔ k' ≠ k ∧ k' ∈ m := by
  by_cases h : k' = k
  · simp [mem_iff_get?, h]
  · simp [mem_iff_get?, get?_erase, h]

theorem mem_retain {m : SortedMap α β} {p : α → β → Bool} {k : α} :
    k ∈ m.retain p ↔ ∃ v, m.get? k = some v ∧ p k v = true := by
  simp [mem_iff_get?, Option.filter_eq_some_iff]

/-- Filtering by the key alone. -/
@[simp] theorem mem_retain_key {m : SortedMap α β} {p : α → Bool} {k : α} :
    k ∈ m.retain (fun k' _ => p k') ↔ k ∈ m ∧ p k = true := by
  rw [mem_retain, mem_iff_get?]
  constructor
  · rintro ⟨v, hv, hp⟩; exact ⟨⟨v, hv⟩, hp⟩
  · rintro ⟨⟨v, hv⟩, hp⟩; exact ⟨v, hv, hp⟩

@[simp] theorem mem_keys {m : SortedMap α β} {k : α} : k ∈ m.keys ↔ k ∈ m := by
  rw [keys, mem_iff_get?, List.mem_map]
  constructor
  · rintro ⟨⟨k', v⟩, hm, rfl⟩
    exact ⟨v, (lookupEntry_eq_some_iff m.sorted).mpr hm⟩
  · rintro ⟨v, hv⟩
    exact ⟨(k, v), (lookupEntry_eq_some_iff m.sorted).mp hv, rfl⟩

/-- The values are those of the keys. -/
theorem mem_values {m : SortedMap α β} {v : β} : v ∈ m.values ↔ ∃ k, m.get? k = some v := by
  rw [values, List.mem_map]
  constructor
  · rintro ⟨⟨k, v'⟩, hm, rfl⟩
    exact ⟨k, (lookupEntry_eq_some_iff m.sorted).mpr hm⟩
  · rintro ⟨k, hk⟩
    exact ⟨(k, v), (lookupEntry_eq_some_iff m.sorted).mp hk, rfl⟩

theorem isEmpty_iff {m : SortedMap α β} : m.isEmpty = true ↔ ∀ k, k ∉ m := by
  rw [isEmpty, List.isEmpty_iff]
  constructor
  · intro h k hk
    obtain ⟨v, hv⟩ := mem_iff_get?.mp hk
    have hmem := (lookupEntry_eq_some_iff m.sorted).mp hv
    simp [h] at hmem
  · intro h
    refine List.eq_nil_iff_forall_not_mem.mpr fun e he => ?_
    exact h e.1 (mem_of_get? ((lookupEntry_eq_some_iff m.sorted).mpr he))

/-! ### Loops over keys -/

/-- Erase every key of a list. -/
theorem get?_foldl_erase (l : List α) (m : SortedMap α β) (k : α) :
    (l.foldl erase m).get? k = if k ∈ l then none else m.get? k := by
  induction l generalizing m with
  | nil => rfl
  | cons a l ih =>
    rw [List.foldl_cons, ih, get?_erase]
    by_cases hl : k ∈ l
    · simp [hl]
    · by_cases ha : k = a <;> simp [hl, ha]

theorem mem_foldl_erase {l : List α} {m : SortedMap α β} {k : α} :
    k ∈ l.foldl erase m ↔ k ∈ m ∧ k ∉ l := by
  rw [mem_iff_get?, mem_iff_get?, get?_foldl_erase]
  by_cases hl : k ∈ l <;> simp [hl]

/-- Insert every element of a list into a set. -/
theorem mem_foldl_insert {l : List α} {m : SortedSet α} {k : α} :
    k ∈ l.foldl (fun m a => m.insert a ()) m ↔ k ∈ l ∨ k ∈ m := by
  induction l generalizing m with
  | nil => simp
  | cons a l ih =>
    rw [List.foldl_cons, ih, mem_insert, List.mem_cons]
    tauto

/-! ### Changing values -/

/-- `values_mut`: each value is replaced, the keys stay. -/
def mapValues (m : SortedMap α β) (f : β → γ) : SortedMap α γ :=
  ⟨m.entries.map fun e => (e.1, f e.2),
    List.pairwise_map.mpr (m.sorted.imp fun {_ _} h => h)⟩

@[simp] theorem get?_mapValues (m : SortedMap α β) (f : β → γ) (k : α) :
    (m.mapValues f).get? k = (m.get? k).map f := by
  unfold get? mapValues
  dsimp only
  induction m.entries with
  | nil => rfl
  | cons e rest ih =>
    obtain ⟨k', v⟩ := e
    simp only [List.map_cons, lookupEntry_cons]
    split
    · rfl
    · exact ih

/-! ### Entries that may come up twice -/

/-- Insert an entry; if its key is there already, its value becomes `spoilt`. -/
def insertOnce (spoilt : β) (m : SortedMap α β) (e : α × β) : SortedMap α β :=
  m.insert e.1 (if e.1 ∈ m then spoilt else e.2)

theorem get?_foldl_insertOnce {spoilt v : β} {l : List (α × β)} {m : SortedMap α β} {k : α}
    (h : (l.foldl (insertOnce spoilt) m).get? k = some v) :
    m.get? k = some v ∨ (k, v) ∈ l ∨ v = spoilt := by
  induction l generalizing m with
  | nil => exact .inl h
  | cons e rest ih =>
    rcases ih h with hm | hrest | hspoilt
    · unfold insertOnce at hm
      rw [get?_insert] at hm
      split at hm
      · next heq =>
        split at hm
        · exact .inr (.inr (Option.some.inj hm).symm)
        · refine .inr (.inl ?_)
          rw [← heq, ← Option.some.inj hm]
          exact List.mem_cons_self
      · exact .inl hm
    · exact .inr (.inl (List.mem_cons_of_mem _ hrest))
    · exact .inr (.inr hspoilt)

theorem mem_foldl_insertOnce {spoilt : β} {l : List (α × β)} {m : SortedMap α β} {k : α} :
    k ∈ l.foldl (insertOnce spoilt) m ↔ k ∈ m ∨ k ∈ l.map Prod.fst := by
  induction l generalizing m with
  | nil => simp
  | cons e rest ih =>
    rw [List.foldl_cons, ih, List.map_cons, List.mem_cons]
    unfold insertOnce
    rw [mem_insert]
    tauto

/-- Entries with different keys are all kept. -/
theorem get?_foldl_insertOnce_of_nodup {spoilt : β} {l : List (α × β)} {m : SortedMap α β}
    (hl : (l.map Prod.fst).Nodup) (hm : ∀ e ∈ l, e.1 ∉ m) {k : α} {v : β} :
    (l.foldl (insertOnce spoilt) m).get? k = some v ↔ m.get? k = some v ∨ (k, v) ∈ l := by
  induction l generalizing m with
  | nil => simp
  | cons e rest ih =>
    have hfirst := hm e List.mem_cons_self
    rw [List.map_cons, List.nodup_cons] at hl
    have hrest : ∀ e' ∈ rest, e'.1 ∉ insertOnce spoilt m e := by
      intro e' he' hmem
      unfold insertOnce at hmem
      cases mem_insert.mp hmem with
      | inl heq =>
        apply hl.1
        rw [← heq]
        exact List.mem_map_of_mem he'
      | inr hold => exact hm e' (List.mem_cons_of_mem _ he') hold
    rw [List.foldl_cons, ih hl.2 hrest]
    unfold insertOnce
    rw [if_neg hfirst, get?_insert]
    by_cases hk : e.1 = k
    · subst hk
      have hnone := not_mem_iff_get?.mp hfirst
      obtain ⟨k, w⟩ := e
      have hlater : (k, v) ∉ rest := by
        intro hmem
        exact hl.1 (List.mem_map.mpr ⟨(k, v), hmem, rfl⟩)
      simp only [if_true, hnone, List.mem_cons, Prod.mk.injEq, true_and, Option.some.injEq]
      constructor
      · rintro (rfl | hmem)
        · exact .inr (.inl rfl)
        · exact absurd hmem hlater
      · rintro (hnot | rfl | hmem)
        · cases hnot
        · exact .inl rfl
        · exact absurd hmem hlater
    · rw [if_neg hk]
      have hne : (k, v) ≠ e := by
        intro heq
        exact hk (by rw [← heq])
      simp [hne]

/-! ### Order -/

theorem keys_sorted (m : SortedMap α β) : m.keys.Pairwise (· < ·) :=
  List.pairwise_map.mpr m.sorted

theorem nodup_keys (m : SortedMap α β) : m.keys.Nodup :=
  m.keys_sorted.imp fun h => ne_of_lt h

end SortedMap
