import Mathlib.Data.List.Basic
import Mathlib.Data.Nat.Basic

/-! # Computations that may panic

    A value or nothing: arithmetic on machine words that is checked for overflow
    and underflow, indexing that is checked for its bounds, and the rules for
    showing that nothing of this happens. -/

namespace Checked

variable {α β σ : Type} {P : α → Prop} {Q : β → Prop}

/-! ## Operations -/

/-- A sum below the bound of the type. -/
def add (bound a b : Nat) : Option Nat := if a + b < bound then some (a + b) else none

/-- A product below the bound of the type. -/
def mul (bound a b : Nat) : Option Nat := if a * b < bound then some (a * b) else none

/-- A difference that is not negative. -/
def sub (a b : Nat) : Option Nat := if b ≤ a then some (a - b) else none

/-- A quotient, unless it is by zero. -/
def div (a b : Nat) : Option Nat := if b = 0 then none else some (a / b)

/-- Panics if there is nothing between the bounds. -/
def clamp (a low high : Nat) : Option Nat :=
  if low ≤ high then some (max low (min a high)) else none

/-- An assignment to an element that is there. -/
def set (list : List α) (i : Nat) (a : α) : Option (List α) :=
  if i < list.length then some (list.set i a) else none

/-- The same for a vector, whose length is part of its type. -/
def setVector {n : Nat} (vector : Vector α n) (i : Nat) (a : α) : Option (Vector α n) :=
  if h : i < n then some (vector.set i a h) else none

/-- What a loop over a list collects. -/
def forEach (list : List α) (body : α → Option (List β)) : Option (List β) :=
  (list.mapM body).map List.flatten

/-! ## Rules -/

/-- The computation returns, and its value has the property. -/
def Returns (x : Option α) (P : α → Prop) : Prop := ∃ a, x = some a ∧ P a

namespace Returns

theorem pure {a : α} (h : P a) : Returns (Pure.pure a) P := ⟨a, rfl, h⟩

/-- The rule for sequencing: the rest has to return for every value that the first part
    can have. -/
theorem bind {x : Option α} {f : α → Option β} (hx : Returns x P)
    (hf : ∀ a, P a → Returns (f a) Q) : Returns (x >>= f) Q := by
  obtain ⟨a, rfl, ha⟩ := hx
  exact hf a ha

/-- A computation that returns with a property returns with any weaker one. -/
theorem imp {x : Option α} {P' : α → Prop} (h : Returns x P) (himp : ∀ a, P a → P' a) :
    Returns x P' := by
  obtain ⟨a, heq, ha⟩ := h
  exact ⟨a, heq, himp a ha⟩

theorem add {bound a b : Nat} (h : a + b < bound) : Returns (add bound a b) (· = a + b) :=
  ⟨a + b, if_pos h, rfl⟩

theorem mul {bound a b : Nat} (h : a * b < bound) : Returns (mul bound a b) (· = a * b) :=
  ⟨a * b, if_pos h, rfl⟩

theorem sub {a b : Nat} (h : b ≤ a) : Returns (sub a b) (· = a - b) := ⟨a - b, if_pos h, rfl⟩

theorem div {a b : Nat} (h : 0 < b) : Returns (div a b) (· = a / b) :=
  ⟨a / b, if_neg (Nat.pos_iff_ne_zero.mp h), rfl⟩

/-- The value lies between the bounds. -/
theorem clamp {a low high : Nat} (h : low ≤ high) :
    Returns (clamp a low high) (fun c => low ≤ c ∧ c ≤ high) := by
  refine ⟨max low (min a high), if_pos h, ?_⟩
  omega

theorem get {list : List α} {i : Nat} (h : i < list.length) :
    Returns list[i]? (· ∈ list) :=
  ⟨list[i], List.getElem?_eq_getElem h, List.getElem_mem h⟩

theorem set {list : List α} {i : Nat} {a : α} (h : i < list.length) :
    Returns (set list i a) (· = list.set i a) := ⟨list.set i a, if_pos h, rfl⟩

theorem getVector {n : Nat} {vector : Vector α n} {i : Nat} (h : i < n) :
    Returns vector[i]? (· ∈ vector) :=
  ⟨vector[i], Vector.getElem?_eq_getElem h, Vector.getElem_mem h⟩

/-- What held of all elements holds still if it holds of the new one. -/
theorem setVector {n : Nat} {vector : Vector α n} {i : Nat} {a : α} (h : i < n)
    (hall : ∀ b ∈ vector, P b) (ha : P a) :
    Returns (setVector vector i a) (fun vector' => ∀ b ∈ vector', P b) := by
  refine ⟨vector.set i a h, dif_pos h, ?_⟩
  intro b hb
  rcases Vector.mem_or_eq_of_mem_set hb with hold | rfl
  · exact hall b hold
  · exact ha

/-- The rule for a loop whose steps do not depend on each other. -/
theorem mapM {list : List α} {f : α → Option β} (h : ∀ a ∈ list, Returns (f a) Q) :
    Returns (list.mapM f) (fun results => ∀ b ∈ results, Q b) := by
  induction list with
  | nil => exact ⟨[], by simp, fun b hb => absurd hb List.not_mem_nil⟩
  | cons a rest ih =>
    obtain ⟨b, hb, hQ⟩ := h a List.mem_cons_self
    obtain ⟨results, hresults, hall⟩ := ih fun other hother => h other (List.mem_cons_of_mem a hother)
    refine ⟨b :: results, ?_, List.forall_mem_cons.mpr ⟨hQ, hall⟩⟩
    rw [List.mapM_cons, hb, hresults]
    rfl

/-- A property of everything that a loop collects. -/
theorem forEach {list : List α} {body : α → Option (List β)}
    (h : ∀ a ∈ list, Returns (body a) (fun results => ∀ b ∈ results, Q b)) :
    Returns (forEach list body) (fun results => ∀ b ∈ results, Q b) := by
  obtain ⟨results, heq, hall⟩ := mapM h
  refine ⟨results.flatten, ?_, ?_⟩
  · unfold Checked.forEach
    rw [heq]
    rfl
  · intro b hb
    obtain ⟨part, hpart, hmem⟩ := List.mem_flatten.mp hb
    exact hall part hpart b hmem

/-- A loop that keeps its invariant. -/
theorem foldlM {list : List α} {step : σ → α → Option σ} {I : σ → Prop} {s : σ} (hs : I s)
    (hstep : ∀ s, I s → ∀ a ∈ list, Returns (step s a) I) : Returns (list.foldlM step s) I := by
  -- The invariant is kept by the first step, and the rest starts from the state after it.
  induction list generalizing s with
  | nil => exact ⟨s, rfl, hs⟩
  | cons a rest ih =>
    rw [List.foldlM_cons]
    apply bind (hstep s hs a List.mem_cons_self)
    intro s' hs'
    exact ih hs' fun s hs other hother => hstep s hs other (List.mem_cons_of_mem a hother)

end Returns

end Checked
