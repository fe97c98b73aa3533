import Freezeit.Lib.Interaction

/-! # Programs in a world that survives them

    A program makes calls in a world.  Each call changes the world, and between
    the calls the world changes on its own.  A crash ends the program after any
    call and leaves the world as it is.  `CrashSafe I p post w`: wherever `p`,
    started in `w`, is cut off, `I` holds, and where it ends `post` does. -/

namespace Prog

variable {Q : Type} {A : Q → Type} {W α β : Type}

/-- A world in which programs run. -/
structure WorldModel (Q : Type) (A : Q → Type) (W : Type) where
  /-- What a call with its answer does. -/
  call  : W → Event Q A → W → Prop
  /-- What happens between the calls. -/
  drift : W → W → Prop

variable {M : WorldModel Q A W}

/-- The calls lead from one world to another, which drifts before each call and
    after the last. -/
inductive WorldSteps (M : WorldModel Q A W) : W → List (Event Q A) → W → Prop where
  | nil  : ∀ {w w'}, M.drift w w' → WorldSteps M w [] w'
  | cons : ∀ {w w₁ w₂ w' e t}, M.drift w w₁ → M.call w₁ e w₂ → WorldSteps M w₂ t w' →
      WorldSteps M w (e :: t) w'

/-- The judgement descends into the program. At each call it asks for the crash invariant,
    and for the rest of the program to be safe in every world that the drift and then the call
    can lead to. -/
def CrashSafe (M : WorldModel Q A W) (I : W → Prop) :
    Prog Q A α → (α → W → Prop) → W → Prop
  | .done a, post, w => I w ∧ post a w
  | .call q next, post, w => I w ∧ ∀ w₁, M.drift w w₁ → ∀ ans w₂, M.call w₁ ⟨q, ans⟩ w₂ →
      CrashSafe M I (next ans) post w₂

/-- The world does not leave `P` on its own. -/
def Stable (M : WorldModel Q A W) (P : W → Prop) : Prop := ∀ w w', P w → M.drift w w' → P w'

variable {I P P' : W → Prop} {post post' : α → W → Prop} {w w' : W} {p : Prog Q A α}

/-! ## Rules -/

/-- Stable assertions can be combined. -/
theorem Stable.and (h : Stable M P) (h' : Stable M P') : Stable M fun w => P w ∧ P' w :=
  fun w w' hw hdrift => ⟨h w w' hw.1 hdrift, h' w w' hw.2 hdrift⟩

/-- A program that ends at once has to be in both assertions. -/
theorem crashSafe_pure {a : α} (hI : I w) (hpost : post a w) :
    CrashSafe M I (pure a : Prog Q A α) post w := ⟨hI, hpost⟩

/-- The postcondition can be weakened, the crash invariant stays. -/
theorem CrashSafe.mono (h : CrashSafe M I p post w) (hpost : ∀ a w, post a w → post' a w) :
    CrashSafe M I p post' w := by
  induction p generalizing w with
  | done a => exact ⟨h.1, hpost a w h.2⟩
  | call q next ih => exact ⟨h.1, fun w₁ hd ans w₂ hc => ih ans (h.2 w₁ hd ans w₂ hc)⟩

/-- The rule for sequencing: the first program ends where the second is safe. -/
theorem crashSafe_bind {f : α → Prog Q A β} {post : β → W → Prop}
    (h : CrashSafe M I p (fun a w => CrashSafe M I (f a) post w) w) :
    CrashSafe M I (p >>= f) post w := by
  induction p generalizing w with
  | done a => exact h.2
  | call q next ih => exact ⟨h.1, fun w₁ hd ans w₂ hc => ih ans (h.2 w₁ hd ans w₂ hc)⟩

/-- A call from a stable assertion. -/
theorem crashSafe_ask_bind {q : Q} {f : A q → Prog Q A α} (hstable : Stable M P)
    (hI : ∀ w, P w → I w) (hw : P w)
    (h : ∀ w ans w', P w → M.call w ⟨q, ans⟩ w' → CrashSafe M I (f ans) post w') :
    CrashSafe M I (ask q >>= f) post w :=
  ⟨hI w hw, fun w₁ hd ans w₂ hc => h w₁ ans w₂ (hstable w w₁ hw hd) hc⟩

/-! ## Soundness -/

/-- Wherever the program is cut off, a stable crash invariant holds. -/
theorem CrashSafe.cut {t : List (Event Q A)} (h : CrashSafe M I p post w) (hstable : Stable M I)
    (hp : Partial p t) (hw : WorldSteps M w t w') : I w' := by
  -- The induction is on the calls that were made, and the judgement moves along with the
  -- program that is left.
  induction hp generalizing w with
  | stop p =>
    cases hw with
    | nil hdrift =>
      cases p with
      | done a => exact hstable w w' h.1 hdrift
      | call q next => exact hstable w w' h.1 hdrift
  | call ans _ ih =>
    cases hw with
    | cons hdrift hcall hrest => exact ih (h.2 _ hdrift ans _ hcall) hrest

/-- Where the program ends, its stable postcondition holds. -/
theorem CrashSafe.ends {t : List (Event Q A)} {a : α} (h : CrashSafe M I p post w)
    (hstable : ∀ w w', post a w → M.drift w w' → post a w') (hp : Exec p t a)
    (hw : WorldSteps M w t w') : post a w' := by
  induction hp generalizing w with
  | done a =>
    cases hw with
    | nil hdrift => exact hstable w w' h.2 hdrift
  | call ans _ ih =>
    cases hw with
    | cons hdrift hcall hrest => exact ih (h.2 _ hdrift ans _ hcall) hstable hrest

/-! ## The calls so far

    What can be said about a point of a program may depend on the calls that
    led to it, besides the world. -/

/-- The same world, with the calls that were made in it. -/
def WorldModel.withCalls (M : WorldModel Q A W) : WorldModel Q A (W × List (Event Q A)) where
  call  := fun point e point' => M.call point.1 e point'.1 ∧ point'.2 = point.2 ++ [e]
  drift := fun point point' => M.drift point.1 point'.1 ∧ point'.2 = point.2

/-- Recording the calls takes nothing from what the world can do. -/
theorem WorldSteps.withCalls {t : List (Event Q A)} (h : WorldSteps M w t w')
    (past : List (Event Q A)) : WorldSteps M.withCalls (w, past) t (w', past ++ t) := by
  induction h generalizing past with
  | nil hdrift =>
    rw [List.append_nil]
    exact .nil ⟨hdrift, rfl⟩
  | @cons w w₁ w₂ w' e t hdrift hcall _ ih =>
    have hrest := ih (past ++ [e])
    rw [List.append_assoc, List.singleton_append] at hrest
    have hdrift' : M.withCalls.drift (w, past) (w₁, past) := ⟨hdrift, rfl⟩
    have hcall' : M.withCalls.call (w₁, past) e (w₂, past ++ [e]) := ⟨hcall, rfl⟩
    exact .cons hdrift' hcall' hrest

end Prog
