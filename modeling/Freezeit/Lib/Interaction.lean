import Freezeit.Lib.Transitions
import Mathlib.Data.List.Chain

/-! # Programs that call an environment

    A `Prog Q A α` issues queries `q : Q`, is given an answer in `A q` to each
    one, and ends with an `α`.  Nothing is assumed about the answers: `Exec p t a`
    holds of every trace `t` of calls, whatever the environment answered, after
    which `p` ends with `a`.  `Partial p t` holds of the traces of runs that
    were cut off at any point, `t` being what had been called by then.

    Assumptions on the environment are predicates on traces, and so are the
    properties proved of programs. -/

/-- One call with the answer it was given. -/
structure Event (Q : Type) (A : Q → Type) where
  query  : Q
  answer : A query

/-- A tree of queries: what comes next is a function of the answer. -/
inductive Prog (Q : Type) (A : Q → Type) (α : Type) where
  | done (a : α)
  | call (q : Q) (next : A q → Prog Q A α)

namespace Prog

variable {Q : Type} {A : Q → Type} {α β γ : Type}

protected def bind : Prog Q A α → (α → Prog Q A β) → Prog Q A β
  | .done a, f => f a
  | .call q next, f => .call q fun ans => (next ans).bind f

instance : Monad (Prog Q A) where
  pure := .done
  bind := Prog.bind

protected theorem bind_pure (p : Prog Q A α) : p.bind .done = p := by
  induction p with
  | done a => rfl
  | call q next ih => exact congrArg (Prog.call q) (funext ih)

protected theorem bind_assoc (p : Prog Q A α) (f : α → Prog Q A β) (g : β → Prog Q A γ) :
    (p.bind f).bind g = p.bind fun a => (f a).bind g := by
  induction p with
  | done a => rfl
  | call q next ih => exact congrArg (Prog.call q) (funext ih)

instance : LawfulMonad (Prog Q A) :=
  LawfulMonad.mk' _ Prog.bind_pure (fun _ _ => rfl) Prog.bind_assoc

/-- The program that makes one call and ends with the answer. -/
def ask (q : Q) : Prog Q A (A q) := .call q .done

/-! ## Executions -/

/-- The complete runs of a program. Nothing is asked of the answers but their type. -/
inductive Exec : Prog Q A α → List (Event Q A) → α → Prop where
  | done : ∀ a, Exec (.done a) [] a
  | call : ∀ {q next t a} (ans : A q),
      Exec (next ans) t a → Exec (.call q next) (⟨q, ans⟩ :: t) a

/-- A run cut off before its end, or exactly there. -/
inductive Partial : Prog Q A α → List (Event Q A) → Prop where
  | stop : ∀ p, Partial p []
  | call : ∀ {q next t} (ans : A q), Partial (next ans) t → Partial (.call q next) (⟨q, ans⟩ :: t)

@[simp] theorem exec_done {a b : α} {t : List (Event Q A)} :
    Exec (.done a : Prog Q A α) t b ↔ t = [] ∧ b = a := by
  constructor
  · intro h; cases h; exact ⟨rfl, rfl⟩
  · rintro ⟨rfl, rfl⟩; exact .done _

@[simp] theorem exec_pure {a b : α} {t : List (Event Q A)} :
    Exec (pure a : Prog Q A α) t b ↔ t = [] ∧ b = a := exec_done

/-- The runs of a call are those of what follows each possible answer. -/
theorem exec_call {q : Q} {next : A q → Prog Q A α} {t : List (Event Q A)} {b : α} :
    Exec (.call q next) t b ↔ ∃ ans t', t = ⟨q, ans⟩ :: t' ∧ Exec (next ans) t' b := by
  constructor
  · intro h
    cases h with
    | call ans h => exact ⟨ans, _, rfl, h⟩
  · rintro ⟨ans, t', rfl, h⟩; exact .call ans h

@[simp] theorem exec_ask {q : Q} {t : List (Event Q A)} {b : A q} :
    Exec (ask q : Prog Q A (A q)) t b ↔ t = [⟨q, b⟩] := by
  rw [ask, exec_call]
  constructor
  · rintro ⟨ans, t', rfl, h⟩
    obtain ⟨rfl, rfl⟩ := exec_done.mp h
    rfl
  · rintro rfl; exact ⟨b, [], rfl, .done b⟩

/-- The rule for sequencing: the trace splits where the first program ends. -/
theorem exec_bind {p : Prog Q A α} {f : α → Prog Q A β} {t : List (Event Q A)} {b : β} :
    Exec (p >>= f) t b ↔ ∃ t₁ t₂ a, t = t₁ ++ t₂ ∧ Exec p t₁ a ∧ Exec (f a) t₂ b := by
  show Exec (p.bind f) t b ↔ _
  -- The induction is on the first program, one call at a time.
  induction p generalizing t with
  | done a =>
    constructor
    · intro h; exact ⟨[], t, a, rfl, .done a, h⟩
    · rintro ⟨t₁, t₂, a', rfl, h₁, h₂⟩
      obtain ⟨rfl, rfl⟩ := exec_done.mp h₁
      exact h₂
  | call q next ih =>
    constructor
    · intro h
      obtain ⟨ans, t', rfl, hrest⟩ := exec_call.mp h
      obtain ⟨t₁, t₂, a, rfl, h₁, h₂⟩ := (ih ans).mp hrest
      exact ⟨_, t₂, a, rfl, .call ans h₁, h₂⟩
    · rintro ⟨t₁, t₂, a, rfl, h₁, h₂⟩
      obtain ⟨ans, t', rfl, hfirst⟩ := exec_call.mp h₁
      exact .call ans ((ih ans).mpr ⟨t', t₂, a, rfl, hfirst, h₂⟩)

/-- Sequencing after a single call. -/
theorem exec_ask_bind {q : Q} {f : A q → Prog Q A β} {t : List (Event Q A)} {b : β} :
    Exec (ask q >>= f) t b ↔ ∃ ans t', t = ⟨q, ans⟩ :: t' ∧ Exec (f ans) t' b := exec_call

/-- Every complete run is a run. -/
theorem Exec.toPartial {p : Prog Q A α} {t : List (Event Q A)} {a : α} (h : Exec p t a) :
    Partial p t := by
  induction h with
  | done a => exact .stop _
  | call ans _ ih => exact .call ans ih

theorem partial_pure {a : α} {t : List (Event Q A)} : Partial (pure a : Prog Q A α) t ↔ t = [] := by
  constructor
  · intro h
    cases h
    rfl
  · rintro rfl
    exact .stop _

/-- A sequence is cut off in its first program, or in the second. -/
theorem partial_bind {p : Prog Q A α} {f : α → Prog Q A β} {t : List (Event Q A)} :
    Partial (p >>= f) t ↔
      Partial p t ∨ ∃ t₁ t₂ a, t = t₁ ++ t₂ ∧ Exec p t₁ a ∧ Partial (f a) t₂ := by
  show Partial (p.bind f) t ↔ _
  induction p generalizing t with
  | done a =>
    constructor
    · intro h
      exact .inr ⟨[], t, a, rfl, .done a, h⟩
    · rintro (h | ⟨t₁, t₂, a', rfl, h₁, h₂⟩)
      · cases h
        exact .stop _
      · obtain ⟨rfl, rfl⟩ := exec_done.mp h₁
        exact h₂
  | call q next ih =>
    constructor
    · intro h
      -- A run that has made no call yet is cut off in the first program.
      cases h with
      | stop => exact .inl (.stop _)
      | call ans h =>
        rcases (ih ans).mp h with h | ⟨t₁, t₂, a, rfl, h₁, h₂⟩
        · exact .inl (.call ans h)
        · exact .inr ⟨_, t₂, a, rfl, .call ans h₁, h₂⟩
    · rintro (h | ⟨t₁, t₂, a, rfl, h₁, h₂⟩)
      · cases h with
        | stop => exact .stop _
        | call ans h => exact .call ans ((ih ans).mpr (.inl h))
      · obtain ⟨ans, t', rfl, hfirst⟩ := exec_call.mp h₁
        exact .call ans ((ih ans).mpr (.inr ⟨t', t₂, a, rfl, hfirst, h₂⟩))

/-- A single call is cut off before it, or later. -/
theorem partial_ask_bind {q : Q} {f : A q → Prog Q A β} {t : List (Event Q A)} :
    Partial (ask q >>= f) t ↔ t = [] ∨ ∃ ans t', t = ⟨q, ans⟩ :: t' ∧ Partial (f ans) t' := by
  constructor
  · intro h
    cases h with
    | stop => exact .inl rfl
    | call ans h => exact .inr ⟨ans, _, rfl, h⟩
  · rintro (rfl | ⟨ans, t', rfl, h⟩)
    · exact .stop _
    · exact .call ans h

/-! ## Single calls -/

/-- One call of a program, and what is left of it then. -/
inductive Next : Prog Q A α → Event Q A → Prog Q A α → Prop where
  | call : ∀ (q : Q) (next : A q → Prog Q A α) (ans : A q), Next (.call q next) ⟨q, ans⟩ (next ans)

/-- An execution goes on from wherever single calls have led. -/
theorem exec_of_path {p rest : Prog Q A α} {t t' : List (Event Q A)} {a : α}
    (h : Steps Next p t rest) (hrest : Exec rest t' a) : Exec p (t ++ t') a := by
  induction h generalizing t' with
  | nil => exact hrest
  | snoc _ hlast ih =>
    cases hlast with
    | call q next ans =>
      have hall := ih (.call ans hrest)
      simpa using hall

/-- An execution can be stopped after any of its calls. -/
theorem Exec.path {p : Prog Q A α} {t t' : List (Event Q A)} {a : α} (h : Exec p (t ++ t') a) :
    ∃ rest, Steps Next p t rest ∧ Exec rest t' a := by
  induction t generalizing p with
  | nil => exact ⟨p, .nil, h⟩
  | cons e t ih =>
    cases h with
    | call ans h =>
      obtain ⟨rest, hpath, hexec⟩ := ih h
      exact ⟨rest, Steps.cons_iff.mpr ⟨_, .call _ _ ans, hpath⟩, hexec⟩

/-! ## What a program calls -/

/-- Every call of the program, in every execution, satisfies `P`. -/
def Calls (P : Event Q A → Prop) (p : Prog Q A α) : Prop :=
  ∀ t a, Exec p t a → ∀ e ∈ t, P e

section calls
variable {P : Event Q A → Prop}

/-- A program that ends at once makes no call. -/
theorem calls_pure {a : α} : Calls P (pure a : Prog Q A α) := by
  intro t b h e he
  obtain ⟨rfl, rfl⟩ := exec_pure.mp h
  simp at he

/-- A sequence makes the calls of its parts. -/
theorem calls_bind {p : Prog Q A α} {f : α → Prog Q A β} (hp : Calls P p)
    (hf : ∀ a, Calls P (f a)) : Calls P (p >>= f) := by
  intro t b h e he
  obtain ⟨t₁, t₂, a, rfl, h₁, h₂⟩ := exec_bind.mp h
  rcases List.mem_append.mp he with he | he
  · exact hp _ _ h₁ e he
  · exact hf a _ _ h₂ e he

/-- The rule for one call and what follows it. -/
theorem calls_ask_bind {q : Q} {f : A q → Prog Q A β} (hq : ∀ ans, P ⟨q, ans⟩)
    (hf : ∀ ans, Calls P (f ans)) : Calls P (ask q >>= f) := by
  intro t b h e he
  obtain ⟨ans, t', rfl, hrest⟩ := exec_ask_bind.mp h
  rcases List.mem_cons.mp he with rfl | he
  · exact hq ans
  · exact hf ans _ _ hrest e he

end calls

/-! ## Running against a given environment -/

/-- Run `p` against an environment that answers from the calls made so far. -/
def run (env : List (Event Q A) → (q : Q) → A q) :
    List (Event Q A) → Prog Q A α → List (Event Q A) × α
  | _, .done a => ([], a)
  | past, .call q next =>
      let ans := env past q
      let rest := run env (past ++ [⟨q, ans⟩]) (next ans)
      (⟨q, ans⟩ :: rest.1, rest.2)

/-- What an environment drives a program to is one of its executions. -/
theorem exec_run (env : List (Event Q A) → (q : Q) → A q) (past : List (Event Q A))
    (p : Prog Q A α) : Exec p (run env past p).1 (run env past p).2 := by
  induction p generalizing past with
  | done a => exact .done a
  | call q next ih => exact .call _ (ih _ _)

/-- Every call of such a run carries the environment's answer. -/
theorem mem_run {env : List (Event Q A) → (q : Q) → A q} {past : List (Event Q A)}
    {p : Prog Q A α} {e : Event Q A} (h : e ∈ (run env past p).1) :
    ∃ past', e.answer = env past' e.query := by
  induction p generalizing past with
  | done a => simp [run] at h
  | call q next ih =>
    rcases List.mem_cons.mp h with rfl | h
    · exact ⟨past, rfl⟩
    · exact ih _ h

/-! ## Interpreting the calls of a program by programs -/

variable {Q' : Type} {A' : Q' → Type}

/-- Answer every call of the program by running `h` on it. -/
def interpret (h : (q : Q) → Prog Q' A' (A q)) : Prog Q A α → Prog Q' A' α
  | .done a => .done a
  | .call q next => h q >>= fun ans => (next ans).interpret h

/-- `Handled h t t'`: `t'` is what is called below when `h` answers the calls of `t`. -/
inductive Handled (h : (q : Q) → Prog Q' A' (A q)) :
    List (Event Q A) → List (Event Q' A') → Prop where
  | nil  : Handled h [] []
  | cons : ∀ {q ans t s t'}, Exec (h q) s ans → Handled h t t' →
      Handled h (⟨q, ans⟩ :: t) (s ++ t')

/-- Every call of the program has an execution of its handler. -/
theorem Handled.exec {h : (q : Q) → Prog Q' A' (A q)} {t : List (Event Q A)}
    {t' : List (Event Q' A')} (hh : Handled h t t') {e : Event Q A} (he : e ∈ t) :
    ∃ s, Exec (h e.query) s e.answer := by
  induction hh with
  | nil => simp at he
  | cons hs _ ih =>
    rcases List.mem_cons.mp he with rfl | he
    · exact ⟨_, hs⟩
    · exact ih he

/-- Every call below is made by the handler of some call of the program. -/
theorem Handled.source {h : (q : Q) → Prog Q' A' (A q)} {t : List (Event Q A)}
    {t' : List (Event Q' A')} (hh : Handled h t t') {e' : Event Q' A'} (he : e' ∈ t') :
    ∃ e ∈ t, ∃ s, Exec (h e.query) s e.answer ∧ e' ∈ s := by
  induction hh with
  | nil => simp at he
  | @cons q ans t s t' hs _ ih =>
    rcases List.mem_append.mp he with he | he
    · exact ⟨⟨q, ans⟩, List.mem_cons_self, s, hs, he⟩
    · obtain ⟨e, hmem, hrest⟩ := ih he
      exact ⟨e, List.mem_cons_of_mem _ hmem, hrest⟩

/-- The runs of an interpreted program are runs of the program whose calls are handled one
    after the other. -/
theorem exec_interpret {h : (q : Q) → Prog Q' A' (A q)} {p : Prog Q A α}
    {t' : List (Event Q' A')} {a : α} :
    Exec (p.interpret h) t' a ↔ ∃ t, Exec p t a ∧ Handled h t t' := by
  induction p generalizing t' with
  | done b =>
    rw [interpret, exec_done]
    constructor
    · rintro ⟨rfl, rfl⟩; exact ⟨[], .done _, .nil⟩
    · rintro ⟨t, ht, hh⟩
      obtain ⟨rfl, rfl⟩ := exec_done.mp ht
      cases hh
      exact ⟨rfl, rfl⟩
  | call q next ih =>
    rw [interpret, exec_bind]
    constructor
    -- What is called below splits after the handler of the first call.
    · rintro ⟨s, t₂, ans, rfl, hs, hrest⟩
      obtain ⟨t, ht, hh⟩ := (ih ans).mp hrest
      exact ⟨_, .call ans ht, .cons hs hh⟩
    · rintro ⟨t, ht, hh⟩
      obtain ⟨ans, t₁, rfl, hrest⟩ := exec_call.mp ht
      cases hh with
      | cons hs hh => exact ⟨_, _, ans, rfl, hs, (ih ans).mpr ⟨t₁, hrest, hh⟩⟩

end Prog

/-! ## Calls that must follow another call

    `Follows P R t`: every call of `t` that satisfies `P` comes directly after
    a call of `t` that stands in relation `R` to it. -/

section follows
variable {ε : Type} {P : ε → Prop} {R : ε → ε → Prop}

/-- The first call has no call before it, so it must not need one. -/
structure Follows (P : ε → Prop) (R : ε → ε → Prop) (t : List ε) : Prop where
  head  : ∀ e ∈ t.head?, ¬ P e
  chain : t.IsChain fun a b => P b → R a b

theorem Follows.nil : Follows P R [] := ⟨by simp, .nil⟩

/-- A call outside `P` may stand anywhere. -/
theorem Follows.cons {e : ε} {t : List ε} (he : ¬ P e) (ht : Follows P R t) :
    Follows P R (e :: t) where
  head := by simpa using he
  chain := by
    cases t with
    | nil => exact .singleton e
    | cons b t =>
      exact List.isChain_cons_cons.mpr ⟨fun hb => absurd hb (ht.head b (by simp)), ht.chain⟩

theorem Follows.single {e : ε} (he : ¬ P e) : Follows P R [e] := Follows.nil.cons he

/-- A call with its guard right before it. -/
theorem Follows.guarded {g e : ε} {t : List ε} (hg : ¬ P g) (hge : R g e)
    (ht : Follows P R t) : Follows P R (g :: e :: t) where
  head := by simpa using hg
  chain := by
    refine List.isChain_cons_cons.mpr ⟨fun _ => hge, ?_⟩
    cases t with
    | nil => exact .singleton e
    | cons b t =>
      exact List.isChain_cons_cons.mpr ⟨fun hb => absurd hb (ht.head b (by simp)), ht.chain⟩

/-- Traces with their guards can be put together, since no guard is looked for across the
    seam. -/
theorem Follows.append {t₁ t₂ : List ε} (h₁ : Follows P R t₁) (h₂ : Follows P R t₂) :
    Follows P R (t₁ ++ t₂) where
  head := by
    cases t₁ with
    | nil => simpa using h₂.head
    | cons a t => simpa using h₁.head
  chain := by
    refine List.isChain_append.mpr ⟨h₁.chain, h₂.chain, fun a _ b hb hp => ?_⟩
    exact absurd hp (h₂.head b hb)

theorem Follows.flatMap {α : Type} {l : List α} {f : α → List ε}
    (h : ∀ a ∈ l, Follows P R (f a)) : Follows P R (l.flatMap f) := by
  induction l with
  | nil => exact .nil
  | cons a l ih =>
    exact (h a (by simp)).append (ih fun b hb => h b (List.mem_cons_of_mem _ hb))

/-- Traces without a call in `P`. -/
theorem Follows.of_forall_not {t : List ε} (h : ∀ e ∈ t, ¬ P e) : Follows P R t := by
  induction t with
  | nil => exact .nil
  | cons e t ih =>
    exact Follows.cons (h e (by simp)) (ih fun x hx => h x (List.mem_cons_of_mem _ hx))

end follows
