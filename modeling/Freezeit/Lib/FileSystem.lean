import Freezeit.Lib.Interaction
import Mathlib.Logic.Function.Basic

/-! # A file system, one call at a time

    A file has an inode and a content.  Each call can fail, and a failed write
    leaves anything behind in the file it wrote to.  A new file gets an inode
    that no existing file has; the inode of a file that is gone may come back.

    `P` are the paths, `C` the contents and `E` the errors; `missing e` says
    that `e` reports an absent file. -/

/-- A file has an identity that survives a change of its content. -/
structure FileNode (C : Type) where
  inode   : Nat
  content : C

abbrev FileSystem (P C : Type) : Type := P → Option (FileNode C)

/-- The calls that a program makes on its files. -/
inductive FileOp (P C : Type) where
  | read (path : P)
  /-- The inode. -/
  | metadata (path : P)
  /-- Open for writing; the file is created or emptied. -/
  | truncate (path : P)
  | write (path : P) (content : C)
  | sync (path : P)
  /-- Create the directories above the file. -/
  | createParents (path : P)
  | rename (source target : P)
  | remove (path : P)
  deriving DecidableEq, Repr

namespace FileOp

variable {P C : Type}

@[reducible] def Answer (E : Type) : FileOp P C → Type
  | .read _     => Except E C
  | .metadata _ => Except E Nat
  | _           => Except E Unit

/-- The paths whose file the call can change. -/
def Touches (path : P) : FileOp P C → Prop
  | .read _ | .metadata _ | .sync _ | .createParents _ => False
  | .truncate p | .write p _ | .remove p => p = path
  | .rename source target => source = path ∨ target = path

end FileOp

/-! ## What a call does -/

section step
variable {P C E : Type} [DecidableEq P]

/-- No file has this inode. -/
def FreshInode (fs : FileSystem P C) (inode : Nat) : Prop :=
  ∀ path node, fs path = some node → node.inode ≠ inode

/-- The file at `path` after it was given `content`: the old file, or a new one. -/
inductive Refilled (fs : FileSystem P C) (path : P) (content : C) : FileSystem P C → Prop where
  | kept : ∀ {node}, fs path = some node →
      Refilled fs path content (Function.update fs path (some ⟨node.inode, content⟩))
  | created : ∀ (inode : Nat), fs path = none → FreshInode fs inode →
      Refilled fs path content (Function.update fs path (some ⟨inode, content⟩))

/-- What a call may do with each answer. Reading reports an absent file exactly when the
    file is absent; apart from that any call may fail for any reason. -/
inductive FileStep (missing : E → Prop) (empty : C) (fs : FileSystem P C) :
    (op : FileOp P C) → op.Answer E → FileSystem P C → Prop where
  | read : ∀ {path node}, fs path = some node →
      FileStep missing empty fs (.read path) (.ok node.content) fs
  | readFailed : ∀ {path} (error : E), (missing error ↔ fs path = none) →
      FileStep missing empty fs (.read path) (.error error) fs
  | metadata : ∀ {path node}, fs path = some node →
      FileStep missing empty fs (.metadata path) (.ok node.inode) fs
  | metadataFailed : ∀ {path} (error : E), (missing error ↔ fs path = none) →
      FileStep missing empty fs (.metadata path) (.error error) fs
  | truncated : ∀ {path fs'}, Refilled fs path empty fs' →
      FileStep missing empty fs (.truncate path) (.ok ()) fs'
  | truncateFailed : ∀ {path} (error : E),
      FileStep missing empty fs (.truncate path) (.error error) fs
  | written : ∀ {path content fs'}, Refilled fs path content fs' →
      FileStep missing empty fs (.write path content) (.ok ()) fs'
  | writeFailed : ∀ {path content fs'} (partly : C) (error : E), Refilled fs path partly fs' →
      FileStep missing empty fs (.write path content) (.error error) fs'
  | writeRefused : ∀ {path content} (error : E),
      FileStep missing empty fs (.write path content) (.error error) fs
  | synced : ∀ {path} (answer : Except E Unit),
      FileStep missing empty fs (.sync path) answer fs
  | parentsCreated : ∀ {path} (answer : Except E Unit),
      FileStep missing empty fs (.createParents path) answer fs
  | renamed : ∀ {source target node}, fs source = some node →
      FileStep missing empty fs (.rename source target) (.ok ())
        (Function.update (Function.update fs source none) target (some node))
  | renameFailed : ∀ {source target} (error : E),
      FileStep missing empty fs (.rename source target) (.error error) fs
  | removed : ∀ {path node}, fs path = some node →
      FileStep missing empty fs (.remove path) (.ok ()) (Function.update fs path none)
  | removeFailed : ∀ {path} (error : E), (missing error ↔ fs path = none) →
      FileStep missing empty fs (.remove path) (.error error) fs

variable {missing : E → Prop} {empty : C} {fs fs' fs'' : FileSystem P C} {path : P}

/-- Filling one file changes no other. -/
theorem Refilled.frame {target : P} {content : C} (h : Refilled fs target content fs')
    (hne : target ≠ path) : fs' path = fs path := by
  cases h with
  | kept => exact Function.update_of_ne (Ne.symm hne) _ _
  | created => exact Function.update_of_ne (Ne.symm hne) _ _

/-- The file has the content that it was given. -/
theorem Refilled.content {target : P} {content : C} (h : Refilled fs target content fs') :
    ∃ inode, fs' target = some ⟨inode, content⟩ := by
  cases h with
  | kept => exact ⟨_, Function.update_self _ _ _⟩
  | created => exact ⟨_, Function.update_self _ _ _⟩

/-- Files that a call does not touch stay as they are. -/
theorem FileStep.frame {op : FileOp P C} {answer : op.Answer E}
    (h : FileStep missing empty fs op answer fs') (hop : ¬ op.Touches path) :
    fs' path = fs path := by
  cases h with
  | truncated hfill => exact hfill.frame hop
  | written hfill => exact hfill.frame hop
  | writeFailed partly error hfill => exact hfill.frame hop
  | renamed hsource =>
    rw [Function.update_of_ne fun heq => hop (.inr heq.symm),
      Function.update_of_ne fun heq => hop (.inl heq.symm)]
  | removed => exact Function.update_of_ne (fun heq => hop heq.symm) _ _
  | _ => rfl

/-- No two paths lead to the same inode. -/
def UniqueInodes (fs : FileSystem P C) : Prop :=
  ∀ path₁ path₂ node₁ node₂, fs path₁ = some node₁ → fs path₂ = some node₂ →
    node₁.inode = node₂.inode → path₁ = path₂

/-- A file that is put where no other file has its inode. -/
theorem UniqueInodes.put {target : P} {node : FileNode C} (h : UniqueInodes fs)
    (hnode : ∀ path old, path ≠ target → fs path = some old → old.inode ≠ node.inode) :
    UniqueInodes (Function.update fs target (some node)) := by
  intro path₁ path₂ node₁ node₂ h₁ h₂ heq
  -- The new file is compared with the old ones, and the old ones with each other.
  by_cases hp₁ : path₁ = target
  · by_cases hp₂ : path₂ = target
    · exact hp₁.trans hp₂.symm
    · rw [hp₁, Function.update_self] at h₁
      rw [Function.update_of_ne hp₂] at h₂
      cases h₁
      exact absurd heq.symm (hnode path₂ node₂ hp₂ h₂)
  · rw [Function.update_of_ne hp₁] at h₁
    by_cases hp₂ : path₂ = target
    · rw [hp₂, Function.update_self] at h₂
      cases h₂
      exact absurd heq (hnode path₁ node₁ hp₁ h₁)
    · rw [Function.update_of_ne hp₂] at h₂
      exact h path₁ path₂ node₁ node₂ h₁ h₂ heq

/-- Removing a file keeps the others apart. -/
theorem UniqueInodes.drop {target : P} (h : UniqueInodes fs) :
    UniqueInodes (Function.update fs target none) := by
  have hold : ∀ {path node}, Function.update fs target none path = some node →
      fs path = some node := by
    intro path node hnode
    by_cases hpath : path = target
    · rw [hpath, Function.update_self] at hnode
      cases hnode
    · rw [Function.update_of_ne hpath] at hnode
      exact hnode
  intro path₁ path₂ node₁ node₂ h₁ h₂ heq
  exact h path₁ path₂ node₁ node₂ (hold h₁) (hold h₂) heq

/-- A new inode was no other file's. -/
theorem Refilled.uniqueInodes {target : P} {content : C} (h : UniqueInodes fs)
    (hfill : Refilled fs target content fs') : UniqueInodes fs' := by
  cases hfill with
  | @kept node hnode =>
    apply h.put
    intro path old hne hold heq
    exact hne (h path target old node hold hnode heq)
  | created inode hnone hfresh =>
    apply h.put
    intro path old hne hold
    exact hfresh path old hold

/-- No call makes two paths lead to one file. -/
theorem FileStep.uniqueInodes {op : FileOp P C} {answer : op.Answer E} (h : UniqueInodes fs)
    (hstep : FileStep missing empty fs op answer fs') : UniqueInodes fs' := by
  cases hstep with
  | truncated hfill => exact hfill.uniqueInodes h
  | written hfill => exact hfill.uniqueInodes h
  | writeFailed partly error hfill => exact hfill.uniqueInodes h
  | @renamed source target node hnode =>
    -- A renamed file takes its inode along, and the old path is dropped first.
    apply h.drop.put
    intro path old hne hold heq
    by_cases hpath : path = source
    · rw [hpath, Function.update_self] at hold
      cases hold
    · rw [Function.update_of_ne hpath] at hold
      exact hpath (h path source old node hold hnode heq)
  | removed => exact h.drop
  | _ => exact h

/-- A rename that fails changes nothing. -/
theorem FileStep.rename_error {source target : P} {error : E}
    (h : FileStep missing empty fs (.rename source target) (.error error) fs') : fs' = fs := by
  cases h
  rfl

end step

/-! ## Runs of a larger system

    The calls of a trace that `view` shows to be file calls act on the files,
    the others do not. -/

section run
variable {P C E ε : Type} [DecidableEq P]

abbrev FileEvent (P C E : Type) : Type := Event (FileOp P C) (FileOp.Answer E)

/-- The files before and after a trace. -/
inductive FileRun (missing : E → Prop) (empty : C) (view : ε → Option (FileEvent P C E)) :
    FileSystem P C → List ε → FileSystem P C → Prop where
  | nil : ∀ fs, FileRun missing empty view fs [] fs
  | skip : ∀ {fs e t fs'}, view e = none → FileRun missing empty view fs t fs' →
      FileRun missing empty view fs (e :: t) fs'
  | call : ∀ {fs e call fs₁ t fs'}, view e = some call →
      FileStep missing empty fs call.query call.answer fs₁ →
      FileRun missing empty view fs₁ t fs' → FileRun missing empty view fs (e :: t) fs'

variable {missing : E → Prop} {empty : C} {view : ε → Option (FileEvent P C E)}
  {fs fs' : FileSystem P C} {t t₁ t₂ : List ε} {e : ε} {path : P}

namespace FileRun

@[simp] theorem nil_iff : FileRun missing empty view fs [] fs' ↔ fs' = fs := by
  constructor
  · intro h
    cases h
    rfl
  · rintro rfl
    exact .nil _

/-- A call that is no file call leaves the files alone. -/
theorem cons_of_none (he : view e = none) :
    FileRun missing empty view fs (e :: t) fs' ↔ FileRun missing empty view fs t fs' := by
  constructor
  · intro h
    cases h with
    | skip _ h => exact h
    | call hcall => rw [he] at hcall; cases hcall
  · exact .skip he

/-- A file call does its step. -/
theorem cons_of_some {call : FileEvent P C E} (he : view e = some call) :
    FileRun missing empty view fs (e :: t) fs' ↔
      ∃ fs₁, FileStep missing empty fs call.query call.answer fs₁
        ∧ FileRun missing empty view fs₁ t fs' := by
  constructor
  · intro h
    cases h with
    | skip hskip => rw [he] at hskip; cases hskip
    | call hcall hstep hrest =>
      obtain rfl := Option.some.inj (he.symm.trans hcall)
      exact ⟨_, hstep, hrest⟩
  · rintro ⟨fs₁, hstep, hrest⟩
    exact .call he hstep hrest

/-- Runs compose. -/
theorem append_iff :
    FileRun missing empty view fs (t₁ ++ t₂) fs' ↔
      ∃ fs₁, FileRun missing empty view fs t₁ fs₁ ∧ FileRun missing empty view fs₁ t₂ fs' := by
  induction t₁ generalizing fs with
  | nil => simp
  | cons e t₁ ih =>
    rw [List.cons_append]
    cases he : view e with
    | none => simp only [cons_of_none he, ih]
    | some call =>
      simp only [cons_of_some he, ih]
      constructor
      · rintro ⟨fs₁, hstep, fs₂, h₁, h₂⟩
        exact ⟨fs₂, ⟨fs₁, hstep, h₁⟩, h₂⟩
      · rintro ⟨fs₂, ⟨fs₁, hstep, h₁⟩, h₂⟩
        exact ⟨fs₁, hstep, fs₂, h₁, h₂⟩

/-- A run without a call that touches the file leaves it as it was. -/
theorem frame (h : FileRun missing empty view fs t fs')
    (ht : ∀ e ∈ t, ∀ call, view e = some call → ¬ call.query.Touches path) :
    fs' path = fs path := by
  induction h with
  | nil => rfl
  | skip _ _ ih => exact ih fun e he => ht e (List.mem_cons_of_mem _ he)
  | call hcall hstep _ ih =>
    rw [ih fun e he => ht e (List.mem_cons_of_mem _ he),
      hstep.frame (ht _ List.mem_cons_self _ hcall)]

/-- A run without file calls. -/
theorem eq_of_none (h : FileRun missing empty view fs t fs') (ht : ∀ e ∈ t, view e = none) :
    fs' = fs := by
  funext path
  exact h.frame fun e he call hcall => by
    rw [ht e he] at hcall
    cases hcall

/-- A whole run keeps the inodes apart. -/
theorem uniqueInodes (h : UniqueInodes fs) (hrun : FileRun missing empty view fs t fs') :
    UniqueInodes fs' := by
  induction hrun with
  | nil => exact h
  | skip _ _ ih => exact ih h
  | call _ hstep _ ih => exact ih (hstep.uniqueInodes h)

end FileRun

end run

/-! ## A file system that obliges

    Every call succeeds that can, unless it is made to fail.  New files get
    inodes that were never used before. -/

section serve
variable {P C E α : Type} [DecidableEq P]

/-- What the calls of a served run meet. -/
structure FileService (C E : Type) where
  /-- The error for an absent file. -/
  absent : E
  /-- The error of a call that is made to fail. -/
  fault  : E
  /-- Which calls fail, by their number. -/
  faulty : Nat → Bool
  empty  : C

namespace FileService

variable (service : FileService C E)

/-- A file keeps its inode when it is filled anew; a new one gets the number of the call. -/
def refill (fs : FileSystem P C) (number : Nat) (path : P) (content : C) : FileSystem P C :=
  Function.update fs path (some ⟨((fs path).map FileNode.inode).getD number, content⟩)

/-- The answer to a call and the files after it. -/
def serve (number : Nat) (fs : FileSystem P C) :
    (op : FileOp P C) → op.Answer E × FileSystem P C
  | .read path =>
    match fs path with
    | some node => (if service.faulty number then .error service.fault else .ok node.content, fs)
    | none      => (.error service.absent, fs)
  | .metadata path =>
    match fs path with
    | some node => (if service.faulty number then .error service.fault else .ok node.inode, fs)
    | none      => (.error service.absent, fs)
  | .truncate path =>
    if service.faulty number then (.error service.fault, fs)
    else (.ok (), refill fs number path service.empty)
  | .write path content =>
    if service.faulty number then (.error service.fault, fs)
    else (.ok (), refill fs number path content)
  | .sync _ => (if service.faulty number then .error service.fault else .ok (), fs)
  | .createParents _ => (if service.faulty number then .error service.fault else .ok (), fs)
  | .rename source target =>
    match fs source with
    | some node =>
      if service.faulty number then (.error service.fault, fs)
      else (.ok (), Function.update (Function.update fs source none) target (some node))
    | none => (.error service.absent, fs)
  | .remove path =>
    match fs path with
    | some _ =>
      if service.faulty number then (.error service.fault, fs)
      else (.ok (), Function.update fs path none)
    | none => (.error service.absent, fs)

/-- Run a program on the files; the calls are numbered from `number` on. -/
def serveRun : Prog (FileOp P C) (FileOp.Answer E) α → Nat → FileSystem P C →
    List (FileEvent P C E) × α × FileSystem P C
  | .done a, _, fs => ([], a, fs)
  | .call op next, number, fs =>
    let step := service.serve number fs op
    let rest := serveRun (next step.1) (number + 1) step.2
    (⟨op, step.1⟩ :: rest.1, rest.2)

/-- The number of the next call. -/
def nextCall (p : Prog (FileOp P C) (FileOp.Answer E) α) (number : Nat) (fs : FileSystem P C) : Nat :=
  number + (service.serveRun p number fs).1.length

/-- Every inode is below the number of the next call. -/
def InodesBelow (fs : FileSystem P C) (number : Nat) : Prop :=
  ∀ path node, fs path = some node → node.inode < number

variable {service : FileService C E} {missing : E → Prop} {fs : FileSystem P C} {number : Nat}

omit [DecidableEq P] in
theorem inodesBelow_none : InodesBelow (fun _ : P => (none : Option (FileNode C))) number := by
  intro path node hnode
  cases hnode

omit [DecidableEq P] in
theorem InodesBelow.mono {number' : Nat} (h : InodesBelow fs number) (hle : number ≤ number') :
    InodesBelow fs number' := fun path node hnode => Nat.lt_of_lt_of_le (h path node hnode) hle

theorem InodesBelow.update {path : P} {entry : Option (FileNode C)} (h : InodesBelow fs number)
    (hentry : ∀ node, entry = some node → node.inode < number) :
    InodesBelow (Function.update fs path entry) number := by
  intro path' node hnode
  by_cases heq : path' = path
  · rw [heq, Function.update_self] at hnode
    exact hentry node hnode
  · rw [Function.update_of_ne heq] at hnode
    exact h path' node hnode

theorem refilled_refill (h : InodesBelow fs number) (path : P) (content : C) :
    Refilled fs path content (refill fs number path content) := by
  unfold refill
  cases hnode : fs path with
  | some node => exact .kept hnode
  | none => exact .created number hnode fun path' node hnode' => Nat.ne_of_lt (h path' node hnode')

theorem inodesBelow_refill (h : InodesBelow fs number) (path : P) (content : C) :
    InodesBelow (refill fs number path content) (number + 1) := by
  refine (h.mono (Nat.le_succ _)).update ?_
  intro node hnode
  cases hnode
  cases hold : fs path with
  | some node => exact Nat.lt_succ_of_lt (h path node hold)
  | none => exact Nat.lt_succ_self _

theorem serve_step (habsent : missing service.absent) (hfault : ¬ missing service.fault)
    (h : InodesBelow fs number) (op : FileOp P C) :
    FileStep missing service.empty fs op (service.serve number fs op).1
        (service.serve number fs op).2
      ∧ InodesBelow (service.serve number fs op).2 (number + 1) := by
  have hkept := h.mono (Nat.le_succ number)
  have hmissing : ∀ {path : P}, fs path = none → (missing service.absent ↔ fs path = none) :=
    fun hnone => ⟨fun _ => hnone, fun _ => habsent⟩
  have hpresent : ∀ {path : P} {node}, fs path = some node →
      (missing service.fault ↔ fs path = none) := by
    intro path node hnode
    rw [hnode]
    exact ⟨fun hmiss => absurd hmiss hfault, nofun⟩
  cases op with
  | read path =>
    simp only [serve]
    split
    · next hnode =>
      split
      · exact ⟨.readFailed _ (hpresent hnode), hkept⟩
      · exact ⟨.read hnode, hkept⟩
    · next hnode => exact ⟨.readFailed _ (hmissing hnode), hkept⟩
  | metadata path =>
    simp only [serve]
    split
    · next hnode =>
      split
      · exact ⟨.metadataFailed _ (hpresent hnode), hkept⟩
      · exact ⟨.metadata hnode, hkept⟩
    · next hnode => exact ⟨.metadataFailed _ (hmissing hnode), hkept⟩
  | truncate path =>
    simp only [serve]
    split
    · exact ⟨.truncateFailed _, hkept⟩
    · exact ⟨.truncated (refilled_refill h path _), inodesBelow_refill h path _⟩
  | write path content =>
    simp only [serve]
    split
    · exact ⟨.writeRefused _, hkept⟩
    · exact ⟨.written (refilled_refill h path _), inodesBelow_refill h path _⟩
  | sync path => exact ⟨.synced _, hkept⟩
  | createParents path => exact ⟨.parentsCreated _, hkept⟩
  | rename source target =>
    simp only [serve]
    split
    · next node hnode =>
      split
      · exact ⟨.renameFailed _, hkept⟩
      · refine ⟨.renamed hnode, (hkept.update (by simp)).update ?_⟩
        intro node' hnode'
        cases hnode'
        exact Nat.lt_succ_of_lt (h source node hnode)
    · exact ⟨.renameFailed _, hkept⟩
  | remove path =>
    simp only [serve]
    split
    · next hnode =>
      split
      · exact ⟨.removeFailed _ (hpresent hnode), hkept⟩
      · exact ⟨.removed hnode, hkept.update (by simp)⟩
    · next hnode => exact ⟨.removeFailed _ (hmissing hnode), hkept⟩

/-- A served run is a run of the program, and of the files. -/
theorem serveRun_spec (habsent : missing service.absent) (hfault : ¬ missing service.fault)
    (h : InodesBelow fs number) (p : Prog (FileOp P C) (FileOp.Answer E) α) :
    Prog.Exec p (service.serveRun p number fs).1 (service.serveRun p number fs).2.1
      ∧ FileRun missing service.empty some fs (service.serveRun p number fs).1
        (service.serveRun p number fs).2.2
      ∧ InodesBelow (service.serveRun p number fs).2.2 (service.nextCall p number fs) := by
  induction p generalizing number fs with
  | done a => exact ⟨.done a, .nil fs, h⟩
  | call op next ih =>
    obtain ⟨hstep, hbelow⟩ := serve_step habsent hfault h op
    obtain ⟨hexec, hrun, hnext⟩ := ih (service.serve number fs op).1 hbelow
    refine ⟨.call _ hexec, .call rfl hstep hrun, ?_⟩
    show InodesBelow _ (number + ((service.serveRun _ _ _).1.length + 1))
    rw [show ∀ n, number + (n + 1) = number + 1 + n by omega]
    exact hnext

end FileService

end serve
