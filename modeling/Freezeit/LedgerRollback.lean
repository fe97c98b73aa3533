import Freezeit.LedgerMap

/-! # An older daemon at the SIGSTOP ledger

    A daemon from before the sidecar replaces the main ledger and leaves the
    sidecar alone.  The generation in the sidecar is the inode of the main
    ledger, so what was promoted is known for stale as long as that inode has
    not come back. -/

namespace Freezeit

open Prog

variable {env : LedgerEnv} {fs fs' fs₁ : LedgerFiles} {t : List LedgerEvent}
  {identity : SignalStopIdentity}

/-! ## Rewrites -/

/-- What an older daemon does to the ledger: it knows nothing of the sidecar, and writes
    the whole text to a temporary file that it renames. -/
structure LegacyRewrite where
  processId : Nat
  text      : String
  /-- The inode that the file system gave to the file which is now the ledger. -/
  inode     : Nat

/-- The file operations of one rewrite. All of them succeed; a failed one leaves the
    ledger as it was. -/
def LegacyRewrite.calls (rewrite : LegacyRewrite) : List LedgerEvent :=
  [⟨.truncate (.mainTemporary rewrite.processId), .ok ()⟩,
    ⟨.write (.mainTemporary rewrite.processId) rewrite.text, .ok ()⟩,
    ⟨.rename (.mainTemporary rewrite.processId) .main, .ok ()⟩]

/-- Any number of rewrites, each with the inode that the ledger has afterwards. -/
inductive LegacyRewrites (fs : LedgerFiles) : List LegacyRewrite → LedgerFiles → Prop where
  | nil : LegacyRewrites fs [] fs
  | concat : ∀ {past fs₁ rewrite node fs'}, LegacyRewrites fs past fs₁ →
      LedgerRun fs₁ (LegacyRewrite.calls rewrite) fs' →
      fs' .main = some node → node.inode = rewrite.inode →
      LegacyRewrites fs (past ++ [rewrite]) fs'

/-- A rewrite replaces the main ledger and leaves the sidecar. -/
theorem LegacyRewrite.effect {rewrite : LegacyRewrite} (h : LedgerRun fs rewrite.calls fs') :
    fs'.text .main = some rewrite.text ∧ fs' .sidecar = fs .sidecar := by
  refine ⟨?_, ?_⟩
  · obtain ⟨fs₁, -, h₁⟩ := ledgerRun_cons.mp h
    obtain ⟨fs₂, hwritten, h₂⟩ := ledgerRun_cons.mp h₁
    obtain ⟨fs₃, hrenamed, h₃⟩ := ledgerRun_cons.mp h₂
    rw [FileRun.nil_iff.mp h₃]
    cases hrenamed with
    | @renamed _ _ node hnode =>
      cases hwritten with
      | written hfill =>
        obtain ⟨inode, hcontent⟩ := hfill.content
        rw [hcontent] at hnode
        cases hnode
        unfold LedgerFiles.text
        rw [Function.update_self]
        rfl
  -- None of the three calls names the sidecar.
  · apply h.frame
    intro e he call hcall htouches
    cases hcall
    simp only [LegacyRewrite.calls, List.mem_cons, List.not_mem_nil, or_false] at he
    rcases he with rfl | rfl | rfl
    · cases htouches
    · cases htouches
    · cases htouches with
      | inl hsource => cases hsource
      | inr htarget => cases htarget

/-- Rewrites leave the sidecar alone. -/
theorem LegacyRewrites.sidecar {rewrites : List LegacyRewrite} (h : LegacyRewrites fs rewrites fs') :
    fs' .sidecar = fs .sidecar := by
  induction h with
  | nil => rfl
  | concat _ hrun _ _ ih => rw [(LegacyRewrite.effect hrun).2, ih]

/-- The file of a rewrite is never the ledger that it replaces. -/
theorem LegacyRewrite.inode_ne {rewrite : LegacyRewrite} {old new : FileNode String}
    (hunique : UniqueInodes fs) (h : LedgerRun fs rewrite.calls fs') (hold : fs .main = some old)
    (hnew : fs' .main = some new) : new.inode ≠ old.inode := by
  obtain ⟨fs₁, htruncated, h₁⟩ := ledgerRun_cons.mp h
  obtain ⟨fs₂, hwritten, h₂⟩ := ledgerRun_cons.mp h₁
  obtain ⟨fs₃, hrenamed, h₃⟩ := ledgerRun_cons.mp h₂
  rw [FileRun.nil_iff.mp h₃] at hnew
  -- The old ledger is still there when the new file is complete.
  have hunique₂ := hwritten.uniqueInodes (htruncated.uniqueInodes hunique)
  have hold₂ : fs₂ .main = some old := by
    rw [hwritten.frame (by simp [FileOp.Touches]), htruncated.frame (by simp [FileOp.Touches])]
    exact hold
  cases hrenamed with
  | @renamed _ _ node hnode =>
    rw [Function.update_self] at hnew
    cases hnew
    intro heq
    cases hunique₂ _ _ _ _ hnode hold₂ heq

/-! ## What is reported -/

/-- The daemon can be told that only its own SIGSTOP holds the process. -/
def LedgerEnv.ReportsSignalOnly (env : LedgerEnv) (fs : LedgerFiles) (i : SignalStopIdentity) : Prop :=
  ∃ t fs', Exec (env.recordedSignalStopOwnership i) t (.ok (some .signalOnly)) ∧ LedgerRun fs t fs'

/-- It is told so exactly if the two files say so. -/
theorem reportsSignalOnly_iff :
    env.ReportsSignalOnly fs identity ↔ env.ownership fs identity = some .signalOnly := by
  constructor
  · intro h
    obtain ⟨t, fs', hexec, hrun⟩ := h
    obtain ⟨main, inode, sidecar, records, rfl, hrecords, hrecord, hsignal⟩ :=
      exec_reported_signalOnly.mp hexec
    obtain ⟨fs₁, hmain, hrun₁⟩ := ledgerRun_cons.mp hrun
    have hsame₁ : fs₁ = fs := FileStep.eq_of_untouched hmain fun _ => id
    subst hsame₁
    obtain ⟨fs₂, hstat, hrun₂⟩ := ledgerRun_cons.mp hrun₁
    have hsame₂ : fs₂ = fs₁ := FileStep.eq_of_untouched hstat fun _ => id
    subst hsame₂
    obtain ⟨fs₃, hread, -⟩ := ledgerRun_cons.mp hrun₂
    have hsame₃ : fs₃ = fs₂ := FileStep.eq_of_untouched hread fun _ => id
    subst hsame₃
    unfold SignalStopProvenanceLedger.isSignalOnly at hsignal
    rw [Bool.and_eq_true, Bool.not_eq_true', decide_eq_true_eq] at hsignal
    have hprovenance := (provenance_of_read hread).resolve_right fun hfailed => by
      rw [hsignal.1] at hfailed
      cases hfailed.1
    rw [hprovenance] at hsignal
    rw [records_of_read hmain hrecords] at hrecord
    refine ownership_eq_signalOnly.mpr ⟨hrecord, ⟨env.device, inode⟩, ?_, hsignal⟩
    unfold LedgerEnv.generationIn
    cases hstat with
    | metadata hnode =>
      rw [hnode]
      rfl
  · intro h
    obtain ⟨hrecord, g, hg, htrusted, hget⟩ := ownership_eq_signalOnly.mp h
    -- The files determine the answers of the three calls, so a run can be built.
    obtain ⟨node, hnode, rfl⟩ := Option.map_eq_some_iff.mp hg
    cases hsidecar : fs .sidecar with
    | none =>
      unfold LedgerFiles.text at hget
      rw [hsidecar] at hget
      cases hget
    | some note =>
      unfold LedgerFiles.text at hrecord htrusted hget
      rw [hnode] at hrecord
      rw [hsidecar] at htrusted hget
      refine ⟨_, fs, exec_reported_signalOnly.mpr
        ⟨.ok node.content, node.inode, .ok note.content, _, rfl, rfl, hrecord, ?_⟩, ?_⟩
      · unfold SignalStopProvenanceLedger.isSignalOnly
        rw [Bool.and_eq_true, Bool.not_eq_true', decide_eq_true_eq]
        exact ⟨htrusted, hget⟩
      · exact ledgerRun_cons.mpr ⟨fs, .read hnode, ledgerRun_cons.mpr ⟨fs, .metadata hnode,
          ledgerRun_cons.mpr ⟨fs, .read hsidecar, .nil fs⟩⟩⟩

/-! ## Rewriting what was promoted -/

/-- No rewrite changes nothing. -/
theorem LegacyRewrites.eq_of_nil (h : LegacyRewrites fs [] fs') : fs' = fs := by
  generalize hnil : ([] : List LegacyRewrite) = rewrites at h
  cases h with
  | nil => rfl
  | @concat past => cases past with
    | nil => cases hnil
    | cons => cases hnil

/-- The last rewrite split off. -/
theorem LegacyRewrites.concat_iff {past : List LegacyRewrite} {last : LegacyRewrite} :
    LegacyRewrites fs (past ++ [last]) fs' ↔ ∃ (fs₁ : LedgerFiles) (node : FileNode String),
      LegacyRewrites fs past fs₁ ∧ LedgerRun fs₁ last.calls fs' ∧ fs' .main = some node
        ∧ node.inode = last.inode := by
  constructor
  · intro h
    generalize hall : past ++ [last] = rewrites at h
    cases h with
    | nil => simp at hall
    | concat hpast hrun hnode hinode =>
      obtain ⟨rfl, hlast⟩ := List.append_inj' hall rfl
      cases hlast
      exact ⟨_, _, hpast, hrun, hnode, hinode⟩
  · intro h
    obtain ⟨fs₁, node, hpast, hrun, hnode, hinode⟩ := h
    exact .concat hpast hrun hnode hinode

/-- What is reported after the last rewrite of a promoted ledger. -/
theorem reportsSignalOnly_after {past : List LegacyRewrite} {last : LegacyRewrite}
    {node : FileNode String} (hpromoted : env.ReportsSignalOnly fs identity)
    (hnode : fs .main = some node) (h : LegacyRewrites fs (past ++ [last]) fs') :
    env.ReportsSignalOnly fs' identity ↔
      last.inode = node.inode ∧ (ledgerRecords (some last.text)).get? identity = some .canonical := by
  obtain ⟨-, g, hg, htrusted, hget⟩ := ownership_eq_signalOnly.mp (reportsSignalOnly_iff.mp hpromoted)
  have hsidecar : fs'.text .sidecar = fs.text .sidecar := by
    unfold LedgerFiles.text
    rw [h.sidecar]
  obtain ⟨fs₁, node', -, hrun, hnode', hinode⟩ := LegacyRewrites.concat_iff.mp h
  -- Only the last rewrite matters: it alone decides the generation and the records.
  have hgeneration : env.generationIn fs' = some ⟨env.device, last.inode⟩ := by
    unfold LedgerEnv.generationIn
    rw [hnode', ← hinode]
    rfl
  unfold LedgerEnv.generationIn at hg
  rw [hnode] at hg
  cases hg
  rw [reportsSignalOnly_iff, ownership_eq_signalOnly, (LegacyRewrite.effect hrun).1, hsidecar,
    hgeneration]
  constructor
  · intro h
    obtain ⟨hrecord, g, hg, -, hget'⟩ := h
    cases hg
    rw [hget] at hget'
    have hback := SignalStopProvenanceRecord.signalOnly.inj (Option.some.inj hget')
    exact ⟨(congrArg SignalStopLedgerGeneration.inode hback).symm, hrecord⟩
  · intro h
    obtain ⟨heq, hrecord⟩ := h
    refine ⟨hrecord, _, rfl, htrusted, ?_⟩
    rw [heq]
    exact hget

/-- The rewrites of an older daemon have taken back what was promoted, unless
    the last of them put the record into a file with the inode that the
    promoted ledger had. -/
theorem legacy_rewrites_invalidate_iff {past : List LegacyRewrite} {last : LegacyRewrite}
    {node : FileNode String} (hpromoted : env.ReportsSignalOnly fs identity)
    (hnode : fs .main = some node) (h : LegacyRewrites fs (past ++ [last]) fs') :
    ¬ env.ReportsSignalOnly fs' identity ↔
      last.inode ≠ node.inode
        ∨ (ledgerRecords (some last.text)).get? identity ≠ some .canonical := by
  rw [reportsSignalOnly_after hpromoted hnode h, not_and_or]

/-- One rewrite never gets the inode of the ledger that it replaces. -/
theorem one_rewrite_invalidates {rewrite : LegacyRewrite} (hunique : UniqueInodes fs)
    (hpromoted : env.ReportsSignalOnly fs identity) (h : LegacyRewrites fs [rewrite] fs') :
    ¬ env.ReportsSignalOnly fs' identity := by
  obtain ⟨-, g, hg, -⟩ := ownership_eq_signalOnly.mp (reportsSignalOnly_iff.mp hpromoted)
  obtain ⟨node, hnode, -⟩ := Option.map_eq_some_iff.mp hg
  have hone : LegacyRewrites fs ([] ++ [rewrite]) fs' := h
  obtain ⟨fs₁, node', hpast, hrun, hnode', hinode⟩ := LegacyRewrites.concat_iff.mp hone
  have hsame := hpast.eq_of_nil
  subst hsame
  rw [reportsSignalOnly_after hpromoted hnode hone, ← hinode]
  intro hback
  exact LegacyRewrite.inode_ne hunique hrun hnode hnode' hback.1

/-! ### An inode that comes back -/

/-- A rewrite can be given any inode that no file has. -/
theorem LegacyRewrite.run {rewrite : LegacyRewrite}
    (hnone : fs (.mainTemporary rewrite.processId) = none) (hfresh : FreshInode fs rewrite.inode) :
    LedgerRun fs rewrite.calls
      (Function.update fs .main (some ⟨rewrite.inode, rewrite.text⟩)) := by
  let temporary : LedgerPath := .mainTemporary rewrite.processId
  let fs₁ : LedgerFiles := Function.update fs temporary (some ⟨rewrite.inode, ""⟩)
  let fs₂ : LedgerFiles := Function.update fs₁ temporary (some ⟨rewrite.inode, rewrite.text⟩)
  have hcreated : Refilled fs temporary "" fs₁ := .created rewrite.inode hnone hfresh
  have hfilled : Refilled fs₁ temporary rewrite.text fs₂ := .kept (Function.update_self _ _ _)
  have hmoved : Function.update (Function.update fs₂ temporary none) .main
      (some ⟨rewrite.inode, rewrite.text⟩)
        = Function.update fs .main (some ⟨rewrite.inode, rewrite.text⟩) := by
    have hgone : Function.update fs₂ temporary none = fs := by
      show Function.update (Function.update (Function.update fs _ _) _ _) _ _ = fs
      rw [Function.update_idem, Function.update_idem, ← hnone, Function.update_eq_self]
    rw [hgone]
  refine ledgerRun_cons.mpr ⟨fs₁, .truncated hcreated, ledgerRun_cons.mpr ⟨fs₂, .written hfilled, ?_⟩⟩
  rw [← hmoved]
  exact ledgerRun_cons.mpr ⟨_, .renamed (Function.update_self _ _ _), .nil _⟩

/-- A ledger with one record, process 2, and no sidecar. -/
def recordedLedger : LedgerFiles
  | .main => some ⟨7, "2 20\n"⟩
  | _     => none

/-- The sample disk holds the ledger and nothing else. -/
theorem mem_recordedLedger {path : LedgerPath} {node : FileNode String}
    (h : recordedLedger path = some node) : path = .main ∧ node = ⟨7, "2 20\n"⟩ := by
  cases path with
  | main => exact ⟨rfl, (Option.some.inj h).symm⟩
  | sidecar => cases h
  | mainTemporary processId => cases h
  | sidecarTemporary processId => cases h

/-- Process 2 is promoted, and its ledger rewritten as it was, twice.  The second
    rewrite gets the inode that the first has set free. -/
theorem rewritten_twice :
    ∃ t fs node fs' inode, UniqueInodes recordedLedger ∧ LedgerRun recordedLedger t fs
      ∧ Exec (LedgerEnv.promoteFreezeitSignalStopAtPath ⟨1, 9⟩ ⟨2, 20⟩) t (.ok true)
      ∧ LedgerEnv.ReportsSignalOnly ⟨1, 9⟩ fs ⟨2, 20⟩
      ∧ fs .main = some node ∧ node.inode = 7
      ∧ LegacyRewrites fs ([⟨5, "2 20\n", inode⟩] ++ [⟨5, "2 20\n", 7⟩]) fs' := by
  let env : LedgerEnv := ⟨1, 9⟩
  let promoting := env.promoteFreezeitSignalStopAtPath ⟨2, 20⟩
  let disk := ledgerDisk fun _ => false
  let promoted := disk.serveRun promoting 9 recordedLedger
  let n := disk.nextCall promoting 9 recordedLedger
  -- The first rewrite frees inode 7, the second one may be given it again.
  have hunique : UniqueInodes recordedLedger := by
    intro path₁ path₂ node₁ node₂ h₁ h₂ _
    rw [(mem_recordedLedger h₁).1, (mem_recordedLedger h₂).1]
  have hbelow : FileService.InodesBelow recordedLedger 9 := by
    intro path node hnode
    rw [(mem_recordedLedger hnode).2]
    decide
  obtain ⟨hexec, hrun, hbelow'⟩ :
      Exec promoting promoted.1 promoted.2.1 ∧ LedgerRun recordedLedger promoted.1 promoted.2.2
        ∧ FileService.InodesBelow promoted.2.2 n := ledgerDisk_run hbelow promoting
  have hok : promoted.2.1 = .ok true := by decide +kernel
  rw [hok] at hexec
  have hreports : env.ReportsSignalOnly promoted.2.2 ⟨2, 20⟩ :=
    reportsSignalOnly_iff.mpr (by decide +kernel)
  have hmain : (promoted.2.2 .main).map FileNode.inode = some 7 := by decide +kernel
  obtain ⟨node, hnode, hinode⟩ := Option.map_eq_some_iff.mp hmain
  have hnone : promoted.2.2 (.mainTemporary 5) = none :=
    Option.isNone_iff_eq_none.mp (by decide +kernel)
  have hfirst : LedgerRun promoted.2.2 (LegacyRewrite.calls ⟨5, "2 20\n", n⟩) _ :=
    LegacyRewrite.run hnone fun path node hnode => Nat.ne_of_lt (hbelow' path node hnode)
  have hreused : FreshInode (Function.update promoted.2.2 .main (some ⟨n, "2 20\n"⟩)) 7 := by
    intro path other hother heq
    by_cases hpath : path = .main
    · rw [hpath, Function.update_self] at hother
      cases hother
      have hlt := hbelow' .main node hnode
      rw [hinode] at hlt
      exact Nat.ne_of_gt hlt heq
    · rw [Function.update_of_ne hpath] at hother
      exact hpath (hrun.uniqueInodes hunique path .main other node hother hnode (heq.trans hinode.symm))
  have hsecond : LedgerRun _ (LegacyRewrite.calls ⟨5, "2 20\n", 7⟩) _ :=
    LegacyRewrite.run ((Function.update_of_ne (by simp) _ _).trans hnone) hreused
  have hrewrites : LegacyRewrites promoted.2.2 [⟨5, "2 20\n", n⟩] _ :=
    .concat .nil hfirst (Function.update_self _ _ _) rfl
  exact ⟨_, _, node, _, n, hunique, hrun, hexec, hreports, hnode, hinode,
    .concat hrewrites hsecond (Function.update_self _ _ _) rfl⟩

/-- The sidecar is believed again. -/
theorem reused_inode_is_believed :
    ∃ t fs fs' inode, LedgerRun recordedLedger t fs
      ∧ Exec (LedgerEnv.promoteFreezeitSignalStopAtPath ⟨1, 9⟩ ⟨2, 20⟩) t (.ok true)
      ∧ LedgerEnv.ReportsSignalOnly ⟨1, 9⟩ fs ⟨2, 20⟩
      ∧ LegacyRewrites fs [⟨5, "2 20\n", inode⟩, ⟨5, "2 20\n", 7⟩] fs'
      ∧ LedgerEnv.ReportsSignalOnly ⟨1, 9⟩ fs' ⟨2, 20⟩ := by
  obtain ⟨t, fs, node, fs', inode, -, hrun, hexec, hreports, hnode, hinode, hrewrites⟩ :=
    rewritten_twice
  refine ⟨t, fs, fs', inode, hrun, hexec, hreports, hrewrites, ?_⟩
  exact (reportsSignalOnly_after hreports hnode hrewrites).mpr ⟨hinode.symm, by decide +kernel⟩

theorem legacy_rewrites_invalidate_sample :
    ∃ fs node fs' inode, LedgerEnv.ReportsSignalOnly ⟨1, 9⟩ fs ⟨2, 20⟩
      ∧ fs .main = some node
      ∧ LegacyRewrites fs ([⟨5, "2 20\n", inode⟩] ++ [⟨5, "2 20\n", 7⟩]) fs'
      ∧ (¬ LedgerEnv.ReportsSignalOnly ⟨1, 9⟩ fs' ⟨2, 20⟩ ↔
        7 ≠ node.inode ∨ (ledgerRecords (some "2 20\n")).get? ⟨2, 20⟩ ≠ some .canonical) := by
  obtain ⟨t, fs, node, fs', inode, -, -, -, hreports, hnode, -, hrewrites⟩ := rewritten_twice
  exact ⟨fs, node, fs', inode, hreports, hnode, hrewrites,
    legacy_rewrites_invalidate_iff hreports hnode hrewrites⟩

end Freezeit
