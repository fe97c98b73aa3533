import Freezeit.LedgerCrashes

/-! # The SIGSTOP ledger as a map

    The two files stand for one finite map from the identities to what is known
    of their SIGSTOP.  The operations update that map, whatever text the files
    hold before. -/

namespace Freezeit

open Prog

variable {env : LedgerEnv} {fs fs' : LedgerFiles} {t : List LedgerEvent}
  {identity i : SignalStopIdentity} {generation : SignalStopLedgerGeneration}

/-! ## The map -/

/-- The generation that a stat of the ledger would report: the device and the inode of the
    file that is there now. -/
def LedgerEnv.generationIn (env : LedgerEnv) (fs : LedgerFiles) :
    Option SignalStopLedgerGeneration :=
  (fs .main).map fun node => ⟨env.device, node.inode⟩

/-- What is known of the SIGSTOP of a process. -/
def LedgerEnv.ownership (env : LedgerEnv) (fs : LedgerFiles) (i : SignalStopIdentity) :
    Option SignalStopOwnership :=
  ((ledgerRecords (fs.text .main)).get? i).map fun record =>
    if record = .canonical ∧ (env.generationIn fs).any
        ((provenanceOf (fs.text .sidecar)).isSignalOnly i) then .signalOnly
    else .residualUnknown

/-- No read of the sidecar and no `metadata` of the main ledger failed on a
    file that is there. -/
structure Truthful (t : List LedgerEvent) : Prop where
  sidecar  : ∀ error, (⟨.read .sidecar, .error error⟩ : LedgerEvent) ∈ t → MissingFile error
  metadata : ∀ error, (⟨.metadata .main, .error error⟩ : LedgerEvent) ∈ t → MissingFile error

/-- The inode that a call tells. -/
def toldInode : LedgerEvent → Option Nat
  | ⟨.metadata _, .ok inode⟩ => some inode
  | _                        => none

/-- Device and inodes are `u64`s. -/
structure DiskFits (env : LedgerEnv) (t : List LedgerEvent) : Prop where
  device : env.device < 2 ^ 64
  inodes : ∀ e ∈ t, ∀ inode ∈ toldInode e, inode < 2 ^ 64

/-- An identity is owned exactly if the ledger has a record of it. -/
theorem isSome_ownership :
    (env.ownership fs i).isSome = true ↔ i ∈ ledgerRecords (fs.text .main) := by
  unfold LedgerEnv.ownership
  rw [Option.isSome_map]
  rfl

/-- What `signalOnly` means in the two files: a canonical record, and a trusted sidecar
    entry that names the generation of the present ledger. -/
theorem ownership_eq_signalOnly :
    env.ownership fs i = some .signalOnly ↔
      (ledgerRecords (fs.text .main)).get? i = some .canonical
        ∧ ∃ g, env.generationIn fs = some g
          ∧ (provenanceOf (fs.text .sidecar)).globallyUntrusted = false
          ∧ (provenanceOf (fs.text .sidecar)).records.get? i = some (.signalOnly g) := by
  unfold LedgerEnv.ownership
  rw [Option.map_eq_some_iff]
  constructor
  · intro h
    obtain ⟨record, hrecord, hsignal⟩ := h
    split at hsignal
    · next hmarked =>
      obtain ⟨rfl, hany⟩ := hmarked
      cases hg : env.generationIn fs with
      | none =>
        rw [hg] at hany
        cases hany
      | some g =>
        rw [hg, Option.any_some] at hany
        unfold SignalStopProvenanceLedger.isSignalOnly at hany
        rw [Bool.and_eq_true, Bool.not_eq_true', decide_eq_true_eq] at hany
        exact ⟨hrecord, g, rfl, hany⟩
    · cases hsignal
  · intro h
    obtain ⟨hrecord, g, hg, htrusted, hget⟩ := h
    refine ⟨.canonical, hrecord, ?_⟩
    rw [if_pos]
    refine ⟨rfl, ?_⟩
    rw [hg]
    show SignalStopProvenanceLedger.isSignalOnly _ i g = true
    unfold SignalStopProvenanceLedger.isSignalOnly
    rw [htrusted, hget]
    simp

/-- An entry is known by its presence and by whether it says `SignalOnly`. -/
theorem ownership_ext {o o' : Option SignalStopOwnership} (hsome : o.isSome = true ↔ o'.isSome = true)
    (honly : o = some .signalOnly ↔ o' = some .signalOnly) : o = o' := by
  cases o with
  | none =>
    cases o' with
    | none => rfl
    | some owner => cases hsome.mpr rfl
  | some owner =>
    cases o' with
    | none => cases hsome.mp rfl
    | some owner' =>
      cases owner with
      | signalOnly => exact (honly.mp rfl).symm
      | residualUnknown =>
        cases owner' with
        | residualUnknown => rfl
        | signalOnly => cases honly.mpr rfl

/-! ## What the reads tell -/

/-- A read of the ledger that succeeds sees the records that are in the file. -/
theorem records_of_read {answer : Except IoError String}
    {records : SortedMap SignalStopIdentity SignalStopLedgerRecord}
    (h : FileStep MissingFile "" fs (.read .main) answer fs')
    (hrecords : readSignalStopLedger answer = .ok records) :
    records = ledgerRecords (fs.text .main) := by
  unfold LedgerFiles.text
  cases h with
  | read hnode =>
    rw [hnode]
    exact (Except.ok.inj hrecords).symm
  | readFailed error hmissing =>
    unfold readSignalStopLedger at hrecords
    dsimp only at hrecords
    split at hrecords
    · next hkind =>
      rw [hmissing.mp hkind]
      exact (Except.ok.inj hrecords).symm
    · cases hrecords

/-- The sidecar is read as it is, or counts as untrusted. -/
theorem provenance_of_read {answer : Except IoError String}
    (h : FileStep MissingFile "" fs (.read .sidecar) answer fs') :
    readSignalStopProvenance answer = provenanceOf (fs.text .sidecar)
      ∨ (readSignalStopProvenance answer).globallyUntrusted = true
        ∧ ∃ error, answer = .error error ∧ ¬ MissingFile error := by
  unfold LedgerFiles.text
  cases h with
  | read hnode =>
    rw [hnode]
    exact .inl rfl
  | readFailed error hmissing =>
    by_cases hkind : MissingFile error
    · rw [hmissing.mp hkind]
      unfold readSignalStopProvenance
      refine .inl ?_
      simp only [hkind]
      rfl
    · exact .inr ⟨by simpa [readSignalStopProvenance] using hkind, error, rfl, hkind⟩

/-- The generation is that of the main ledger, or is not known. -/
theorem generation_of_metadata (env : LedgerEnv) {answer : Except IoError Nat}
    (h : FileStep MissingFile "" fs (.metadata .main) answer fs') :
    (env.generationOf answer).toOption = env.generationIn fs
      ∨ (env.generationOf answer).toOption = none
        ∧ ∃ error, answer = .error error ∧ ¬ MissingFile error := by
  unfold LedgerEnv.generationIn
  cases h with
  | metadata hnode =>
    rw [hnode]
    exact .inl rfl
  | metadataFailed error hmissing =>
    by_cases hkind : MissingFile error
    · rw [hmissing.mp hkind]
      exact .inl rfl
    · exact .inr ⟨rfl, error, rfl, hkind⟩

/-- Every record that was read is in range. -/
theorem fits_of_mem_ledgerRecords {text : Option String} (h : i ∈ ledgerRecords text) : i.Fits := by
  cases text with
  | none => exact absurd h (SortedMap.not_mem_empty i)
  | some text =>
    unfold ledgerRecords at h
    rw [addLedgerRecord_eq] at h
    cases SortedMap.mem_foldl_insertOnce.mp h with
    | inl hnone => exact absurd hnone (SortedMap.not_mem_empty i)
    | inr hentry =>
      obtain ⟨⟨identity, record⟩, hmem, rfl⟩ := List.mem_map.mp hentry
      obtain ⟨line, -, hparse⟩ := List.mem_filterMap.mp hmem
      exact fits_of_parseLedgerLine hparse

/-! ## Rewriting -/

/-- After a rewrite the map holds the records; those whose provenance was kept
    are `SignalOnly`. -/
theorem rewriteMainLedger_ownership {records : SortedMap SignalStopIdentity SignalStopLedgerRecord}
    {provenance : SignalStopProvenanceLedger}
    (h : Exec (env.rewriteMainLedger records provenance) t (.ok ())) (hrun : LedgerRun fs t fs')
    (hfits : ∀ i ∈ records, i.Fits) (hdisk : DiskFits env t)
    (hkept : ∀ i g, provenance.records.get? i = some (.signalOnly g) → i ∈ records) :
    ((env.ownership fs' i).isSome = true ↔ i ∈ records)
      ∧ (env.ownership fs' i = some .signalOnly ↔
        ∃ g, provenance.records.get? i = some (.signalOnly g)) := by
  obtain ⟨hmain, hsidecar⟩ := rewriteMainLedger_ok h hrun
  have hread : (ledgerRecords (fs'.text .main)).get? i
      = if i ∈ records then some .canonical else none := by
    rw [hmain, ledgerRecords_get? records.nodup_keys fun i hi => hfits i (SortedMap.mem_keys.mp hi)]
    simp only [SortedMap.mem_keys]
  refine ⟨?_, ?_⟩
  · rw [isSome_ownership, SortedMap.mem_iff_get?, hread]
    split
    · next hmem => simp [hmem]
    · next hmem => simp [hmem]
  rw [ownership_eq_signalOnly, hread]
  -- The sidecar is either removed, if nothing is left to claim, or written anew under the
  -- generation of the new ledger file.
  cases hsidecar with
  | inl hgone =>
    obtain ⟨hempty, htext⟩ := hgone
    rw [htext]
    constructor
    · intro h
      obtain ⟨-, g, -, -, hget⟩ := h
      cases hget
    · intro h
      obtain ⟨g, hget⟩ := h
      exact absurd (SortedMap.mem_of_get? hget) (SortedMap.isEmpty_iff.mp hempty i)
  | inr hwritten =>
    obtain ⟨node, hnode, hstat, htext⟩ := hwritten
    have hgeneration : SignalStopLedgerGeneration.Fits ⟨env.device, node.inode⟩ :=
      ⟨hdisk.device, hdisk.inodes _ hstat _ rfl⟩
    -- What is written is read back, since every rebound entry fits the line format.
    have hrebound : ∀ i g, (provenance.rebindToGeneration
        ⟨env.device, node.inode⟩).records.get? i = some (.signalOnly g) → i.Fits ∧ g.Fits := by
      intro i g hget
      obtain ⟨rfl, g', hold⟩ := rebind_get?.mp hget
      exact ⟨hfits i (hkept i g' hold), hgeneration⟩
    obtain ⟨htrusted, hlines⟩ := provenanceOf_lines hrebound
    rw [htext]
    constructor
    · intro h
      obtain ⟨-, g, -, -, hget⟩ := h
      exact (rebind_get?.mp ((hlines i _).mp hget).1).2
    · intro h
      obtain ⟨g, hget⟩ := h
      refine ⟨if_pos (hkept i g hget), ⟨env.device, node.inode⟩, ?_, htrusted, ?_⟩
      · unfold LedgerEnv.generationIn
        rw [hnode]
        rfl
      · refine (hlines i _).mpr ⟨?_, by simp⟩
        exact rebind_get?.mpr ⟨rfl, g, hget⟩

/-- What becomes of the entries that an operation is not about: they stay, but a
    file that could not be read may have cost them their `SignalOnly`. -/
def Spared (env : LedgerEnv) (fs : LedgerFiles) (t : List LedgerEvent) (fs' : LedgerFiles)
    (i : SignalStopIdentity) : Prop :=
  env.ownership fs' i = env.ownership fs i
    ∨ ¬ Truthful t ∧ env.ownership fs i = some .signalOnly
      ∧ env.ownership fs' i = some .residualUnknown

/-- The read of the sidecar and the rewrite of `record` and `take`. -/
theorem rewriteWithout_ownership {t' : List LedgerEvent}
    {records : SortedMap SignalStopIdentity SignalStopLedgerRecord} {sidecar : Except IoError String}
    (hread : FileStep MissingFile "" fs (.read .sidecar) sidecar fs)
    (h : Exec (env.rewriteWithout identity records (readSignalStopProvenance sidecar)) t' (.ok ()))
    (hrun : LedgerRun fs t' fs') (hsidecar : (⟨.read .sidecar, sidecar⟩ : LedgerEvent) ∈ t)
    (htrace : ∀ e ∈ t', e ∈ t) (hdisk : DiskFits env t) (hfits : ∀ i ∈ records, i.Fits)
    (hother : ∀ i, i ≠ identity → records.get? i = (ledgerRecords (fs.text .main)).get? i) :
    (∀ i, (env.ownership fs' i).isSome = true ↔ i ∈ records)
      ∧ env.ownership fs' identity ≠ some .signalOnly
      ∧ ∀ i, i ≠ identity → Spared env fs t fs' i := by
  obtain ⟨t₁, t₂, current, rfl, hstat, hrewrite⟩ := exec_bind.mp h
  obtain ⟨answer, rfl, rfl⟩ := exec_generation.mp hstat
  obtain ⟨fs₁, hmetadata, hrun₂⟩ := ledgerRun_cons.mp hrun
  have hsame : fs₁ = fs := FileStep.eq_of_untouched hmetadata fun _ => id
  subst hsame
  -- The rewrite decides ownership by what it writes; the rest of the proof compares that
  -- with what was there before.
  have hmap : ∀ i, ((env.ownership fs' i).isSome = true ↔ i ∈ records)
      ∧ (env.ownership fs' i = some .signalOnly ↔ i ≠ identity
        ∧ (readSignalStopProvenance sidecar).globallyUntrusted = false
        ∧ records.get? i = some .canonical
        ∧ ∃ g, (env.generationOf answer).toOption = some g
          ∧ (readSignalStopProvenance sidecar).records.get? i = some (.signalOnly g)) := by
    intro i
    have hrewritten := rewriteMainLedger_ownership (i := i) hrewrite hrun₂ hfits
      ⟨hdisk.device, fun e he => hdisk.inodes e (htrace e (List.mem_cons_of_mem _ he))⟩
      fun i g hkept => SortedMap.mem_of_get? (kept_get?.mp hkept).2.2.2.2
    refine ⟨hrewritten.1, hrewritten.2.trans ?_⟩
    constructor
    · intro h
      obtain ⟨g, hkept⟩ := h
      obtain ⟨hne, htrusted, hget, hcurrent, hrecord⟩ := kept_get?.mp hkept
      obtain ⟨g', hg', heq⟩ := Option.map_eq_some_iff.mp hcurrent
      cases heq
      exact ⟨hne, htrusted, hrecord, g, hg', hget⟩
    · intro h
      obtain ⟨hne, htrusted, hrecord, g, hg, hget⟩ := h
      refine ⟨g, kept_get?.mpr ⟨hne, htrusted, hget, ?_, hrecord⟩⟩
      rw [hg]
      rfl
  refine ⟨fun i => (hmap i).1, fun hsignal => ((hmap identity).2.mp hsignal).1 rfl, ?_⟩
  intro i hne
  have hpresent : (env.ownership fs' i).isSome = true ↔ (env.ownership fs₁ i).isSome = true := by
    rw [(hmap i).1, isSome_ownership, SortedMap.mem_iff_get?, SortedMap.mem_iff_get?, hother i hne]
  -- Nothing is strengthened: a claim after the rewrite was read from the sidecar.
  have hbefore : env.ownership fs' i = some .signalOnly → env.ownership fs₁ i = some .signalOnly := by
    intro hsignal
    obtain ⟨-, htrusted, hrecord, g, hg, hget⟩ := (hmap i).2.mp hsignal
    have hprovenance := (provenance_of_read hread).resolve_right fun hfailed => by
      rw [htrusted] at hfailed
      cases hfailed.1
    have hgeneration := (generation_of_metadata env hmetadata).resolve_right fun hfailed => by
      rw [hg] at hfailed
      cases hfailed.1
    rw [hprovenance] at htrusted hget
    rw [hother i hne] at hrecord
    exact ownership_eq_signalOnly.mpr ⟨hrecord, g, hgeneration.symm.trans hg, htrusted, hget⟩
  -- With truthful answers nothing is lost either, so only a failed stat or read of the
  -- sidecar can weaken another record.
  have hafter : Truthful t → env.ownership fs₁ i = some .signalOnly →
      env.ownership fs' i = some .signalOnly := by
    intro htruthful hsignal
    obtain ⟨hrecord, g, hg, htrusted, hget⟩ := ownership_eq_signalOnly.mp hsignal
    have hprovenance := (provenance_of_read hread).resolve_right fun hfailed => by
      obtain ⟨-, error, rfl, hpresent⟩ := hfailed
      exact hpresent (htruthful.sidecar error hsidecar)
    have hgeneration := (generation_of_metadata env hmetadata).resolve_right fun hfailed => by
      obtain ⟨-, error, rfl, hpresent⟩ := hfailed
      exact hpresent (htruthful.metadata error (htrace _ List.mem_cons_self))
    rw [← hprovenance] at htrusted hget
    rw [← hother i hne] at hrecord
    exact (hmap i).2.mpr ⟨hne, htrusted, hrecord, g, hgeneration.trans hg, hget⟩
  -- Either the owner is the same, or the record fell back to `residualUnknown`.
  by_cases hkept : env.ownership fs₁ i = some .signalOnly → env.ownership fs' i = some .signalOnly
  · exact .inl (ownership_ext hpresent ⟨hbefore, hkept⟩)
  · obtain ⟨hsignal, hlost⟩ := Classical.not_imp.mp hkept
    refine .inr ⟨fun htruthful => hkept (hafter htruthful), hsignal, ?_⟩
    have hsome : (env.ownership fs' i).isSome = true := by
      rw [hpresent, hsignal]
      rfl
    obtain ⟨owner, howner⟩ := Option.isSome_iff_exists.mp hsome
    rw [howner] at hlost ⊢
    cases owner with
    | signalOnly => exact absurd rfl hlost
    | residualUnknown => rfl

/-! ## The operations -/

/-- A record that completes has rewritten the ledger with the identity in it. -/
theorem exec_record (h : Exec (env.recordFreezeitSignalStopAtPath identity) t (.ok ())) :
    ∃ main sidecar t', t = ⟨.read .main, main⟩ :: ⟨.read .sidecar, sidecar⟩ :: t'
      ∧ ∃ records, readSignalStopLedger main = .ok records
        ∧ Exec (env.rewriteWithout identity (records.insert identity .canonical)
          (readSignalStopProvenance sidecar)) t' (.ok ()) := by
  obtain ⟨t₁, t₂, result, rfl, hread, hrest⟩ := exec_bind.mp h
  obtain ⟨main, rfl, hresult⟩ := exec_readLedger.mp hread
  match result with
  | .error error => cases (exec_pure.mp hrest).2
  | .ok records =>
    obtain ⟨t₃, t₄, provenance, rfl, hsidecar, hrewrite⟩ := exec_bind.mp hrest
    obtain ⟨sidecar, rfl, rfl⟩ := exec_readProvenance.mp hsidecar
    exact ⟨main, sidecar, t₄, rfl, records, hresult.symm, hrewrite⟩

/-- `record` and `take` read both files, and then rewrite them. -/
theorem readAndRewrite_ownership {main sidecar : Except IoError String} {t' : List LedgerEvent}
    {base records : SortedMap SignalStopIdentity SignalStopLedgerRecord}
    (hbase : readSignalStopLedger main = .ok base)
    (h : Exec (env.rewriteWithout identity records (readSignalStopProvenance sidecar)) t' (.ok ()))
    (hrun : LedgerRun fs (⟨.read .main, main⟩ :: ⟨.read .sidecar, sidecar⟩ :: t') fs')
    (hdisk : DiskFits env (⟨.read .main, main⟩ :: ⟨.read .sidecar, sidecar⟩ :: t'))
    (hidentity : identity.Fits) (hother : ∀ i, i ≠ identity → records.get? i = base.get? i) :
    base = ledgerRecords (fs.text .main)
      ∧ (∀ i, (env.ownership fs' i).isSome = true ↔ i ∈ records)
      ∧ env.ownership fs' identity ≠ some .signalOnly
      ∧ ∀ i, i ≠ identity →
        Spared env fs (⟨.read .main, main⟩ :: ⟨.read .sidecar, sidecar⟩ :: t') fs' i := by
  obtain ⟨fs₁, hmain, hrun₁⟩ := ledgerRun_cons.mp hrun
  have hsame₁ : fs₁ = fs := FileStep.eq_of_untouched hmain fun _ => id
  subst hsame₁
  obtain ⟨fs₂, hsidecar, hrun₂⟩ := ledgerRun_cons.mp hrun₁
  have hsame₂ : fs₂ = fs₁ := FileStep.eq_of_untouched hsidecar fun _ => id
  subst hsame₂
  have hrecords := records_of_read hmain hbase
  subst hrecords
  refine ⟨rfl, rewriteWithout_ownership hsidecar h hrun₂ (by simp)
    (fun e he => List.mem_cons_of_mem _ (List.mem_cons_of_mem _ he)) hdisk ?_ hother⟩
  intro i hi
  by_cases hne : i = identity
  · rw [hne]
    exact hidentity
  · apply fits_of_mem_ledgerRecords
    rw [SortedMap.mem_iff_get?, ← hother i hne]
    exact SortedMap.mem_iff_get?.mp hi

/-- A recorded stop is owned, and never as `signalOnly`, whatever was claimed for the
    identity before. -/
theorem record_ownership (h : Exec (env.recordFreezeitSignalStopAtPath identity) t (.ok ()))
    (hrun : LedgerRun fs t fs') (hdisk : DiskFits env t) (hidentity : identity.Fits) :
    env.ownership fs' identity = some .residualUnknown
      ∧ ∀ i, i ≠ identity → Spared env fs t fs' i := by
  obtain ⟨main, sidecar, t', rfl, base, hbase, hrewrite⟩ := exec_record h
  obtain ⟨-, hpresent, hweak, hother⟩ := readAndRewrite_ownership hbase hrewrite hrun hdisk hidentity
    fun i hne => SortedMap.get?_insert_ne _ _ (Ne.symm hne)
  refine ⟨?_, hother⟩
  have hsome := (hpresent identity).mpr (SortedMap.mem_insert.mpr (.inl rfl))
  obtain ⟨owner, howner⟩ := Option.isSome_iff_exists.mp hsome
  rw [howner] at hweak ⊢
  cases owner with
  | signalOnly => exact absurd rfl hweak
  | residualUnknown => rfl

/-- Taking a record reports whether there was one, and the others are spared. -/
theorem take_ownership {taken : Bool}
    (h : Exec (env.takeFreezeitSignalStopAtPath identity) t (.ok taken))
    (hrun : LedgerRun fs t fs') (hdisk : DiskFits env t) (hidentity : identity.Fits) :
    env.ownership fs' identity = none
      ∧ taken = (env.ownership fs identity).isSome
      ∧ ∀ i, i ≠ identity → Spared env fs t fs' i := by
  obtain ⟨main, sidecar, t', rfl, base, hbase, rfl, hrewrite⟩ := exec_take h
  obtain ⟨hrecords, hpresent, -, hother⟩ := readAndRewrite_ownership hbase hrewrite hrun hdisk
    hidentity fun i hne => SortedMap.get?_erase_ne _ hne
  refine ⟨?_, ?_, hother⟩
  · have hnone : ¬ (env.ownership fs' identity).isSome = true := by
      rw [hpresent, SortedMap.mem_erase]
      exact fun hmem => hmem.1 rfl
    simpa using hnone
  · rw [Bool.eq_iff_iff, isSome_ownership, hrecords]
    rfl

/-- The records that a promotion writes. -/
def promotedRecords (provenance : SignalStopProvenanceLedger)
    (records : SortedMap SignalStopIdentity SignalStopLedgerRecord) (identity : SignalStopIdentity)
    (generation : SignalStopLedgerGeneration) :
    SortedMap SignalStopIdentity SignalStopProvenanceRecord :=
  ((provenance.retainCurrentGeneration (some generation)).retainCanonicalMain records).records.insert
    identity (.signalOnly generation)

/-- The sidecar after a promotion: the promoted identity under the present generation, and
    of the older entries only those that were still valid. -/
theorem promotedRecords_get? {provenance : SignalStopProvenanceLedger}
    {records : SortedMap SignalStopIdentity SignalStopLedgerRecord}
    {record : SignalStopProvenanceRecord} :
    (promotedRecords provenance records identity generation).get? i = some record ↔
      i = identity ∧ record = .signalOnly generation
        ∨ i ≠ identity ∧ provenance.globallyUntrusted = false
          ∧ provenance.records.get? i = some record ∧ record = .signalOnly generation
          ∧ records.get? i = some .canonical := by
  unfold promotedRecords
  by_cases hi : i = identity
  · subst hi
    rw [SortedMap.get?_insert_self, Option.some.injEq]
    constructor
    · intro h
      exact .inl ⟨rfl, h.symm⟩
    · intro h
      cases h with
      | inl hnew => exact hnew.2.symm
      | inr hold => exact absurd rfl hold.1
  · rw [SortedMap.get?_insert_ne _ _ (Ne.symm hi)]
    -- For another identity this is what was kept of the sidecar.
    have hforget := @kept_get? identity i provenance records (some generation) record
    unfold SignalStopProvenanceLedger.forget at hforget
    dsimp only at hforget
    rw [SortedMap.get?_erase_ne _ hi] at hforget
    rw [hforget, Option.map_some, Option.some.injEq]
    constructor
    · intro h
      obtain ⟨-, htrusted, hget, hcurrent, hrecord⟩ := h
      exact .inr ⟨hi, htrusted, hget, hcurrent.symm, hrecord⟩
    · intro h
      cases h with
      | inl hnew => exact absurd hnew.1 hi
      | inr hold =>
        obtain ⟨-, htrusted, hget, hcurrent, hrecord⟩ := hold
        exact ⟨hi, htrusted, hget, hcurrent.symm, hrecord⟩

/-- A promotion that is refused has only read; one that is granted has found the
    record and written the sidecar. -/
theorem exec_promote {granted : Bool}
    (h : Exec (env.promoteFreezeitSignalStopAtPath identity) t (.ok granted)) :
    granted = false ∧ ReadsOnly t
      ∨ granted = true ∧ ∃ main inode sidecar t' records,
        t = ⟨.read .main, main⟩ :: ⟨.metadata .main, .ok inode⟩ :: ⟨.read .sidecar, sidecar⟩ :: t'
          ∧ readSignalStopLedger main = .ok records
          ∧ records.get? identity = some .canonical
          ∧ (readSignalStopProvenance sidecar).globallyUntrusted = false
          ∧ Exec (env.writeProvenance (promotedRecords (readSignalStopProvenance sidecar) records
            identity ⟨env.device, inode⟩)) t' (.ok ()) := by
  have hreads : ∀ {t₁ t₂ : List LedgerEvent}, ReadsOnly t₁ → ReadsOnly t₂ → ReadsOnly (t₁ ++ t₂) := by
    intro t₁ t₂ h₁ h₂ e he
    cases List.mem_append.mp he with
    | inl hfirst => exact h₁ e hfirst
    | inr hsecond => exact h₂ e hsecond
  obtain ⟨t₁, t₂, result, rfl, hread, hrest₁⟩ := exec_bind.mp h
  have honly₁ := partial_readLedger hread.toPartial
  obtain ⟨main, rfl, hresult⟩ := exec_readLedger.mp hread
  match result with
  | .error error => cases (exec_pure.mp hrest₁).2
  | .ok records =>
  dsimp only at hrest₁
  -- Only a canonical record may be promoted.
  split at hrest₁
  · obtain ⟨rfl, hgranted⟩ := exec_pure.mp hrest₁
    cases hgranted
    exact .inl ⟨rfl, hreads honly₁ readsOnly_nil⟩
  next hcanonical =>
  obtain ⟨t₃, t₄, current, rfl, hstat, hrest₂⟩ := exec_bind.mp hrest₁
  have honly₂ := partial_generation hstat.toPartial
  obtain ⟨answer, rfl, rfl⟩ := exec_generation.mp hstat
  match answer with
  | .error error =>
    obtain ⟨rfl, hgranted⟩ := exec_pure.mp hrest₂
    cases hgranted
    exact .inl ⟨rfl, hreads honly₁ (hreads honly₂ readsOnly_nil)⟩
  | .ok inode =>
  obtain ⟨t₅, t₆, provenance, rfl, hsidecar, hrest₃⟩ := exec_bind.mp hrest₂
  have honly₃ := partial_readProvenance hsidecar.toPartial
  obtain ⟨sidecar, rfl, rfl⟩ := exec_readProvenance.mp hsidecar
  -- A sidecar with an untrusted line refuses every promotion.
  split at hrest₃
  · obtain ⟨rfl, hgranted⟩ := exec_pure.mp hrest₃
    cases hgranted
    exact .inl ⟨rfl, hreads honly₁ (hreads honly₂ (hreads honly₃ readsOnly_nil))⟩
  next htrusted =>
  rw [Bool.or_eq_true, not_or] at htrusted
  obtain ⟨t₇, t₈, written, rfl, hwrite, hend⟩ := exec_bind.mp hrest₃
  match written with
  | .error error => cases (exec_pure.mp hend).2
  | .ok () =>
    obtain ⟨rfl, hgranted⟩ := exec_pure.mp hend
    cases hgranted
    refine .inr ⟨rfl, main, inode, sidecar, t₇, records, ?_, hresult.symm,
      Classical.not_not.mp hcanonical, by simpa using htrusted.1, hwrite⟩
    simp

/-- A granted promotion makes its identity `signalOnly` and changes no other owner. -/
theorem promote_ownership (h : Exec (env.promoteFreezeitSignalStopAtPath identity) t (.ok true))
    (hrun : LedgerRun fs t fs') (hdisk : DiskFits env t) :
    (env.ownership fs identity).isSome = true
      ∧ env.ownership fs' identity = some .signalOnly
      ∧ ∀ i, i ≠ identity → env.ownership fs' i = env.ownership fs i := by
  rcases exec_promote h with ⟨hgranted, -⟩
    | ⟨-, main, inode, sidecar, t', records, rfl, hrecords, hcanonical, htrusted, hwrite⟩
  · cases hgranted
  obtain ⟨fs₁, hmain, hrun₁⟩ := ledgerRun_cons.mp hrun
  have hsame₁ : fs₁ = fs := FileStep.eq_of_untouched hmain fun _ => id
  subst hsame₁
  obtain ⟨fs₂, hstat, hrun₂⟩ := ledgerRun_cons.mp hrun₁
  have hsame₂ : fs₂ = fs₁ := FileStep.eq_of_untouched hstat fun _ => id
  subst hsame₂
  obtain ⟨fs₃, hsidecar, hrun₃⟩ := ledgerRun_cons.mp hrun₂
  have hsame₃ : fs₃ = fs₂ := FileStep.eq_of_untouched hsidecar fun _ => id
  subst hsame₃
  have hread := records_of_read hmain hrecords
  have hprovenance := (provenance_of_read hsidecar).resolve_right fun hfailed => by
    rw [htrusted] at hfailed
    cases hfailed.1
  have hgeneration : env.generationIn fs₃ = some ⟨env.device, inode⟩ := by
    unfold LedgerEnv.generationIn
    cases hstat with
    | metadata hnode =>
      rw [hnode]
      rfl
  -- The ledger file itself stays, and with it the generation that entries refer to.
  have hframe : fs' .main = fs₃ .main := write_frame hwrite.toPartial hrun₃ (by simp) (by simp)
  have htext : LedgerFiles.text fs' .main = LedgerFiles.text fs₃ .main := by
    unfold LedgerFiles.text
    rw [hframe]
  have hgeneration' : env.generationIn fs' = some ⟨env.device, inode⟩ := by
    rw [← hgeneration]
    unfold LedgerEnv.generationIn
    rw [hframe]
  have hpresent : ∀ i, (env.ownership fs' i).isSome = true ↔ (env.ownership fs₃ i).isSome = true := by
    intro i
    rw [isSome_ownership, isSome_ownership, htext]
  rw [hprovenance] at htrusted
  have hfits : ∀ i g, (promotedRecords (readSignalStopProvenance sidecar) records identity
      ⟨env.device, inode⟩).get? i = some (.signalOnly g) → i.Fits ∧ g.Fits := by
    intro i g hget
    have hgfits : SignalStopLedgerGeneration.Fits ⟨env.device, inode⟩ :=
      ⟨hdisk.device, hdisk.inodes ⟨.metadata .main, .ok inode⟩ (by simp) inode rfl⟩
    have hmem : ∀ i, records.get? i = some .canonical → i.Fits := by
      intro i hrecord
      rw [hread] at hrecord
      exact fits_of_mem_ledgerRecords (SortedMap.mem_of_get? hrecord)
    rcases promotedRecords_get?.mp hget with ⟨rfl, heq⟩ | ⟨-, -, -, heq, hrecord⟩
    · cases heq
      exact ⟨hmem _ hcanonical, hgfits⟩
    · cases heq
      exact ⟨hmem i hrecord, hgfits⟩
  obtain ⟨htrusted', hlines⟩ := provenanceOf_lines hfits
  have hsidecar' := write_ok (by simp) hwrite hrun₃
  rw [← hsidecar'] at htrusted' hlines
  -- So ownership afterwards can be read off the promoted records.
  have hsignal : ∀ i, env.ownership fs' i = some .signalOnly ↔
      records.get? i = some .canonical ∧ (i = identity
        ∨ (provenanceOf (LedgerFiles.text fs₃ .sidecar)).records.get? i
          = some (.signalOnly ⟨env.device, inode⟩)) := by
    intro i
    rw [ownership_eq_signalOnly, htext, ← hread, hgeneration']
    constructor
    · intro h
      obtain ⟨hrecord, g, heq, -, hget⟩ := h
      cases heq
      refine ⟨hrecord, ?_⟩
      rcases promotedRecords_get?.mp ((hlines i _).mp hget).1 with ⟨hi, -⟩ | ⟨-, -, hold, -, -⟩
      · exact .inl hi
      · rw [hprovenance] at hold
        exact .inr hold
    · intro h
      obtain ⟨hrecord, hkept⟩ := h
      refine ⟨hrecord, _, rfl, htrusted', (hlines i _).mpr ⟨promotedRecords_get?.mpr ?_, by simp⟩⟩
      by_cases hi : i = identity
      · exact .inl ⟨hi, rfl⟩
      · rw [hprovenance]
        exact .inr ⟨hi, htrusted, hkept.resolve_left hi, rfl, hrecord⟩
  refine ⟨?_, (hsignal identity).mpr ⟨hcanonical, .inl rfl⟩, ?_⟩
  · rw [isSome_ownership, ← hread]
    exact SortedMap.mem_of_get? hcanonical
  · intro i hne
    refine ownership_ext (hpresent i) ?_
    rw [hsignal i, ownership_eq_signalOnly, ← hread, hgeneration]
    constructor
    · intro h
      exact ⟨h.1, _, rfl, htrusted, h.2.resolve_left hne⟩
    · intro h
      obtain ⟨hrecord, g, heq, -, hget⟩ := h
      cases heq
      exact ⟨hrecord, .inr hget⟩

/-! ## The report -/

/-- The owner of a recorded identity, computed from the two files. -/
theorem ownership_of_record {record : SignalStopLedgerRecord}
    (hrecord : (ledgerRecords (fs.text .main)).get? i = some record) :
    env.ownership fs i = some (if record = .canonical ∧ (env.generationIn fs).any
      ((provenanceOf (fs.text .sidecar)).isSignalOnly i) then .signalOnly else .residualUnknown) := by
  unfold LedgerEnv.ownership
  rw [hrecord]
  rfl

/-- What is reported when no file fails to be read is the entry of the map. -/
theorem reported_ownership {owner : Option SignalStopOwnership}
    (h : Exec (env.recordedSignalStopOwnership i) t (.ok owner)) (hrun : LedgerRun fs t fs')
    (htruthful : Truthful t) : owner = env.ownership fs i := by
  obtain ⟨t₁, t₂, result, rfl, hread, hrest₁⟩ := exec_bind.mp h
  obtain ⟨main, rfl, hresult⟩ := exec_readLedger.mp hread
  obtain ⟨fs₁, hmain, hrun₂⟩ := ledgerRun_cons.mp hrun
  have hsame₁ : fs₁ = fs := FileStep.eq_of_untouched hmain fun _ => id
  subst hsame₁
  match result with
  | .error error => cases (exec_pure.mp hrest₁).2
  | .ok records =>
  have hrecords := records_of_read hmain hresult.symm
  subst hrecords
  dsimp only at hrest₁
  split at hrest₁
  · next hnone =>
    obtain ⟨-, howner⟩ := exec_pure.mp hrest₁
    cases howner
    unfold LedgerEnv.ownership
    rw [hnone]
    rfl
  next record hrecord =>
  rw [ownership_of_record hrecord]
  obtain ⟨t₃, t₄, current, rfl, hstat, hrest₂⟩ := exec_bind.mp hrest₁
  obtain ⟨answer, rfl, rfl⟩ := exec_generation.mp hstat
  obtain ⟨fs₂, hmetadata, hrun₃⟩ := ledgerRun_cons.mp hrun₂
  have hsame₂ : fs₂ = fs₁ := FileStep.eq_of_untouched hmetadata fun _ => id
  subst hsame₂
  have hgeneration := (generation_of_metadata env hmetadata).resolve_right fun hfailed => by
    obtain ⟨-, error, rfl, hpresent⟩ := hfailed
    exact hpresent (htruthful.metadata error (by simp))
  rw [← hgeneration]
  match answer with
  | .error error =>
    obtain ⟨-, howner⟩ := exec_pure.mp hrest₂
    cases howner
    rw [if_neg fun hmarked => Bool.noConfusion hmarked.2]
  -- The generation is known, so the sidecar decides between the two owners.
  | .ok inode =>
  dsimp only [LedgerEnv.generationOf] at hrest₂
  split at hrest₂
  · next hcanonical =>
    obtain ⟨-, howner⟩ := exec_pure.mp hrest₂
    cases howner
    rw [if_neg fun hmarked => hcanonical hmarked.1]
  next hcanonical =>
  obtain ⟨t₅, t₆, provenance, rfl, hsidecar, hrest₃⟩ := exec_bind.mp hrest₂
  obtain ⟨sidecar, rfl, rfl⟩ := exec_readProvenance.mp hsidecar
  obtain ⟨_, hreadSidecar, -⟩ := ledgerRun_cons.mp hrun₃
  have hsame₃ := FileStep.eq_of_untouched hreadSidecar fun _ => id
  rw [hsame₃] at hreadSidecar
  have hprovenance := (provenance_of_read hreadSidecar).resolve_right fun hfailed => by
    obtain ⟨-, error, rfl, hpresent⟩ := hfailed
    exact hpresent (htruthful.sidecar error (by simp))
  rw [← hprovenance]
  split at hrest₃
  · next hsignal =>
    obtain ⟨-, howner⟩ := exec_pure.mp hrest₃
    cases howner
    rw [if_pos ⟨Classical.not_not.mp hcanonical, hsignal⟩]
  · next hsignal =>
    obtain ⟨-, howner⟩ := exec_pure.mp hrest₃
    cases howner
    rw [if_neg fun hmarked => hsignal hmarked.2]

/-- The ledger is a map, whatever its files hold: `record` sets an entry to
    `ResidualUnknown`, `take` removes it and tells if it was there, `promote`
    sets an entry that is there to `SignalOnly` or changes nothing.  The other
    entries stay; only a file that `record` or `take` could not read may turn
    a `SignalOnly` of them into `ResidualUnknown`. -/
theorem ledger_is_a_map (hidentity : identity.Fits) (hdisk : DiskFits env t)
    (hrun : LedgerRun fs t fs') :
    (∀ i owner, Exec (env.recordedSignalStopOwnership i) t (.ok owner) → Truthful t →
        owner = env.ownership fs i)
      ∧ (Exec (env.recordFreezeitSignalStopAtPath identity) t (.ok ()) →
        env.ownership fs' identity = some .residualUnknown
          ∧ ∀ i, i ≠ identity → Spared env fs t fs' i)
      ∧ (∀ taken, Exec (env.takeFreezeitSignalStopAtPath identity) t (.ok taken) →
        env.ownership fs' identity = none
          ∧ taken = (env.ownership fs identity).isSome
          ∧ ∀ i, i ≠ identity → Spared env fs t fs' i)
      ∧ (Exec (env.promoteFreezeitSignalStopAtPath identity) t (.ok true) →
        (env.ownership fs identity).isSome = true
          ∧ env.ownership fs' identity = some .signalOnly
          ∧ ∀ i, i ≠ identity → env.ownership fs' i = env.ownership fs i)
      ∧ (Exec (env.promoteFreezeitSignalStopAtPath identity) t (.ok false) →
        ∀ i, env.ownership fs' i = env.ownership fs i) := by
  refine ⟨?_, ?_, ?_, ?_, ?_⟩
  · intro i owner h htruthful
    exact reported_ownership h hrun htruthful
  · intro h
    exact record_ownership h hrun hdisk hidentity
  · intro taken h
    exact take_ownership h hrun hdisk hidentity
  · intro h
    exact promote_ownership h hrun hdisk
  · intro h i
    rcases exec_promote h with ⟨-, hreads⟩ | ⟨hgranted, -⟩
    · rw [hreads.eq hrun]
    · cases hgranted

/-- A ledger with one entry, process 2, that is `SignalOnly`. -/
def promotedLedger : LedgerFiles
  | .main    => some ⟨7, "2 20\n"⟩
  | .sidecar => some ⟨8, "2 20 SignalOnly 1:7\n"⟩
  | _        => none

/-- The next inode of the sample disk is fresh. -/
theorem inodesBelow_promotedLedger : FileService.InodesBelow promotedLedger 9 := by
  intro path node hnode
  cases path with
  | main => cases hnode; decide
  | sidecar => cases hnode; decide
  | mainTemporary processId => cases hnode
  | sidecarTemporary processId => cases hnode

/-- Process 1 is recorded next to process 2. -/
theorem ledger_is_a_map_sample :
    ∃ t fs', LedgerRun promotedLedger t fs'
      ∧ Exec (LedgerEnv.recordFreezeitSignalStopAtPath ⟨1, 9⟩ ⟨1, 10⟩) t (.ok ())
      ∧ LedgerEnv.ownership ⟨1, 9⟩ fs' ⟨1, 10⟩ = some .residualUnknown
      ∧ Spared ⟨1, 9⟩ promotedLedger t fs' ⟨2, 20⟩ := by
  let env : LedgerEnv := ⟨1, 9⟩
  let recording := env.recordFreezeitSignalStopAtPath ⟨1, 10⟩
  let recorded := (ledgerDisk fun _ => false).serveRun recording 9 promotedLedger
  obtain ⟨hexec, hrun, -⟩ :
      Exec recording recorded.1 recorded.2.1 ∧ LedgerRun promotedLedger recorded.1 recorded.2.2
        ∧ _ := ledgerDisk_run inodesBelow_promotedLedger recording
  have hok : recorded.2.1 = .ok () := by decide +kernel
  have hdisk : DiskFits env recorded.1 := ⟨by decide, by decide +kernel⟩
  have hfits : SignalStopIdentity.Fits ⟨1, 10⟩ := ⟨by decide, by decide, by decide⟩
  rw [hok] at hexec
  obtain ⟨hnew, hother⟩ :=
    (ledger_is_a_map hfits hdisk hrun).2.1 hexec
  exact ⟨_, _, hrun, hexec, hnew, hother ⟨2, 20⟩ (by decide)⟩

/-- The `metadata` call fails while process 1 is recorded: the record completes,
    and process 2 is no longer `SignalOnly`. -/
theorem failed_stat_weakens_others :
    ∃ t fs', LedgerRun promotedLedger t fs'
      ∧ Exec (LedgerEnv.recordFreezeitSignalStopAtPath ⟨1, 9⟩ ⟨1, 10⟩) t (.ok ())
      ∧ LedgerEnv.ownership ⟨1, 9⟩ promotedLedger ⟨2, 20⟩ = some .signalOnly
      ∧ LedgerEnv.ownership ⟨1, 9⟩ fs' ⟨2, 20⟩ = some .residualUnknown := by
  let env : LedgerEnv := ⟨1, 9⟩
  let recording := env.recordFreezeitSignalStopAtPath ⟨1, 10⟩
  let recorded := (ledgerDisk fun number => number = 11).serveRun recording 9 promotedLedger
  obtain ⟨hexec, hrun, -⟩ :
      Exec recording recorded.1 recorded.2.1 ∧ LedgerRun promotedLedger recorded.1 recorded.2.2
        ∧ _ := ledgerDisk_run inodesBelow_promotedLedger recording
  have hok : recorded.2.1 = .ok () := by decide +kernel
  rw [hok] at hexec
  exact ⟨_, _, hrun, hexec, by decide +kernel, by decide +kernel⟩

end Freezeit
