import Freezeit.LedgerCodec
import Freezeit.Lib.Since

/-! # Crashes around the SIGSTOP ledger

    The sidecar is removed before the main ledger changes, and is written last.
    So at every point where the daemon may die, what the sidecar claims was
    promoted, and not stopped anew since. -/

namespace Freezeit

open Prog

variable {env : LedgerEnv} {fs fs' : LedgerFiles} {t : List LedgerEvent}
  {identity i : SignalStopIdentity} {generation g : SignalStopLedgerGeneration}

/-! ## What the sidecar claims -/

/-- The sidecar says that the process was stopped by a signal alone. -/
def LedgerFiles.claims (fs : LedgerFiles) (i : SignalStopIdentity) : Prop :=
  ∃ g, (provenanceOf (fs.text .sidecar)).records.get? i = some (.signalOnly g)

/-- A call that touches no file leaves all of them. -/
theorem FileStep.eq_of_untouched {e : LedgerEvent} (h : FileStep MissingFile "" fs e.query e.answer fs')
    (he : ∀ path, ¬ e.query.Touches path) : fs' = fs := by
  funext path
  exact h.frame (he path)

/-- What was read from the sidecar, it claims. -/
theorem claims_of_read {answer : Except IoError String}
    (h : FileStep MissingFile "" fs (.read .sidecar) answer fs')
    (hget : (readSignalStopProvenance answer).records.get? i = some (.signalOnly g)) :
    fs.claims i := by
  cases h with
  | @read _ node hnode =>
    refine ⟨g, ?_⟩
    unfold LedgerFiles.text
    rw [hnode]
    exact hget
  | readFailed error => cases hget

/-- What is kept of the sidecar when an identity is dropped: the entries of the other
    identities that were trusted, current and canonical. -/
theorem kept_get? {provenance : SignalStopProvenanceLedger}
    {records : SortedMap SignalStopIdentity SignalStopLedgerRecord}
    {current : Option SignalStopLedgerGeneration} {record : SignalStopProvenanceRecord} :
    (((provenance.retainCurrentGeneration current).retainCanonicalMain records).forget
        identity).records.get? i = some record
      ↔ i ≠ identity ∧ provenance.globallyUntrusted = false
        ∧ provenance.records.get? i = some record
        ∧ current.map .signalOnly = some record ∧ records.get? i = some .canonical := by
  unfold SignalStopProvenanceLedger.forget SignalStopProvenanceLedger.retainCanonicalMain
    SignalStopProvenanceLedger.retainCurrentGeneration
    SignalStopProvenanceLedger.discardUntrustedRecords
  dsimp only
  rw [SortedMap.get?_erase]
  by_cases hi : i = identity
  · simp [hi]
  · rw [if_neg hi]
    cases provenance.globallyUntrusted with
    | true => simp
    | false =>
      rw [if_neg (by simp)]
      simp only [SortedMap.get?_retain, Option.filter_eq_some_iff, decide_eq_true_eq]
      constructor
      · intro h
        obtain ⟨⟨⟨hget, -⟩, hcurrent⟩, hcanonical⟩ := h
        exact ⟨hi, trivial, hget, hcurrent, hcanonical⟩
      · intro h
        obtain ⟨-, -, hget, hcurrent, hcanonical⟩ := h
        refine ⟨⟨⟨hget, ?_⟩, hcurrent⟩, hcanonical⟩
        intro hinvalid
        rw [hinvalid] at hcurrent
        cases current with
        | none => cases hcurrent
        | some g => cases hcurrent

theorem rebind_get? {provenance : SignalStopProvenanceLedger} :
    (provenance.rebindToGeneration generation).records.get? i = some (.signalOnly g)
      ↔ g = generation ∧ ∃ g', provenance.records.get? i = some (.signalOnly g') := by
  unfold SignalStopProvenanceLedger.rebindToGeneration
  dsimp only
  rw [SortedMap.get?_mapValues]
  cases provenance.records.get? i with
  | none => simp
  | some record =>
    cases record with
    | signalOnly g' => simp [eq_comm]
    | invalid => simp

/-! ## Cut off anywhere -/

theorem LedgerFiles.not_claims (h : fs.text .sidecar = none) : ¬ fs.claims i := by
  intro hclaims
  obtain ⟨g, hget⟩ := hclaims
  rw [h] at hget
  cases hget

/-- Writing the sidecar does not install a main ledger. -/
theorem not_installed_main {lines : List String}
    (h : Partial (LedgerEnv.writeSignalStopLedgerFile .sidecar (.sidecarTemporary env.processId)
      lines) t) : ¬ Installed (.mainTemporary env.processId) .main t := by
  intro hinstalled
  cases write_touches h _ hinstalled .main (.inr rfl) with
  | inl heq => cases heq
  | inr heq => cases heq

/-- A rewrite that is cut off has left everything, or has removed the sidecar,
    or has written what it keeps of it. -/
theorem rewriteMainLedger_cut {records : SortedMap SignalStopIdentity SignalStopLedgerRecord}
    {provenance : SignalStopProvenanceLedger}
    (h : Partial (env.rewriteMainLedger records provenance) t) (hrun : LedgerRun fs t fs') :
    fs' .sidecar = fs .sidecar ∧ ¬ Installed (.mainTemporary env.processId) .main t
      ∨ ∀ i, fs'.claims i → ∃ g, provenance.records.get? i = some (.signalOnly g) := by
  have hgone : ∀ {fs' : LedgerFiles}, fs'.text .sidecar = none →
      ∀ i, fs'.claims i → ∃ g, provenance.records.get? i = some (.signalOnly g) :=
    fun hnone i hclaims => absurd hclaims (LedgerFiles.not_claims hnone)
  have hfirst : ∀ {fs' t}, Partial (LedgerEnv.writeSignalStopLedgerFile .sidecar
      (.sidecarTemporary env.processId) []) t → LedgerRun fs t fs' →
      fs' .sidecar = fs .sidecar ∧ ¬ Installed (.mainTemporary env.processId) .main t
        ∨ ∀ i, fs'.claims i → ∃ g, provenance.records.get? i = some (.signalOnly g) := by
    intro fs' t hwrite hrun
    cases write_result (by simp) hwrite hrun with
    | inl hold => exact .inl ⟨hold.1, not_installed_main hwrite⟩
    | inr hnew => exact .inr (hgone hnew)
  rcases partial_bind.mp h with hwrite | ⟨t₁, t₂, result, rfl, hwrite, hrest⟩
  · exact hfirst hwrite hrun
  obtain ⟨fs₁, hrun₁, hrun₂⟩ := ledgerRun_append.mp hrun
  match result with
  | .error error =>
    have hend : t₂ = [] := partial_pure.mp hrest
    subst hend
    rw [FileRun.nil_iff.mp hrun₂, List.append_nil]
    exact hfirst hwrite.toPartial hrun₁
  | .ok () =>
  have hnone : fs₁.text .sidecar = none := write_ok (by simp) hwrite hrun₁
  -- From here on the sidecar is absent until it is written last.
  refine .inr ?_
  have hmain : ∀ {fs₂ t}, Partial (env.writeLedger records) t → LedgerRun fs₁ t fs₂ →
      fs₂.text .sidecar = none := by
    intro fs₂ t hwrite hrun
    have hframe : fs₂ .sidecar = fs₁ .sidecar := write_frame hwrite hrun (by simp) (by simp)
    unfold LedgerFiles.text
    rw [hframe]
    exact hnone
  rcases partial_bind.mp hrest with hwrite | ⟨t₃, t₄, result, rfl, hwrite, hrest⟩
  · exact hgone (hmain hwrite hrun₂)
  obtain ⟨fs₂, hrun₃, hrun₄⟩ := ledgerRun_append.mp hrun₂
  have hnone := hmain hwrite.toPartial hrun₃
  match result with
  | .error error =>
    have hend : t₄ = [] := partial_pure.mp hrest
    subst hend
    rw [FileRun.nil_iff.mp hrun₄]
    exact hgone hnone
  | .ok () =>
  dsimp only at hrest
  split at hrest
  · have hend : t₄ = [] := partial_pure.mp hrest
    subst hend
    rw [FileRun.nil_iff.mp hrun₄]
    exact hgone hnone
  rcases partial_bind.mp hrest with hread | ⟨t₅, t₆, result, rfl, hread, hrest⟩
  · rw [(partial_generation hread).eq hrun₄]
    exact hgone hnone
  obtain ⟨fs₃, hrun₅, hrun₆⟩ := ledgerRun_append.mp hrun₄
  have hsame : fs₃ = fs₂ := (partial_generation hread.toPartial).eq hrun₅
  subst hsame
  match result with
  | .error error =>
    have hend : t₆ = [] := partial_pure.mp hrest
    subst hend
    rw [FileRun.nil_iff.mp hrun₆]
    exact hgone hnone
  | .ok generation =>
    intro i hclaims
    obtain ⟨g, hget⟩ := hclaims
    cases write_result (by simp) hrest hrun₆ with
    | inl hold =>
      unfold LedgerFiles.text at hget hnone
      rw [hold.1, hnone] at hget
      cases hget
    | inr hnew =>
      rw [hnew] at hget
      obtain ⟨g', hkept⟩ := claims_of_lines hget
      exact (rebind_get?.mp hkept).2

/-- A rewrite that succeeds leaves the records, and what it keeps of the sidecar
    bound to the new main ledger. -/
theorem rewriteMainLedger_ok {records : SortedMap SignalStopIdentity SignalStopLedgerRecord}
    {provenance : SignalStopProvenanceLedger}
    (h : Exec (env.rewriteMainLedger records provenance) t (.ok ())) (hrun : LedgerRun fs t fs') :
    fs'.text .main = linesText (records.keys.map ledgerLine)
      ∧ (provenance.records.isEmpty = true ∧ fs'.text .sidecar = none
        ∨ ∃ node, fs' .main = some node
          ∧ (⟨.metadata .main, .ok node.inode⟩ : LedgerEvent) ∈ t
          ∧ fs'.text .sidecar = linesText (SignalStopProvenanceLedger.lines
            (provenance.rebindToGeneration ⟨env.device, node.inode⟩).records)) := by
  obtain ⟨t₁, t₂, removed, rfl, hremove, hrest₁⟩ := exec_bind.mp h
  obtain ⟨fs₁, hrun₁, hrun₂⟩ := ledgerRun_append.mp hrun
  match removed with
  | .error error => cases (exec_pure.mp hrest₁).2
  | .ok () =>
  have hnone : fs₁.text .sidecar = none := write_ok (by simp) hremove hrun₁
  obtain ⟨t₃, t₄, wrote, rfl, hmain, hrest₂⟩ := exec_bind.mp hrest₁
  obtain ⟨fs₂, hrun₃, hrun₄⟩ := ledgerRun_append.mp hrun₂
  match wrote with
  | .error error => cases (exec_pure.mp hrest₂).2
  | .ok () =>
  have hwritten : fs₂.text .main = linesText (records.keys.map ledgerLine) :=
    write_ok (by simp) hmain hrun₃
  have hsidecar : fs₂ .sidecar = fs₁ .sidecar :=
    write_frame hmain.toPartial hrun₃ (by simp) (by simp)
  dsimp only at hrest₂
  split at hrest₂
  · next hempty =>
    obtain ⟨rfl, -⟩ := exec_pure.mp hrest₂
    have hsame : fs' = fs₂ := FileRun.nil_iff.mp hrun₄
    subst hsame
    refine ⟨hwritten, .inl ⟨hempty, ?_⟩⟩
    unfold LedgerFiles.text
    rw [hsidecar]
    exact hnone
  · obtain ⟨t₅, t₆, current, rfl, hstat, hrest₃⟩ := exec_bind.mp hrest₂
    obtain ⟨fs₃, hrun₅, hrun₆⟩ := ledgerRun_append.mp hrun₄
    have hsame : fs₃ = fs₂ := (partial_generation hstat.toPartial).eq hrun₅
    subst hsame
    obtain ⟨answer, rfl, hresult⟩ := exec_generation.mp hstat
    match answer with
    | .error error =>
      rw [hresult] at hrest₃
      cases (exec_pure.mp hrest₃).2
    | .ok inode =>
      rw [hresult] at hrest₃
      obtain ⟨fs₄, hstep, -⟩ := ledgerRun_cons.mp hrun₅
      have hframe : fs' .main = fs₃ .main :=
        write_frame hrest₃.toPartial hrun₆ (by simp) (by simp)
      have htext := write_ok (by simp) hrest₃ hrun₆
      cases hstep with
      | @metadata _ node hnode =>
        rw [hnode] at hframe
        refine ⟨?_, .inr ⟨node, hframe, by simp, htext⟩⟩
        unfold LedgerFiles.text at hwritten ⊢
        rw [hframe, ← hnode]
        exact hwritten

/-- What a rewrite for an identity can leave of the claims: those it found, or
    fewer of them and none about the identity. -/
def Weakens (identity : SignalStopIdentity) (env : LedgerEnv) (fs : LedgerFiles)
    (t : List LedgerEvent) (fs' : LedgerFiles) : Prop :=
  fs' .sidecar = fs .sidecar ∧ ¬ Installed (.mainTemporary env.processId) .main t
    ∨ ∀ i, fs'.claims i → fs.claims i ∧ i ≠ identity

theorem Weakens.of_reads (honly : ReadsOnly t) (hrun : LedgerRun fs t fs') :
    Weakens identity env fs t fs' :=
  .inl ⟨by rw [honly.eq hrun], honly.not_installed⟩

/-- A program that first reads, and then weakens the claims at most. -/
theorem Weakens.bind {α β : Type} {p : Filing β} {f : β → Filing α}
    (hp : ∀ t, Partial p t → ReadsOnly t)
    (hf : ∀ b t₁ t₂, Exec p t₁ b → LedgerRun fs t₁ fs → Partial (f b) t₂ → LedgerRun fs t₂ fs' →
      Weakens identity env fs t₂ fs')
    (h : Partial (p >>= f) t) (hrun : LedgerRun fs t fs') : Weakens identity env fs t fs' := by
  rcases partial_bind.mp h with hread | ⟨t₁, t₂, b, rfl, hread, hrest⟩
  · exact .of_reads (hp _ hread) hrun
  obtain ⟨fs₁, hrun₁, hrun₂⟩ := ledgerRun_append.mp hrun
  have honly := hp _ hread.toPartial
  have hsame : fs₁ = fs := honly.eq hrun₁
  subst hsame
  cases hf b t₁ t₂ hread hrun₁ hrest hrun₂ with
  | inr hdropped => exact .inr hdropped
  | inl hold =>
    refine .inl ⟨hold.1, ?_⟩
    intro hinstalled
    cases List.mem_append.mp hinstalled with
    | inl hfirst => exact honly.not_installed hfirst
    | inr hsecond => exact hold.2 hsecond

/-- A rewrite without an identity, cut off anywhere, can only weaken claims. The sidecar
    is removed before the ledger changes, so no old claim meets the new file. -/
theorem rewriteWithout_cut {records : SortedMap SignalStopIdentity SignalStopLedgerRecord}
    {provenance : SignalStopProvenanceLedger}
    (hread : ∀ i g, provenance.records.get? i = some (.signalOnly g) → fs.claims i)
    (h : Partial (env.rewriteWithout identity records provenance) t) (hrun : LedgerRun fs t fs') :
    Weakens identity env fs t fs' := by
  refine Weakens.bind (fun _ => partial_generation) ?_ h hrun
  intro current t₁ t₂ _ _ hrest hrun
  cases rewriteMainLedger_cut hrest hrun with
  | inl hold => exact .inl hold
  | inr hnew =>
    refine .inr ?_
    intro i hclaims
    obtain ⟨g, hkept⟩ := hnew i hclaims
    obtain ⟨hne, -, hget, -⟩ := kept_get?.mp hkept
    exact ⟨hread i g hget, hne⟩

/-- After a rewrite that succeeds, the sidecar does not claim the identity. -/
theorem rewriteWithout_ok {records : SortedMap SignalStopIdentity SignalStopLedgerRecord}
    {provenance : SignalStopProvenanceLedger}
    (h : Exec (env.rewriteWithout identity records provenance) t (.ok ()))
    (hrun : LedgerRun fs t fs') : ¬ fs'.claims identity := by
  obtain ⟨t₁, t₂, current, rfl, hstat, hrest⟩ := exec_bind.mp h
  obtain ⟨fs₁, hrun₁, hrun₂⟩ := ledgerRun_append.mp hrun
  intro hclaims
  cases (rewriteMainLedger_ok hrest hrun₂).2 with
  | inl hgone => exact LedgerFiles.not_claims hgone.2 hclaims
  | inr hwritten =>
    obtain ⟨node, -, -, htext⟩ := hwritten
    obtain ⟨g, hget⟩ := hclaims
    rw [htext] at hget
    obtain ⟨g', hrebound⟩ := claims_of_lines hget
    obtain ⟨-, g'', hkept⟩ := rebind_get?.mp hrebound
    exact (kept_get?.mp hkept).1 rfl

/-! ## The operations -/

/-- What was read from the sidecar, it claims. -/
theorem claims_of_readProvenance {provenance : SignalStopProvenanceLedger}
    (h : Exec LedgerEnv.readProvenance t provenance) (hrun : LedgerRun fs t fs')
    (hget : provenance.records.get? i = some (.signalOnly g)) : fs.claims i := by
  obtain ⟨answer, rfl, rfl⟩ := exec_readProvenance.mp h
  obtain ⟨fs₁, hstep, -⟩ := ledgerRun_cons.mp hrun
  exact claims_of_read hstep hget

/-- Recording a stop, cut off anywhere, only weakens what is claimed. -/
theorem record_cut (h : Partial (env.recordFreezeitSignalStopAtPath identity) t)
    (hrun : LedgerRun fs t fs') : Weakens identity env fs t fs' := by
  refine Weakens.bind (fun _ => partial_readLedger) ?_ h hrun
  intro result t₁ t₂ _ _ hrest hrun
  match result with
  | .error error =>
    have hend : t₂ = [] := partial_pure.mp hrest
    subst hend
    exact .of_reads readsOnly_nil hrun
  | .ok records =>
    refine Weakens.bind (fun _ => partial_readProvenance) ?_ hrest hrun
    intro provenance t₃ t₄ hread hrunRead hrest hrun
    exact rewriteWithout_cut (fun i g hget => claims_of_readProvenance hread hrunRead hget) hrest hrun

/-- Taking a record, cut off anywhere, only weakens what is claimed. -/
theorem take_cut (h : Partial (env.takeFreezeitSignalStopAtPath identity) t)
    (hrun : LedgerRun fs t fs') : Weakens identity env fs t fs' := by
  refine Weakens.bind (fun _ => partial_readLedger) ?_ h hrun
  intro result t₁ t₂ _ _ hrest hrun
  match result with
  | .error error =>
    have hend : t₂ = [] := partial_pure.mp hrest
    subst hend
    exact .of_reads readsOnly_nil hrun
  -- Both branches of the function lead to the same rewrite or to nothing.
  | .ok records =>
    refine Weakens.bind (fun _ => partial_readProvenance) ?_ hrest hrun
    intro provenance t₃ t₄ hread hrunRead hrest hrun
    have hcut : Partial (env.rewriteWithout identity (records.erase identity) provenance) t₄ := by
      rcases partial_bind.mp hrest with hcut | ⟨t₅, t₆, rewritten, rfl, hexec, hend⟩
      · exact hcut
      · have hlast : t₆ = [] := by
          match rewritten with
          | .error error => exact partial_pure.mp hend
          | .ok ()       => exact partial_pure.mp hend
        rw [hlast, List.append_nil]
        exact hexec.toPartial
    exact rewriteWithout_cut (fun i g hget => claims_of_readProvenance hread hrunRead hget) hcut hrun

/-- A take that completes has rewritten the ledger without the identity. -/
theorem exec_take {taken : Bool}
    (h : Exec (env.takeFreezeitSignalStopAtPath identity) t (.ok taken)) :
    ∃ main sidecar t', t = ⟨.read .main, main⟩ :: ⟨.read .sidecar, sidecar⟩ :: t'
      ∧ ∃ records, readSignalStopLedger main = .ok records ∧ taken = records.contains identity
        ∧ Exec (env.rewriteWithout identity (records.erase identity)
          (readSignalStopProvenance sidecar)) t' (.ok ()) := by
  obtain ⟨t₁, t₂, result, rfl, hread, hrest⟩ := exec_bind.mp h
  obtain ⟨main, rfl, hresult⟩ := exec_readLedger.mp hread
  match result with
  | .error error => cases (exec_pure.mp hrest).2
  | .ok records =>
    obtain ⟨t₃, t₄, provenance, rfl, hsidecar, hrest⟩ := exec_bind.mp hrest
    obtain ⟨sidecar, rfl, rfl⟩ := exec_readProvenance.mp hsidecar
    obtain ⟨t₅, t₆, rewritten, rfl, hrewrite, hend⟩ := exec_bind.mp hrest
    match rewritten with
    | .error error => cases (exec_pure.mp hend).2
    | .ok () =>
      obtain ⟨rfl, htaken⟩ := exec_pure.mp hend
      rw [List.append_nil]
      exact ⟨main, sidecar, t₅, rfl, records, hresult.symm, Except.ok.inj htaken, hrewrite⟩

/-- After a completed take there is no claim for the identity. -/
theorem take_ok {taken : Bool} (h : Exec (env.takeFreezeitSignalStopAtPath identity) t (.ok taken))
    (hrun : LedgerRun fs t fs') : ¬ fs'.claims identity := by
  obtain ⟨main, sidecar, t', rfl, records, -, -, hrewrite⟩ := exec_take h
  obtain ⟨fs₁, -, hrun₁⟩ := ledgerRun_cons.mp hrun
  obtain ⟨fs₂, -, hrun₂⟩ := ledgerRun_cons.mp hrun₁
  exact rewriteWithout_ok hrewrite hrun₂

/-- A sidecar with a promoted entry is never empty, so it is written and not removed. -/
theorem lines_insert_ne_nil {records : SortedMap SignalStopIdentity SignalStopProvenanceRecord} :
    ¬ (SignalStopProvenanceLedger.lines
      (records.insert identity (.signalOnly generation))).isEmpty = true := by
  intro hempty
  have hmem : (identity, generation)
      ∈ signalOnlyEntries (records.insert identity (.signalOnly generation)) :=
    mem_signalOnlyEntries.mpr (SortedMap.get?_insert_self _ _ _)
  rw [lines_eq, List.isEmpty_iff, List.map_eq_nil_iff] at hempty
  rw [hempty] at hmem
  cases hmem

/-- A promotion adds a claim when it installs the sidecar, and only then. -/
theorem promote_cut (h : Partial (env.promoteFreezeitSignalStopAtPath identity) t)
    (hrun : LedgerRun fs t fs') :
    ∀ i, fs'.claims i → fs.claims i
      ∨ i = identity ∧ Installed (.sidecarTemporary env.processId) .sidecar t := by
  -- Where the sidecar is untouched every claim is an old one. Each exit before the write
  -- is of this kind.
  have hsame : ∀ {fs₁ fs₂ : LedgerFiles} {t}, fs₂ .sidecar = fs₁ .sidecar →
      ∀ i, fs₂.claims i → fs₁.claims i
        ∨ i = identity ∧ Installed (.sidecarTemporary env.processId) .sidecar t := by
    intro fs₁ fs₂ t heq i hclaims
    obtain ⟨g, hget⟩ := hclaims
    refine .inl ⟨g, ?_⟩
    unfold LedgerFiles.text at hget ⊢
    rw [← heq]
    exact hget
  have hreads : ∀ {fs₁ fs₂ : LedgerFiles} {t}, ReadsOnly t → LedgerRun fs₁ t fs₂ →
      fs₂ .sidecar = fs₁ .sidecar := by
    intro fs₁ fs₂ t honly hrun
    rw [honly.eq hrun]
  rcases partial_bind.mp h with hread | ⟨t₁, t₂, result, rfl, hread, hrest₁⟩
  · exact hsame (hreads (partial_readLedger hread) hrun)
  obtain ⟨fs₁, hrun₁, hrun₂⟩ := ledgerRun_append.mp hrun
  have heq₁ : fs₁ = fs := (partial_readLedger hread.toPartial).eq hrun₁
  subst heq₁
  match result with
  | .error error =>
    have hend : t₂ = [] := partial_pure.mp hrest₁
    subst hend
    exact hsame (hreads readsOnly_nil hrun₂)
  | .ok records =>
  dsimp only at hrest₁
  split at hrest₁
  · have hend : t₂ = [] := partial_pure.mp hrest₁
    subst hend
    exact hsame (hreads readsOnly_nil hrun₂)
  rcases partial_bind.mp hrest₁ with hstat | ⟨t₃, t₄, current, rfl, hstat, hrest₂⟩
  · exact hsame (hreads (partial_generation hstat) hrun₂)
  obtain ⟨fs₂, hrun₃, hrun₄⟩ := ledgerRun_append.mp hrun₂
  have heq₂ : fs₂ = fs₁ := (partial_generation hstat.toPartial).eq hrun₃
  subst heq₂
  match current with
  | .error error =>
    have hend : t₄ = [] := partial_pure.mp hrest₂
    subst hend
    exact hsame (hreads readsOnly_nil hrun₄)
  | .ok generation =>
  rcases partial_bind.mp hrest₂ with hsidecar | ⟨t₅, t₆, provenance, rfl, hsidecar, hrest₃⟩
  · exact hsame (hreads (partial_readProvenance hsidecar) hrun₄)
  obtain ⟨fs₃, hrun₅, hrun₆⟩ := ledgerRun_append.mp hrun₄
  have heq₃ : fs₃ = fs₂ := (partial_readProvenance hsidecar.toPartial).eq hrun₅
  subst heq₃
  split at hrest₃
  · have hend : t₆ = [] := partial_pure.mp hrest₃
    subst hend
    exact hsame (hreads readsOnly_nil hrun₆)
  have hwrite : Partial (env.writeProvenance (((provenance.retainCurrentGeneration
      (some generation)).retainCanonicalMain records).records.insert identity
        (.signalOnly generation))) t₆ := by
    rcases partial_bind.mp hrest₃ with hcut | ⟨t₇, t₈, written, rfl, hexec, hend⟩
    · exact hcut
    · have hlast : t₈ = [] := by
        match written with
        | .error error => exact partial_pure.mp hend
        | .ok ()       => exact partial_pure.mp hend
      rw [hlast, List.append_nil]
      exact hexec.toPartial
  -- The new sidecar counts from the rename on. If the run was cut off before, the old one
  -- is still in place.
  cases write_installed (by simp) lines_insert_ne_nil hwrite hrun₆ with
  | inl hold => exact hsame hold
  | inr hinstalled =>
    have hnew := (write_result (by simp) hwrite hrun₆).resolve_left fun hold => hold.2 hinstalled
    intro i hclaims
    by_cases hi : i = identity
    · refine .inr ⟨hi, ?_⟩
      exact List.mem_append_right _ (List.mem_append_right _ (List.mem_append_right _ hinstalled))
    · obtain ⟨g, hget⟩ := hclaims
      rw [hnew] at hget
      obtain ⟨g', hkept⟩ := claims_of_lines hget
      rw [SortedMap.get?_insert_ne _ _ (Ne.symm hi)] at hkept
      have hforget : (((provenance.retainCurrentGeneration (some generation)).retainCanonicalMain
          records).forget identity).records.get? i = some (.signalOnly g') := by
        unfold SignalStopProvenanceLedger.forget
        dsimp only
        rw [SortedMap.get?_erase, if_neg hi]
        exact hkept
      obtain ⟨-, -, hread, -⟩ := kept_get?.mp hforget
      exact .inl (claims_of_readProvenance hsidecar hrun₅ hread)

/-! ## Histories -/

/-- The three operations that write the ledger. -/
inductive LedgerCommand where
  | record (identity : SignalStopIdentity)
  | promote (identity : SignalStopIdentity)
  | take (identity : SignalStopIdentity)
  deriving DecidableEq, Repr

/-- An operation with the result that its caller sees. -/
def LedgerCommand.program (env : LedgerEnv) : LedgerCommand → Filing (Except DaemonError Bool)
  | .record identity => do
    let result ← env.recordFreezeitSignalStopAtPath identity
    return result.map fun _ => true
  | .promote identity => env.promoteFreezeitSignalStopAtPath identity
  | .take identity    => env.takeFreezeitSignalStopAtPath identity

/-- An operation that a daemon ran, or died in. -/
structure LedgerAttempt where
  env       : LedgerEnv
  command   : LedgerCommand
  calls     : List LedgerEvent
  completed : Bool

/-- Operations one after another, from an empty ledger and sidecar. -/
inductive LedgerHistory : List LedgerAttempt → LedgerFiles → Prop where
  | empty : ∀ {fs : LedgerFiles}, (fs.text .main).getD "" = "" → (fs.text .sidecar).getD "" = "" →
      LedgerHistory [] fs
  | crashed : ∀ {past fs t fs'} (env : LedgerEnv) (command : LedgerCommand), LedgerHistory past fs →
      Partial (command.program env) t → LedgerRun fs t fs' →
      LedgerHistory (past ++ [⟨env, command, t, false⟩]) fs'
  | ended : ∀ {past fs t result fs'} (env : LedgerEnv) (command : LedgerCommand),
      LedgerHistory past fs → Exec (command.program env) t result → LedgerRun fs t fs' →
      LedgerHistory (past ++ [⟨env, command, t, result.isOk⟩]) fs'

/-- The attempt promotes the identity and gets as far as the rename of the sidecar. -/
def Promotes (i : SignalStopIdentity) (a : LedgerAttempt) : Prop :=
  a.command = .promote i ∧ Installed (.sidecarTemporary a.env.processId) .sidecar a.calls

/-- The attempt records the identity and writes the main ledger, or takes it
    and completes. -/
def Revokes (i : SignalStopIdentity) (a : LedgerAttempt) : Prop :=
  a.command = .record i ∧ Installed (.mainTemporary a.env.processId) .main a.calls
    ∨ a.command = .take i ∧ a.completed = true

/-- One attempt, completed or cut off: a claim after it was made by it, or was there
    before and is not revoked by it. This is the step of the history. -/
theorem attempt_claims {command : LedgerCommand} {completed : Bool}
    (h : Partial (command.program env) t) (hrun : LedgerRun fs t fs')
    (hcompleted : completed = true → ∃ value, Exec (command.program env) t (.ok value))
    (hclaims : fs'.claims i) :
    Promotes i ⟨env, command, t, completed⟩ ∨ fs.claims i ∧ ¬ Revokes i ⟨env, command, t, completed⟩ := by
  have hsame : ∀ {fs : LedgerFiles}, fs' .sidecar = fs .sidecar → fs.claims i := by
    intro fs heq
    obtain ⟨g, hget⟩ := hclaims
    refine ⟨g, ?_⟩
    unfold LedgerFiles.text at hget ⊢
    rw [← heq]
    exact hget
  -- A record or a take of the same identity revokes, of another one it keeps.
  cases command with
  | record identity =>
    have hcut : Partial (env.recordFreezeitSignalStopAtPath identity) t := by
      rcases partial_bind.mp h with hcut | ⟨t₁, t₂, result, rfl, hexec, hend⟩
      · exact hcut
      · rw [partial_pure.mp hend, List.append_nil]
        exact hexec.toPartial
    refine .inr ?_
    cases record_cut hcut hrun with
    | inl hold =>
      refine ⟨hsame hold.1, ?_⟩
      intro hrevokes
      cases hrevokes with
      | inl hrecord => exact hold.2 hrecord.2
      | inr htake => cases htake.1
    | inr hdropped =>
      refine ⟨(hdropped i hclaims).1, ?_⟩
      intro hrevokes
      cases hrevokes with
      | inl hrecord =>
        cases hrecord.1
        exact (hdropped i hclaims).2 rfl
      | inr htake => cases htake.1
  | promote identity =>
    cases promote_cut h hrun i hclaims with
    | inl hold =>
      refine .inr ⟨hold, ?_⟩
      intro hrevokes
      cases hrevokes with
      | inl hrecord => cases hrecord.1
      | inr htake => cases htake.1
    | inr hnew =>
      rw [hnew.1]
      exact .inl ⟨rfl, hnew.2⟩
  | take identity =>
    have hnot : ¬ Revokes i ⟨env, .take identity, t, completed⟩ := by
      intro hrevokes
      cases hrevokes with
      | inl hrecord => cases hrecord.1
      | inr htake =>
        obtain ⟨hcommand, hok⟩ := htake
        cases hcommand
        obtain ⟨value, hexec⟩ := hcompleted hok
        exact take_ok hexec hrun hclaims
    cases take_cut h hrun with
    | inl hold => exact .inr ⟨hsame hold.1, hnot⟩
    | inr hdropped => exact .inr ⟨(hdropped i hclaims).1, hnot⟩

/-- In every history a claim goes back to a promotion with no revocation since. -/
theorem LedgerHistory.claims {past : List LedgerAttempt} (h : LedgerHistory past fs) :
    ∀ i, fs.claims i → Since (Promotes i) (fun a => ¬ Revokes i a) past := by
  have hstep : ∀ {past : List LedgerAttempt} {fs fs' : LedgerFiles} {a : LedgerAttempt},
      (∀ i, fs.claims i → Since (Promotes i) (fun a => ¬ Revokes i a) past) →
      (∀ i, fs'.claims i → Promotes i a ∨ fs.claims i ∧ ¬ Revokes i a) →
      ∀ i, fs'.claims i → Since (Promotes i) (fun a => ¬ Revokes i a) (past ++ [a]) := by
    intro past fs fs' a hpast ha i hclaims
    apply Since.concat_iff.mpr
    cases ha i hclaims with
    | inl hnew => exact .inl hnew
    | inr hold => exact .inr ⟨hpast i hold.1, hold.2⟩
  -- At the start there is no sidecar with a trusted line; after that by one attempt at a
  -- time.
  induction h with
  | @empty fs hmain hsidecar =>
    intro i hclaims
    obtain ⟨g, hget⟩ := hclaims
    cases htext : fs.text .sidecar with
    | none =>
      rw [htext] at hget
      cases hget
    | some text =>
      rw [htext] at hsidecar hget
      rw [Option.getD_some] at hsidecar
      rw [hsidecar] at hget
      cases hget
  | crashed env command _ hpartial hrun ih =>
    exact hstep ih fun i => attempt_claims hpartial hrun (by simp)
  | @ended _ _ _ result _ env command _ hexec hrun ih =>
    refine hstep ih fun i => attempt_claims hexec.toPartial hrun ?_
    intro hok
    match result with
    | .ok value => exact ⟨value, hexec⟩

/-- Whatever is reported as stopped by a signal alone was promoted: the sidecar
    was renamed into place, and since then the identity was neither taken nor
    recorded in the main ledger again. -/
theorem signal_only_was_promoted {past : List LedgerAttempt} (h : LedgerHistory past fs)
    (hreport : Exec (env.recordedSignalStopOwnership i) t (.ok (some .signalOnly)))
    (hrun : LedgerRun fs t fs') : Since (Promotes i) (fun a => ¬ Revokes i a) past := by
  have hclaims : fs.claims i := by
    obtain ⟨main, inode, sidecar, records, rfl, -, -, hsignal⟩ := exec_reported_signalOnly.mp hreport
    obtain ⟨fs₁, hmain, hrun₁⟩ := ledgerRun_cons.mp hrun
    have hsame₁ : fs₁ = fs := FileStep.eq_of_untouched hmain fun _ => id
    subst hsame₁
    obtain ⟨fs₂, hstat, hrun₂⟩ := ledgerRun_cons.mp hrun₁
    have hsame₂ : fs₂ = fs₁ := FileStep.eq_of_untouched hstat fun _ => id
    subst hsame₂
    obtain ⟨fs₃, hsidecar, -⟩ := ledgerRun_cons.mp hrun₂
    unfold SignalStopProvenanceLedger.isSignalOnly at hsignal
    rw [Bool.and_eq_true, decide_eq_true_eq] at hsignal
    exact claims_of_read hsidecar hsignal.2
  exact h.claims i hclaims

/-- Process 123 is recorded and promoted, on a disk on which every call succeeds. -/
theorem signal_only_was_promoted_sample :
    ∃ past fs t fs', past.map LedgerAttempt.command = [.record ⟨123, 4242⟩, .promote ⟨123, 4242⟩]
      ∧ LedgerHistory past fs
      ∧ Exec (LedgerEnv.recordedSignalStopOwnership ⟨1, 9⟩ ⟨123, 4242⟩) t (.ok (some .signalOnly))
      ∧ LedgerRun fs t fs'
      ∧ Since (Promotes ⟨123, 4242⟩) (fun a => ¬ Revokes ⟨123, 4242⟩ a) past := by
  let env : LedgerEnv := ⟨1, 9⟩
  let identity : SignalStopIdentity := ⟨123, 4242⟩
  let disk := ledgerDisk fun _ => false
  let start : LedgerFiles := fun _ => none
  -- Record, promote and ask, each on the disk that the one before has left.
  let recording := (LedgerCommand.record identity).program env
  let recorded := disk.serveRun recording 1 start
  let n := disk.nextCall recording 1 start
  let promoting := (LedgerCommand.promote identity).program env
  let promoted := disk.serveRun promoting n recorded.2.2
  let m := disk.nextCall promoting n recorded.2.2
  let reported := disk.serveRun (env.recordedSignalStopOwnership identity) m promoted.2.2
  have hreported : reported.2.1 = .ok (some .signalOnly) := by decide +kernel
  obtain ⟨hexec₁, hrun₁, hbelow₁⟩ :
      Exec recording recorded.1 recorded.2.1 ∧ LedgerRun start recorded.1 recorded.2.2
        ∧ FileService.InodesBelow recorded.2.2 n := ledgerDisk_run FileService.inodesBelow_none _
  obtain ⟨hexec₂, hrun₂, hbelow₂⟩ :
      Exec promoting promoted.1 promoted.2.1 ∧ LedgerRun recorded.2.2 promoted.1 promoted.2.2
        ∧ FileService.InodesBelow promoted.2.2 m := ledgerDisk_run hbelow₁ _
  obtain ⟨hexec₃, hrun₃, -⟩ :
      Exec (env.recordedSignalStopOwnership identity) reported.1 reported.2.1
        ∧ LedgerRun promoted.2.2 reported.1 reported.2.2 ∧ _ := ledgerDisk_run hbelow₂ _
  have hhistory : LedgerHistory ([] ++ [⟨env, _, recorded.1, recorded.2.1.isOk⟩]
      ++ [⟨env, _, promoted.1, promoted.2.1.isOk⟩]) promoted.2.2 :=
    .ended env (.promote identity) (.ended env (.record identity) (.empty rfl rfl) hexec₁ hrun₁)
      hexec₂ hrun₂
  rw [hreported] at hexec₃
  exact ⟨_, _, _, _, rfl, hhistory, hexec₃, hrun₃, signal_only_was_promoted hhistory hexec₃ hrun₃⟩

end Freezeit
