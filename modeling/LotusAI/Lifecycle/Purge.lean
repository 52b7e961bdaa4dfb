import LotusAI.Lifecycle.Erasure

/-!
# What an erasure does

Each executor of an erasure ends with all rows of the tenant gone from its family, and with their
number. On the way, and after it, everything outside the family is as it was. The rounds of the
callback are put together from this.
-/

namespace LotusAI.Lifecycle

open Lib Artifacts Stepwise List Environment FamilyHandler Table ErasureExecutor

/-! ### What an executor does, all at once -/

def tenantRows (tenantId : String) (t : RetainedTable) (s : DataStores) : List String :=
  ((s.tables t).list.filter fun row => t.tenant? row = some tenantId).map t.key

/-- Delete them. -/
def purgeTable (tenantId : String) (t : RetainedTable) (s : DataStores) : DataStores :=
  s.removeRows t (tenantRows tenantId t s)

/-- Delete what a family has of a tenant. -/
def purge (tenantId : String) : ErasureExecutor → DataStores → DataStores
  | .asyncRuntimeContent, s =>
    { s with asyncRuntime := (s.asyncRuntime.deleteJobRecords (tenantJobs tenantId s)).2 }
  | .artifactContent, s =>
    { s with
      artifacts := (deleteArtifactsWithPayloads (tenantArtifacts tenantId s) s.artifacts).2 }
  | executor, s => executor.handler.tables.foldl (fun s t => purgeTable tenantId t s) s

/-- The rows of a table, and those that depend on them. -/
def rowsUnder (s : DataStores) : RetainedTable → ℕ
  | .runs => (s.tables .runs).list.length + s.runEvents.list.length
  | .taskFlows => (s.tables .taskFlows).list.length + s.checkpoints.list.length
  | t => (s.tables t).list.length

/-- The jobs, their attempts, and their leases. -/
def RuntimeContent.rows (c : RuntimeContent) : ℕ :=
  c.jobs.list.length + (c.store.attempts.values.map List.length).sum + c.leases.list.length

/-- The rows of a family. The payloads of artifacts are not rows. -/
def familyRows (s : DataStores) : ErasureExecutor → ℕ
  | .asyncRuntimeContent => s.asyncRuntime.rows
  | .artifactContent => s.artifacts.records.list.length
  | executor => (executor.handler.tables.map (rowsUnder s)).sum

/-- The rows without a tenant, where an executor counts them. -/
def unattributable (s : DataStores) : ErasureExecutor → Option ℕ
  | .asyncRuntimeContent =>
    some (s.asyncRuntime.jobs.list.countP fun job => job.tenantId = none)
  | .artifactContent =>
    some (s.artifacts.listArtifacts.countP fun record => record.tenantId = none)
  | _ => none

/-! ### Tables -/

section Tables

variable {s : DataStores} {t : RetainedTable} {ids ids' : List String}

theorem removeRows_congr (h : ∀ id, id ∈ ids ↔ id ∈ ids') :
    s.removeRows t ids = s.removeRows t ids' := by
  rw [DataStores.removeRows, DataStores.removeRows, delete_congr h]
  cases t <;> simp only [DataStores.cascade, h]

theorem DataStores.removeRows_removeRows_audit (s : DataStores) (ids ids' : List String) :
    (s.removeRows .auditRecords ids).removeRows .auditRecords ids' =
      s.removeRows .auditRecords (ids ++ ids') := by
  simp [DataStores.removeRows, DataStores.cascade, DataStores.put, delete_delete]

variable (s ids)

/-- A deletion takes the rows it counts, from the table and from what depends on it. -/
theorem rowsUnder_removeRows (ht : t ≠ .evaluationRuns) :
    rowsUnder (s.removeRows t ids) t + ((s.tables t).countOf ids + (s.dependents ids t).1) =
      rowsUnder s t := by
  have htable := (s.tables t).length_delete ids
  rw [← s.tables_removeRows] at htable
  cases t with
  | runs =>
    have hevents := s.runEvents.length_deleteWhere fun event => event.runId ∈ ids
    simp only [rowsUnder, s.runEvents_removeRows, if_true, DataStores.dependents]
    omega
  | taskFlows =>
    have hcheckpoints := s.checkpoints.length_deleteWhere fun row => row.taskFlowId ∈ ids
    simp only [rowsUnder, s.checkpoints_removeRows, if_true, DataStores.dependents]
    omega
  | evaluationRuns => exact absurd rfl ht
  | _ => exact htable

theorem rowsUnder_removeRows_of_ne {t' : RetainedTable} (hne : t' ≠ t)
    (ht : t ≠ .evaluationRuns) : rowsUnder (s.removeRows t ids) t' = rowsUnder s t' := by
  have htable := s.tables_removeRows_of_ne ids hne fun h => absurd h ht
  cases t' with
  | runs => simp only [rowsUnder, htable, s.runEvents_removeRows, if_neg (Ne.symm hne)]
  | taskFlows => simp only [rowsUnder, htable, s.checkpoints_removeRows, if_neg (Ne.symm hne)]
  | _ => simp only [rowsUnder, htable]

end Tables

namespace RuntimeContent

variable (c : RuntimeContent)

theorem rows_deleteJobRecord (jobId : String) :
    (c.deleteJobRecord jobId).rows + ((c.store.countJobRecord jobId).1 +
      (c.store.countJobRecord jobId).2.1 + (c.store.countJobRecord jobId).2.2) = c.rows := by
  have hjobs := c.jobs.length_delete [jobId]
  have hleases := c.leases.length_delete [jobId]
  have hattempts := c.store.attempts.sum_values_erase length jobId
  rw [← jobs_deleteJobRecord, countOf_singleton] at hjobs
  rw [← leases_deleteJobRecord, countOf_singleton] at hleases
  have hlength : ((c.store.attempts.get? jobId).map length).getD 0 =
      (c.store.attemptsOf jobId).length := by
    unfold AsyncRuntime.Store.attemptsOf
    cases c.store.attempts.get? jobId <;> rfl
  unfold rows
  simp only [AsyncRuntime.Store.countJobRecord]
  change _ + ((c.store.attempts.erase jobId).values.map length).sum + _ + _ = _
  change _ + (if (c.store.jobs.get? jobId).isSome then 1 else 0) = _ at hjobs
  change _ + (if (c.store.leasesByJob.get? jobId).isSome then 1 else 0) = _ at hleases
  omega

/-- The deletion of jobs reports the rows that are gone. -/
theorem rows_deleteJobRecords (jobIds : List String) :
    (c.deleteJobRecords jobIds).2.rows + ((c.deleteJobRecords jobIds).1.1 +
      (c.deleteJobRecords jobIds).1.2.1 + (c.deleteJobRecords jobIds).1.2.2) = c.rows := by
  induction jobIds generalizing c with
  | nil => rfl
  | cons jobId rest ih =>
    have hround := c.rows_deleteJobRecord jobId
    have hrest := ih (c.deleteJobRecord jobId)
    simp only [deleteJobRecords]
    omega

end RuntimeContent

theorem mem_tenantRows {tenantId : String} {t : RetainedTable} {s : DataStores} {id : String} :
    id ∈ tenantRows tenantId t s ↔
      ∃ row ∈ s.tables t, t.tenant? row = some tenantId ∧ t.key row = id := by
  simp [tenantRows, mem_list, and_assoc]

/-! ### Executors -/

variable {ts : List RetainedTable}

namespace Environment

variable (env : Environment) (tenantId : String) {s : DataStores}

variable {tenantId} in
theorem mem_auditBatch {record : AuditRecord} (h : record ∈ env.auditBatch tenantId s) :
    record ∈ s.tables .auditRecords ∧ record.tenantId = some tenantId := by
  have hlisted := ((env.listing .auditRecords).perm _).mem_iff.mp (mem_of_mem_take h)
  obtain ⟨hrow, htenant⟩ := mem_filter.mp hlisted
  exact ⟨mem_list.mp hrow, of_decide_eq_true htenant⟩

variable {tenantId} in
/-- A batch is empty only where the tenant has no records left. -/
theorem tenantRows_eq_nil_of_auditBatch (h : env.auditBatch tenantId s = []) :
    tenantRows tenantId .auditRecords s = [] := by
  have harranged := (take_eq_nil_iff.mp h).resolve_left (by decide)
  have hperm := (env.listing .auditRecords).perm
    ((s.tables .auditRecords).list.filter fun record => record.tenantId = some tenantId)
  rw [harranged] at hperm
  exact map_eq_nil_iff.mpr hperm.nil_eq.symm

variable {tenantId} in
/-- The records of a batch and those that are left after it are those of the tenant. -/
theorem mem_tenantRows_after_batch (id : String) :
    id ∈ (env.auditBatch tenantId s).map (·.requestId) ++ tenantRows tenantId .auditRecords
          (s.removeRows .auditRecords ((env.auditBatch tenantId s).map (·.requestId))) ↔
      id ∈ tenantRows tenantId .auditRecords s := by
  rw [mem_append, mem_tenantRows, mem_tenantRows, s.tables_removeRows]
  constructor
  · rintro (hbatch | ⟨row, hrow, htenant, rfl⟩)
    · obtain ⟨record, hrecord, rfl⟩ := mem_map.mp hbatch
      exact ⟨record, (env.mem_auditBatch hrecord).1, (env.mem_auditBatch hrecord).2, rfl⟩
    · exact ⟨row, (mem_delete.mp hrow).1, htenant, rfl⟩
  · rintro ⟨row, hrow, htenant, rfl⟩
    by_cases hbatch : row.requestId ∈ (env.auditBatch tenantId s).map (·.requestId)
    · exact .inl hbatch
    · exact .inr ⟨row, mem_delete.mpr ⟨hrow, hbatch⟩, htenant, rfl⟩

variable {tenantId} in
/-- A round that finds records leaves fewer of them. -/
theorem length_tenantRows_after_batch (h : env.auditBatch tenantId s ≠ []) :
    (tenantRows tenantId .auditRecords
      (s.removeRows .auditRecords ((env.auditBatch tenantId s).map (·.requestId)))).length <
        (tenantRows tenantId .auditRecords s).length := by
  obtain ⟨record, hrecord⟩ := exists_mem_of_ne_nil _ h
  have hid : record.requestId ∈ (env.auditBatch tenantId s).map (·.requestId) :=
    mem_map_of_mem hrecord
  have hsublist : (tenantRows tenantId .auditRecords
      (s.removeRows .auditRecords ((env.auditBatch tenantId s).map (·.requestId)))).Sublist
        (tenantRows tenantId .auditRecords s) := by
    unfold tenantRows
    exact ((sublist_delete ..).filter _).map _
  -- a record of the batch is there before, and not after
  refine lt_of_le_of_ne hsublist.length_le fun hsame => ?_
  have hbefore := (env.mem_tenantRows_after_batch _).mp (mem_append_left _ hid)
  rw [← hsublist.eq_of_length hsame, mem_tenantRows, s.tables_removeRows] at hbefore
  obtain ⟨row, hrow, -, hkey⟩ := hbefore
  exact (mem_delete.mp hrow).2 (hkey ▸ hid)

/-- Enough rounds take every record of the tenant. -/
theorem eraseAuditRounds_eq {rounds : ℕ}
    (h : (tenantRows tenantId .auditRecords s).length < rounds) :
    ∃ erased, (env.eraseAuditRounds tenantId rounds s).result = .ok erased ∧
      (env.eraseAuditRounds tenantId rounds s).final = purgeTable tenantId .auditRecords s ∧
      rowsUnder (purgeTable tenantId .auditRecords s) .auditRecords + erased =
        rowsUnder s .auditRecords := by
  induction rounds generalizing s with
  | zero => omega
  | succ rounds ih =>
    by_cases hbatch : env.auditBatch tenantId s = []
    · have hnone := env.tenantRows_eq_nil_of_auditBatch hbatch
      simp [eraseAuditRounds, hbatch, purgeTable, hnone, DataStores.removeRows_nil]
    · have hfewer := env.length_tenantRows_after_batch hbatch
      set ids := (env.auditBatch tenantId s).map (·.requestId) with hids
      obtain ⟨others, hresult, hfinal, hrows⟩ := ih (s := s.removeRows .auditRecords ids) (by omega)
      have hpurge : purgeTable tenantId .auditRecords (s.removeRows .auditRecords ids) =
          purgeTable tenantId .auditRecords s := by
        rw [purgeTable, s.removeRows_removeRows_audit]
        exact removeRows_congr env.mem_tenantRows_after_batch
      have hround := rowsUnder_removeRows s (t := .auditRecords) ids nofun
      simp only [eraseAuditRounds, read_bind_apply, hbatch, if_false, modify_bind_apply, ← hids]
      rw [bind_of_ok hresult, ← hpurge]
      refine ⟨_, rfl, hfinal, ?_⟩
      simp only [DataStores.dependents] at hround
      omega

variable {t : RetainedTable}

theorem eraseTable_eq (ht : t ≠ .evaluationRuns) :
    ∃ erased, (env.eraseTable tenantId t s).result = .ok erased ∧
      (env.eraseTable tenantId t s).final = purgeTable tenantId t s ∧
      rowsUnder (purgeTable tenantId t s) t + erased = rowsUnder s t := by
  set ids := (((env.listing t).arrange (s.tables t).list).filter
    fun row => t.tenant? row = some tenantId).map t.key with hids
  have hperm : ids.Perm (tenantRows tenantId t s) :=
    (((env.listing t).perm (s.tables t).list).filter _).map _
  have hpurge : s.removeRows t ids = purgeTable tenantId t s :=
    removeRows_congr fun id => hperm.mem_iff
  by_cases hnone : ids = []
  · -- nothing is deleted, and no call is made
    rw [hnone, DataStores.removeRows_nil] at hpurge
    simp only [eraseTable, read_bind_apply, ← hids, hnone, if_true, pure_apply, ← hpurge]
    exact ⟨0, rfl, trivial, Nat.add_zero _⟩
  · simp only [eraseTable, read_bind_apply, ← hids, hnone, if_false, modify_apply, ← hpurge]
    exact ⟨_, rfl, trivial, rowsUnder_removeRows s ids ht⟩

/-- The other tables keep their rows. -/
theorem rowsUnder_purgeTables_of_notMem
    (hts : .evaluationRuns ∉ ts) (ht : t ∉ ts) (s : DataStores) :
    rowsUnder (ts.foldl (fun s t => purgeTable tenantId t s) s) t = rowsUnder s t := by
  induction ts generalizing s with
  | nil => rfl
  | cons first rest ih =>
    simp only [mem_cons, not_or] at hts ht
    rw [foldl_cons, ih hts.2 ht.2]
    exact rowsUnder_removeRows_of_ne s _ ht.1 (Ne.symm hts.1)

theorem eraseTables_eq (ts : List RetainedTable) (hts : .evaluationRuns ∉ ts) (hnodup : ts.Nodup)
    (s : DataStores) :
    ∃ erased, (env.eraseTables tenantId ts s).result = .ok erased ∧
      (env.eraseTables tenantId ts s).final = ts.foldl (fun s t => purgeTable tenantId t s) s ∧
      (ts.map (rowsUnder (ts.foldl (fun s t => purgeTable tenantId t s) s))).sum + erased =
        (ts.map (rowsUnder s)).sum := by
  induction ts generalizing s with
  | nil => exact ⟨0, rfl, rfl, rfl⟩
  | cons t rest ih =>
    obtain ⟨hnot, hrest⟩ := nodup_cons.mp hnodup
    have hother : .evaluationRuns ∉ rest := fun h => hts (.tail _ h)
    have ht : t ≠ .evaluationRuns := fun h => hts (h ▸ (.head _))
    obtain ⟨erased, hresult, hfinal, hrows⟩ :=
      env.eraseTable_eq tenantId ht
    obtain ⟨others, hresults, hfinals, hothers⟩ := ih hother hrest (purgeTable tenantId t s)
    rw [← hfinal] at hresults hfinals
    rw [eraseTables, bind_of_ok hresult, bind_of_ok hresults, foldl_cons, ← hfinal]
    refine ⟨erased + others, rfl, hfinals, ?_⟩
    -- the first table is as its own deletion has left it, the others were not touched by it
    have hfirst := rowsUnder_purgeTables_of_notMem tenantId hother hnot (purgeTable tenantId t s)
    have hbefore : rest.map (rowsUnder (purgeTable tenantId t s)) = rest.map (rowsUnder s) :=
      map_congr_left fun t' ht' => rowsUnder_removeRows_of_ne s _
        (fun hsame => hnot (hsame ▸ ht')) ht
    rw [hbefore] at hothers
    simp only [hfinal, map_cons, sum_cons]
    omega

end Environment

theorem eraseObjects_eq (records : List ArtifactRecord) (s : DataStores) :
    (eraseObjects records s).result = .ok () ∧ (eraseObjects records s).final = { s with
        artifacts :=
          records.foldl (fun store record => store.deleteObject record.objectKey) s.artifacts } := by
  induction records generalizing s with
  | nil => exact ⟨rfl, rfl⟩
  | cons record rest ih =>
    obtain ⟨hresult, hfinal⟩ :=
      ih { s with artifacts := s.artifacts.deleteObject record.objectKey }
    exact ⟨hresult, hfinal⟩

section Content

variable (tenantId : String) (s : DataStores)

theorem eraseAsyncRuntimeContent_eq :
    ∃ erased, (eraseAsyncRuntimeContent tenantId s).result =
        .ok (erased, unattributable s .asyncRuntimeContent) ∧
      (eraseAsyncRuntimeContent tenantId s).final = purge tenantId .asyncRuntimeContent s ∧
      familyRows (purge tenantId .asyncRuntimeContent s) .asyncRuntimeContent + erased =
        familyRows s .asyncRuntimeContent := by
  have hrows := s.asyncRuntime.rows_deleteJobRecords (tenantJobs tenantId s)
  by_cases hnone : tenantJobs tenantId s = []
  · have hpurge : purge tenantId .asyncRuntimeContent s = s := by
      simp only [purge, hnone, RuntimeContent.deleteJobRecords]
    simp only [eraseAsyncRuntimeContent, read_bind_apply, hnone, if_true, pure_apply, hpurge]
    exact ⟨0, rfl, trivial, Nat.add_zero _⟩
  · simp only [eraseAsyncRuntimeContent, read_bind_apply, hnone, if_false, modify_bind_apply,
      pure_apply]
    exact ⟨_, rfl, rfl, hrows⟩

theorem eraseArtifactContent_eq :
    ∃ erased, (eraseArtifactContent tenantId s).result =
        .ok (erased, unattributable s .artifactContent) ∧
      (eraseArtifactContent tenantId s).final = purge tenantId .artifactContent s ∧
      familyRows (purge tenantId .artifactContent s) .artifactContent + erased =
        familyRows s .artifactContent := by
  have hrows := s.artifacts.records.length_delete ((tenantArtifacts tenantId s).map artifactKey)
  by_cases hnone : tenantArtifacts tenantId s = []
  · have hpurge : purge tenantId .artifactContent s = s := by
      simp [purge, hnone, deleteArtifactsWithPayloads, ArtifactStore.deleteArtifacts]
    simp only [eraseArtifactContent, read_bind_apply, hnone, if_true, pure_apply, hpurge]
    exact ⟨0, rfl, trivial, Nat.add_zero _⟩
  · obtain ⟨hresult, hfinal⟩ := eraseObjects_eq (tenantArtifacts tenantId s) s
    simp only [eraseArtifactContent, read_bind_apply, hnone, if_false, bind_of_ok hresult,
      modify_bind_apply, pure_apply, hfinal]
    refine ⟨(deleteArtifactsWithPayloads (tenantArtifacts tenantId s) s.artifacts).1, rfl, rfl, ?_⟩
    simp only [familyRows, purge, deleteArtifactsWithPayloads, ArtifactStore.deleteArtifacts,
      records_deleteObjects]
    exact hrows

end Content

/-- The rows that an executor takes. -/
def erasedRows (tenantId : String) (executor : ErasureExecutor) (s : DataStores) : ℕ :=
  familyRows s executor - familyRows (purge tenantId executor s) executor

namespace Environment

variable (env : Environment) (tenantId : String) (executor : ErasureExecutor) (s : DataStores)

theorem exists_erase_eq :
    ∃ erased, (env.erase executor tenantId s).result = .ok (erased, unattributable s executor) ∧
      (env.erase executor tenantId s).final = purge tenantId executor s ∧
      familyRows (purge tenantId executor s) executor + erased = familyRows s executor := by
  cases executor with
  | auditEvidence =>
    have hrounds : (tenantRows tenantId .auditRecords s).length <
        (s.tables .auditRecords).list.length + 1 := by
      rw [tenantRows, length_map]
      exact Nat.lt_succ_of_le (length_filter_le ..)
    obtain ⟨erased, hresult, hfinal, hrows⟩ := env.eraseAuditRounds_eq tenantId hrounds
    simp only [erase, eraseAuditEvidence, bind_of_ok hresult, pure_apply]
    refine ⟨erased, rfl, hfinal, ?_⟩
    simpa [familyRows, purge, handler, tables] using hrows
  | workflowRunRecords =>
    obtain ⟨erased, hresult, hfinal, hrows⟩ := env.eraseTables_eq tenantId
      workflowRunRecords.tables (by decide) (nodup_tables _) s
    simp only [erase, eraseWorkflowRunRecords, bind_of_ok hresult, pure_apply]
    exact ⟨erased, rfl, hfinal, hrows⟩
  | asyncRuntimeContent => exact eraseAsyncRuntimeContent_eq tenantId s
  | artifactContent => exact eraseArtifactContent_eq tenantId s

/-- An executor ends, has purged its family of the tenant, and returns the number of rows that are
gone. -/
theorem erase_eq :
    (env.erase executor tenantId s).result =
        .ok (erasedRows tenantId executor s, unattributable s executor) ∧
      (env.erase executor tenantId s).final = purge tenantId executor s := by
  obtain ⟨erased, hresult, hfinal, hrows⟩ := env.exists_erase_eq tenantId executor s
  have herased : erasedRows tenantId executor s = erased := by
    unfold erasedRows
    omega
  exact ⟨herased ▸ hresult, hfinal⟩

include env in
theorem familyRows_purge :
    familyRows (purge tenantId executor s) executor + erasedRows tenantId executor s =
      familyRows s executor := by
  obtain ⟨erased, -, -, hrows⟩ := env.exists_erase_eq tenantId executor s
  unfold erasedRows
  omega

end Environment

/-! ### What an executor leaves alone -/

/-- A view of the stores that shows nothing of a family. -/
structure Unseen {γ : Type} (executor : ErasureExecutor) (π : DataStores → γ) : Prop where
  tables : ∀ t ∈ executor.handler.tables, ∀ s ids, π (DataStores.removeRows s t ids) = π s
  runtime : executor = .asyncRuntimeContent →
    ∀ (s : DataStores) content, π { s with asyncRuntime := content } = π s
  artifacts : executor = .artifactContent →
    ∀ (s : DataStores) content, π { s with artifacts := content } = π s

section Unseen

variable {γ : Type} {π : DataStores → γ} {executor : ErasureExecutor} (env : Environment)
  (tenantId : String)

theorem keeps_eraseAuditRounds
    (h : ∀ s ids, π (DataStores.removeRows s .auditRecords ids) = π s) (rounds : ℕ) :
    (env.eraseAuditRounds tenantId rounds).Keeps π := by
  induction rounds with
  | zero => exact keeps_pure 0
  | succ rounds ih =>
    refine (keeps_read _).bind fun records => ?_
    split_ifs
    · exact keeps_pure 0
    · exact (keeps_modify fun s => h s _).bind fun _ => ih.bind fun _ => keeps_pure _

theorem keeps_eraseTables
    (h : ∀ t ∈ ts, ∀ s ids, π (DataStores.removeRows s t ids) = π s) :
    (env.eraseTables tenantId ts).Keeps π := by
  induction ts with
  | nil => exact keeps_pure 0
  | cons t rest ih =>
    have htable : (env.eraseTable tenantId t).Keeps π := by
      refine (keeps_read _).bind fun rows => ?_
      dsimp only
      split_ifs
      · exact keeps_pure 0
      · exact keeps_modify fun s => h t (.head _) s _
    have hrest := ih fun t' ht' => h t' (.tail _ ht')
    exact htable.bind fun _ => hrest.bind fun _ => keeps_pure _

theorem keeps_eraseObjects (h : ∀ (s : DataStores) content, π { s with artifacts := content } = π s)
    (records : List ArtifactRecord) : (eraseObjects records).Keeps π := by
  induction records with
  | nil => exact keeps_pure ()
  | cons record rest ih => exact (keeps_modify fun s => h s _).bind fun _ => ih

/-- Whatever an executor is doing, a view that does not show its family stays. -/
theorem Environment.keeps_erase (h : Unseen executor π) :
    (env.erase executor tenantId).Keeps π := by
  cases executor with
  | auditEvidence =>
    have haudit := h.tables .auditRecords (.head _)
    intro s mid hmid
    exact ((keeps_eraseAuditRounds env tenantId haudit _).bind fun _ => keeps_pure _) s mid hmid
  | workflowRunRecords =>
    exact (keeps_eraseTables env tenantId h.tables).bind fun _ => keeps_pure _
  | asyncRuntimeContent =>
    refine (keeps_read _).bind fun listed => ?_
    split_ifs
    · exact keeps_pure _
    · exact (keeps_modify fun s => h.runtime rfl s _).bind fun _ => keeps_pure _
  | artifactContent =>
    refine (keeps_read _).bind fun listed => ?_
    split_ifs
    · exact keeps_pure _
    · refine (keeps_eraseObjects (h.artifacts rfl) _).bind fun _ => ?_
      exact (keeps_modify fun s => h.artifacts rfl s _).bind fun _ => keeps_pure _

theorem Unseen.prod {δ : Type} {ρ : DataStores → δ} (hπ : Unseen executor π)
    (hρ : Unseen executor ρ) : Unseen executor fun s => (π s, ρ s) where
  tables t ht s ids := by rw [hπ.tables t ht, hρ.tables t ht]
  runtime h s content := by rw [hπ.runtime h, hρ.runtime h]
  artifacts h s content := by rw [hπ.artifacts h, hρ.artifacts h]

theorem Unseen.purge (h : Unseen executor π) (env : Environment) (tenantId : String)
    (s : DataStores) : π (purge tenantId executor s) = π s := by
  rw [← (env.erase_eq tenantId executor s).2]
  exact (env.keeps_erase tenantId h).final s

end Unseen

/-! ### A round -/

namespace Environment

variable (env : Environment) (adapter : Budget.Adapter) (policyVersion : String)
  (pass : ErasurePass) (executor : ErasureExecutor) (s : DataStores)

/-- The event that is stored for a family, whether it is listed or not. -/
def storedEvent (actionId : String) (executor : ErasureExecutor) (s : DataStores) :
    Option DataLifecycleEvent :=
  (s.tables .lifecycleEvents).get? (env.familyErasureEventId actionId executor.familyId)

/-- The count that a round reports. -/
def reported : ℕ :=
  max (erasedRows pass.tenantId executor s)
    (eventCount (env.priorEvent pass.record.actionId executor.familyId s))

/-- The database refuses the event of the round. -/
def Refused : Prop :=
  adapter = .sqlalchemy ∧ env.reported pass executor s ≠ 0 ∧
    (env.storedEvent pass.record.actionId executor s).isSome

/-- What a round leaves that is not refused. -/
def afterRound : DataStores :=
  if env.reported pass executor s = 0 then purge pass.tenantId executor s
  else (purge pass.tenantId executor s).saveLifecycleEvent
    (env.erasureEvent policyVersion pass executor.familyId (env.reported pass executor s))

variable {s' : DataStores}

theorem held_of_heldTenants_eq (h : s'.legalHolds = s.legalHolds) (familyId : String) :
    s'.heldTenants familyId = s.heldTenants familyId := by
  simp only [DataStores.heldTenants, DataStores.activeLegalHolds, h]

/-- The executors have neither the events nor the evaluation runs among their tables. -/
theorem not_erased : ∀ t ∈ executor.handler.tables, t ≠ .lifecycleEvents ∧ t ≠ .evaluationRuns := by
  cases executor <;> decide

theorem unseen_tables {t : RetainedTable} (ht : t ∉ executor.handler.tables) :
    Unseen executor fun s => s.tables t where
  tables t' ht' s ids := s.tables_removeRows_of_ne ids (fun hsame => ht (hsame ▸ ht'))
    fun h => absurd h (not_erased executor t' ht').2
  runtime _ _ _ := rfl
  artifacts _ _ _ := rfl

theorem unseen_lifecycleEvents : Unseen executor fun s => s.tables .lifecycleEvents :=
  unseen_tables executor fun h => (not_erased executor _ h).1 rfl

theorem unseen_legalHolds : Unseen executor DataStores.legalHolds where
  tables t _ s ids := s.legalHolds_removeRows t ids
  runtime _ _ _ := rfl
  artifacts _ _ _ := rfl

/-- The rows of one family are not seen from another. -/
theorem unseen_familyRows {executor other : ErasureExecutor} (hne : executor ≠ other) :
    Unseen executor fun s => familyRows s other where
  tables t ht s ids := by
    -- the tables of the other family are other tables
    have htables : other.handler.tables.map (rowsUnder (s.removeRows t ids)) =
        other.handler.tables.map (rowsUnder s) := by
      refine map_congr_left fun t' ht' => rowsUnder_removeRows_of_ne s ids ?_
        (not_erased executor t ht).2
      rintro rfl
      have hhandler := (mem_tables.mp ht).symm.trans (mem_tables.mp ht')
      exact hne (handler_injective hhandler)
    cases other with
    | asyncRuntimeContent => simp only [familyRows, s.asyncRuntime_removeRows]
    | artifactContent => simp only [familyRows, s.artifacts_removeRows]
    | auditEvidence | workflowRunRecords => exact congrArg sum htables
  runtime := by
    rintro rfl s content
    cases other <;> first | rfl | exact absurd rfl hne
  artifacts := by
    rintro rfl s content
    cases other <;> first | rfl | exact absurd rfl hne

theorem priorEvent_congr (h : s'.tables .lifecycleEvents = s.tables .lifecycleEvents)
    (actionId familyId : String) :
    env.priorEvent actionId familyId s' = env.priorEvent actionId familyId s := by
  simp only [priorEvent, listLifecycleEvents, h]

/-- A family under a hold is passed over. -/
theorem eraseFamily_of_held (h : pass.tenantId ∈ s.heldTenants executor.familyId) :
    env.eraseFamily adapter policyVersion pass executor.familyId s =
      ⟨[s], s, .ok { familyId := executor.familyId, erasedCount := 0, held := true }⟩ := by
  simp only [eraseFamily, read_bind_apply, h, if_true, pure_apply]

variable {env adapter pass executor s}

/-- A round on a family that is not held: the executor, the lookup, and the event. -/
theorem eraseFamily_of_not_held (h : pass.tenantId ∉ s.heldTenants executor.familyId) :
    env.eraseFamily adapter policyVersion pass executor.familyId s =
      let recorded := env.recordErasure adapter policyVersion pass executor.familyId
        (env.reported pass executor s) (purge pass.tenantId executor s)
      ⟨s :: ((env.erase executor pass.tenantId s).visited ++
          purge pass.tenantId executor s :: recorded.visited),
        recorded.final,
        recorded.result.map fun _ =>
          { familyId := executor.familyId, erasedCount := env.reported pass executor s,
            held := false, unattributableCount := unattributable s executor }⟩ := by
  obtain ⟨hresult, hfinal⟩ := env.erase_eq pass.tenantId executor s
  have hevents := (unseen_lifecycleEvents executor).purge env pass.tenantId s
  have hprior := env.priorEvent_congr s hevents pass.record.actionId executor.familyId
  simp only [eraseFamily, read_bind_apply, h, if_false, of?_familyId,
    bind_of_ok hresult, hfinal, hprior, bind_pure_apply]
  rfl

variable (h : pass.tenantId ∉ s.heldTenants executor.familyId)

include h

/-- A round that is not refused reports its count. -/
theorem eraseFamily_of_free (hsaved : ¬ env.Refused adapter pass executor s) :
    (env.eraseFamily adapter policyVersion pass executor.familyId s).result =
        .ok { familyId := executor.familyId, erasedCount := env.reported pass executor s,
              held := false, unattributableCount := unattributable s executor } ∧
      (env.eraseFamily adapter policyVersion pass executor.familyId s).final =
        env.afterRound policyVersion pass executor s := by
  have hevents := (unseen_lifecycleEvents executor).purge env pass.tenantId s
  rw [eraseFamily_of_not_held policyVersion h]
  by_cases hzero : env.reported pass executor s = 0
  · simp [recordErasure, afterRound, hzero, Except.map]
  · have hstored : ¬ (adapter = .sqlalchemy ∧ ((s.tables .lifecycleEvents).get?
        (env.familyErasureEventId pass.record.actionId executor.familyId)).isSome) :=
      fun hboth => hsaved ⟨hboth.1, hzero, hboth.2⟩
    simp only [recordErasure, afterRound, hzero, if_false, saveLifecycleEvent, call, hevents,
      erasureEvent, if_neg hstored, Except.map, and_self]

/-- A round that is refused has purged its family, and raises. -/
theorem eraseFamily_of_refused (hrefused : env.Refused adapter pass executor s) :
    (env.eraseFamily adapter policyVersion pass executor.familyId s).result =
        .error (.other "IntegrityError") ∧
      (env.eraseFamily adapter policyVersion pass executor.familyId s).final =
        purge pass.tenantId executor s := by
  have hevents := (unseen_lifecycleEvents executor).purge env pass.tenantId s
  obtain ⟨hsql, hzero, hstored⟩ := hrefused
  have hboth : adapter = .sqlalchemy ∧ ((s.tables .lifecycleEvents).get?
      (env.familyErasureEventId pass.record.actionId executor.familyId)).isSome :=
    ⟨hsql, hstored⟩
  rw [eraseFamily_of_not_held policyVersion h]
  simp only [recordErasure, hzero, if_false, saveLifecycleEvent, call, hevents, erasureEvent,
    if_pos hboth, Except.map, and_self]

end Environment

/-! ### The rounds -/

section Rounds

variable {γ : Type} {π : DataStores → γ} {env : Environment} {adapter : Budget.Adapter}
  {policyVersion : String} {pass : ErasurePass} {executor : ErasureExecutor} {s : DataStores}

/-- A round leaves what neither its family nor its event shows in, at every stop. -/
theorem Unseen.keeps_eraseFamily (h : Unseen executor π) (hevent : ∀ s event,
      event.eventId = env.familyErasureEventId pass.record.actionId executor.familyId →
        π (DataStores.saveLifecycleEvent s event) = π s) :
    (env.eraseFamily adapter policyVersion pass executor.familyId).Keeps π := by
  refine (keeps_read _).bind fun held => ?_
  split_ifs
  · exact keeps_pure _
  · rw [of?_familyId]
    refine (env.keeps_erase pass.tenantId h).bind fun counted => (keeps_read _).bind fun prior => ?_
    refine Keeps.bind ?_ fun _ => keeps_pure _
    unfold recordErasure
    split_ifs
    · exact keeps_pure ()
    · refine keeps_call fun s => ?_
      split_ifs
      · rfl
      · exact hevent s _ rfl

variable {es : List ErasureExecutor} {familyId : String} {rest : List String}
  {results : List DataErasureFamilyResult}

/-- The rounds leave what none of them changes. -/
theorem keeps_rounds (h : ∀ executor ∈ es,
      (env.eraseFamily adapter policyVersion pass executor.familyId).Keeps π) :
    (env.eraseFamilies adapter policyVersion pass (es.map (·.familyId))).Keeps π := by
  induction es with
  | nil => exact keeps_pure []
  | cons executor rest ih =>
    have hrest := ih fun other hother => h other (.tail _ hother)
    exact (h executor (.head _)).bind fun _ => hrest.bind fun _ => keeps_pure _

theorem keeps_eraseFamilies (h : ∀ executor ∈ es, Unseen executor π)
    (hevents : ∀ s event, π (DataStores.saveLifecycleEvent s event) = π s) :
    (env.eraseFamilies adapter policyVersion pass (es.map (·.familyId))).Keeps π :=
  keeps_rounds fun executor hmem =>
    (h executor hmem).keeps_eraseFamily fun s event _ => hevents s event

/-- What a loop that returns has been through. -/
theorem eraseFamilies_cons_eq_ok
    (h : (env.eraseFamilies adapter policyVersion pass (familyId :: rest) s).result = .ok results) :
    ∃ first others, (env.eraseFamily adapter policyVersion pass familyId s).result = .ok first ∧
      (env.eraseFamilies adapter policyVersion pass rest
        (env.eraseFamily adapter policyVersion pass familyId s).final).result = .ok others ∧
      results = first :: others ∧
      (env.eraseFamilies adapter policyVersion pass (familyId :: rest) s).final =
        (env.eraseFamilies adapter policyVersion pass rest
          (env.eraseFamily adapter policyVersion pass familyId s).final).final := by
  rw [eraseFamilies] at h ⊢
  cases hfirst : (env.eraseFamily adapter policyVersion pass familyId s).result with
  | error e =>
    rw [bind_of_error hfirst] at h
    cases h
  | ok first =>
    rw [bind_of_ok hfirst, bind_pure_apply] at h ⊢
    cases hothers : (env.eraseFamilies adapter policyVersion pass rest
        (env.eraseFamily adapter policyVersion pass familyId s).final).result with
    | error e =>
      rw [hothers] at h
      cases h
    | ok others =>
      rw [hothers] at h
      cases h
      exact ⟨first, others, rfl, rfl, rfl, rfl⟩

theorem eraseFamilies_cons_of_ok {first : DataErasureFamilyResult}
    {others : List DataErasureFamilyResult}
    (hfirst : (env.eraseFamily adapter policyVersion pass familyId s).result = .ok first)
    (hothers : (env.eraseFamilies adapter policyVersion pass rest
      (env.eraseFamily adapter policyVersion pass familyId s).final).result = .ok others) :
    (env.eraseFamilies adapter policyVersion pass (familyId :: rest) s).result =
      .ok (first :: others) := by
  rw [eraseFamilies, bind_of_ok hfirst, bind_pure_apply, hothers]
  rfl

/-- A round that returns, on a family that is not held, was not refused. -/
theorem final_eraseFamily_of_ok (h : pass.tenantId ∉ s.heldTenants executor.familyId)
    {result : DataErasureFamilyResult}
    (hok : (env.eraseFamily adapter policyVersion pass executor.familyId s).result = .ok result) :
    ¬ env.Refused adapter pass executor s ∧
      (env.eraseFamily adapter policyVersion pass executor.familyId s).final =
        env.afterRound policyVersion pass executor s := by
  by_cases hrefused : env.Refused adapter pass executor s
  · rw [(eraseFamily_of_refused policyVersion h hrefused).1] at hok
    cases hok
  · exact ⟨hrefused, (eraseFamily_of_free policyVersion h hrefused).2⟩

/-- The callback makes of a view of one family what the executor of this family makes of it, and
nothing where the family is held. -/
theorem view_eraseFamilies (hnodup : es.Nodup)
    (hother : ∀ other ∈ es, other ≠ executor → Unseen other π)
    (hevents : ∀ s event, π (DataStores.saveLifecycleEvent s event) = π s)
    (hcongr : ∀ s s', π s = π s' →
      π (purge pass.tenantId executor s) = π (purge pass.tenantId executor s'))
    (hok : (env.eraseFamilies adapter policyVersion pass (es.map (·.familyId)) s).result =
      .ok results) :
    π (env.eraseFamilies adapter policyVersion pass (es.map (·.familyId)) s).final =
      if executor ∈ es ∧ pass.tenantId ∉ s.heldTenants executor.familyId then
        π (purge pass.tenantId executor s)
      else π s := by
  induction es generalizing s results with
  | nil => rfl
  | cons first rest ih =>
    obtain ⟨hnot, hrest⟩ := nodup_cons.mp hnodup
    obtain ⟨firstResult, others, hfirst, hothers, -, hfinal⟩ := eraseFamilies_cons_eq_ok hok
    have hafter := ih hrest (fun other h => hother other (.tail _ h)) hothers
    have hholds : (env.eraseFamily adapter policyVersion pass first.familyId s).final.heldTenants
        executor.familyId = s.heldTenants executor.familyId :=
      held_of_heldTenants_eq s
        (((unseen_legalHolds first).keeps_eraseFamily fun _ _ _ => rfl).final s) _
    rw [map_cons, hfinal, hafter, hholds]
    by_cases hsame : first = executor
    · -- its own round; the rounds after it do not show
      subst hsame
      rw [if_neg fun h => hnot h.1]
      by_cases hheld : pass.tenantId ∈ s.heldTenants first.familyId
      · rw [eraseFamily_of_held env adapter policyVersion pass first s hheld,
          if_neg fun h => h.2 hheld]
      · rw [if_pos ⟨mem_cons_self, hheld⟩, (final_eraseFamily_of_ok hheld hfirst).2,
          afterRound]
        split_ifs
        · rfl
        · exact hevents ..
    · have hround : π (env.eraseFamily adapter policyVersion pass first.familyId s).final = π s :=
        ((hother first (.head _) hsame).keeps_eraseFamily fun s event _ =>
          hevents s event).final s
      simp only [mem_cons, Ne.symm hsame, false_or]
      rw [hround, hcongr _ _ hround]

end Rounds

end LotusAI.Lifecycle
