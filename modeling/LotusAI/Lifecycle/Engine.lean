import LotusAI.Lifecycle.Stores

/-!
# The lifecycle engine

`run_data_lifecycle` goes through the families of the policy. Each enforced family has a handler
that lists its tables, picks the rows that are past retention, and deletes them; a deletion that
is not empty is written down as an event. The listings of most tables stop after a number of rows.
-/

namespace LotusAI.Lifecycle

open Lib FamilyHandler Table

/-- `_CANDIDATE_BATCH_LIMIT`. -/
def candidateBatchLimit : ℕ := 5000

/-- What a run finds around it: the reader and writer of instants, the digest, and the order in
which each table is listed. An instant that is written is not read as an earlier one. -/
structure Environment where
  iso : IsoFormat
  isoformat : ℤ → String
  notBefore : ∀ instant, iso.readsBefore (isoformat instant) instant = false
  sha256 : String → String
  listing : (t : RetainedTable) → Listing t.Row

/-- What a handler measures rows against. -/
structure Horizon where
  cutoff : ℤ
  minimisedCutoff : ℤ
  held : List String

/-- A number of days, in microseconds. -/
def days (n : ℕ) : ℤ := n * 86400000000

/-- The row is attributed to a tenant under a hold. -/
def Horizon.isHeld (horizon : Horizon) : Option String → Bool
  | some tenantId => tenantId ∈ horizon.held
  | none => false

/-! ### Tables -/

namespace RetainedTable

/-- The name of a table. -/
def value : RetainedTable → String
  | auditRecords => "audit_records"
  | evidence table => table.value
  | lifecycleEvents => "data_lifecycle_events"
  | attemptDebits => "provider_attempt_debits"
  | governedActions => "provider_governed_actions"
  | killSwitches => "kill_switch_activations"
  | confirmations => "provider_retention_confirmations"
  | runs => "workflow_pack_runs"
  | taskFlows => "workflow_pack_task_flows"
  | queueEvents => "workflow_pack_queue_events"
  | idempotencyRecords => "workflow_pack_execution_idempotency"
  | evaluationRuns => "evaluation_runs"
  | caseResults => "evaluation_case_results"
  | documentVersions => "retrieval_document_versions"
  | ingestionJobs => "retrieval_ingestion_jobs"
  | admissionLeases => "workflow_pack_admission_leases"

/-- The limit with which a handler lists a table. -/
def limit : RetainedTable → Option ℕ
  | killSwitches | taskFlows | evaluationRuns | documentVersions | ingestionJobs
  | admissionLeases => none
  | auditRecords | evidence _ | lifecycleEvents | attemptDebits | governedActions | confirmations
  | runs | queueEvents | idempotencyRecords | caseResults => some candidateBatchLimit

/-- The rows that the handler of a table picks. -/
def isDue (iso : IsoFormat) (horizon : Horizon) : (t : RetainedTable) → t.Row → Bool
  | auditRecords, row =>
    iso.readsBefore row.generatedAt horizon.cutoff && !horizon.isHeld row.tenantId
  | evidence _, row => iso.readsBefore row.instant horizon.cutoff
  | lifecycleEvents, row => iso.readsBefore row.recordedAt horizon.cutoff
  -- whatever the debit rests on
  | attemptDebits, row => iso.readsBefore row.recordedAt horizon.cutoff
  | governedActions, row =>
    row.status ≠ .pending && iso.readsBefore row.requestedAt horizon.cutoff
  | killSwitches, row =>
    (row.clearedAt.isSome || row.expiryRecordedAt.isSome) &&
      iso.readsBefore row.activatedAt horizon.cutoff
  -- the tenant is not looked at
  | confirmations, row => iso.readsBefore row.issuedAtUtc horizon.cutoff
  | runs, row => iso.readsBefore row.createdAt horizon.cutoff && !horizon.isHeld row.tenantId
  | taskFlows, row => iso.readsBefore row.createdAt horizon.cutoff && !horizon.isHeld row.tenantId
  | queueEvents, row =>
    iso.readsBefore row.recordedAt horizon.cutoff && !horizon.isHeld row.tenantId
  | idempotencyRecords, row =>
    iso.readsBefore row.createdAt horizon.cutoff && !horizon.isHeld (some row.tenantScope)
  | evaluationRuns, row => iso.readsBefore row.submittedAt horizon.cutoff
  | caseResults, row =>
    iso.readsBefore row.recordedAt horizon.cutoff ||
      (row.outcome = "PASS" && iso.readsBefore row.recordedAt horizon.minimisedCutoff)
  | documentVersions, row =>
    row.lifecycleStatus = "SUPERSEDED" && iso.readsBefore row.createdAt horizon.cutoff
  | ingestionJobs, row => iso.readsBefore row.requestedAt horizon.cutoff
  | admissionLeases, row => iso.readsBefore row.admittedAt horizon.cutoff

/-- The handler that sweeps a table. -/
def handler : RetainedTable → FamilyHandler
  | auditRecords => .auditEvidence
  | evidence _ | lifecycleEvents | attemptDebits | governedActions | killSwitches
  | confirmations => .controlPlaneEvidence
  | runs | taskFlows | queueEvents | idempotencyRecords => .workflowRunRecords
  | evaluationRuns => .evaluationApprovalEvidence
  | caseResults => .evaluationCaseContent
  | documentVersions | ingestionJobs => .retrievalSharedReference
  | admissionLeases => .transientOperationalLeases

end RetainedTable

/-- The plain tables of a family, in the order in which its handler takes them. -/
def FamilyHandler.tables : FamilyHandler → List RetainedTable
  | auditEvidence => [.auditRecords]
  | controlPlaneEvidence =>
    [.evidence .auditAccessEvents, .lifecycleEvents, .evidence .providerOperationsEvents,
      .attemptDebits, .evidence .capabilityEvidenceRecords, .governedActions,
      .evidence .promptRolloutEvents, .evidence .asyncControlEvents, .killSwitches,
      .evidence .workflowPackControlEvents, .evidence .modelCatalogueLifecycleEvents,
      .evidence .modelRevisionDriftObservations, .confirmations]
  | workflowRunRecords => [.runs, .taskFlows, .queueEvents, .idempotencyRecords]
  | artifactContent => []
  | evaluationApprovalEvidence => [.evaluationRuns]
  | evaluationCaseContent => [.caseResults]
  | retrievalSharedReference => [.documentVersions, .ingestionJobs]
  | asyncRuntimeContent => []
  | transientOperationalLeases => [.admissionLeases]

theorem FamilyHandler.nodup_tables (h : FamilyHandler) : h.tables.Nodup := by
  cases h <;> decide

variable {h : FamilyHandler}

theorem FamilyHandler.mem_tables {t : RetainedTable} :
    t ∈ h.tables ↔ t.handler = h := by
  cases t with
  | evidence table => cases h <;> cases table <;> decide
  | _ => cases h <;> decide

/-! ### Handlers -/

/-- What a handler returns, and what it leaves. -/
structure Outcome where
  deletedIds : List String
  detail : String
  stores : DataStores

/-- A handler under way: the ids and notes so far. -/
structure Batch where
  deletedIds : List String
  details : List String
  stores : DataStores

/-- An id with its table before it. -/
def RetainedTable.label (t : RetainedTable) (id : String) : String := s!"{t.value}:{id}"

/-- The notes, joined. -/
def Batch.detail (batch : Batch) : String :=
  if batch.details = [] then "nothing past retention" else "; ".intercalate batch.details

/-- A terminal job past retention. -/
def jobIsDue (iso : IsoFormat) (horizon : Horizon) (job : AsyncRuntime.JobRecord) : Bool :=
  job.lifecycleStatus ∈ [.completed, .failed, .abandoned, .superseded] &&
    iso.readsBefore job.submittedAt horizon.cutoff

/-- A worker's lease that was claimed before the cutoff, whatever has become of it since. -/
def leaseIsDue (iso : IsoFormat) (horizon : Horizon) (lease : AsyncRuntime.LeaseRecord) : Bool :=
  iso.readsBefore lease.claimedAt horizon.cutoff

/-- An artifact past retention that is not retained for review. -/
def artifactIsDue (iso : IsoFormat) (horizon : Horizon) (record : Artifacts.ArtifactRecord) :
    Bool :=
  iso.readsBefore record.createdAt horizon.cutoff &&
    record.retentionPosture ≠ "retained_for_review"

namespace Environment

variable (env : Environment) (horizon : Horizon)

/-- The query with which a handler lists a table. -/
def scan (t : RetainedTable) : Scan t.Row := ⟨env.listing t, t.limit⟩

/-- The keys of the listed rows that are past retention. -/
def expired (t : RetainedTable) (s : DataStores) : List String :=
  ((env.scan t).due (t.isDue env.iso horizon) (s.tables t)).map t.key

/-- Delete them. -/
def sweepTable (t : RetainedTable) (s : DataStores) : DataStores :=
  s.removeRows t (env.expired horizon t s)

/-- `_expire` for one table; `note` tells the number of rows and of their dependents. -/
def expireTable (note : RetainedTable → ℕ → ℕ → String) (batch : Batch) (t : RetainedTable) :
    Batch :=
  let expired := env.expired horizon t batch.stores
  { deletedIds := batch.deletedIds ++ expired.map t.label
    details :=
      if expired = [] then batch.details
      else batch.details ++ [note t ((batch.stores.tables t).countOf expired)
        (batch.stores.dependents expired t).1]
    stores := env.sweepTable horizon t batch.stores }

/-- Go through the tables of a family. -/
def expireTables (note : RetainedTable → ℕ → ℕ → String) (h : FamilyHandler) (s : DataStores) :
    Batch :=
  h.tables.foldl (env.expireTable horizon note) ⟨[], [], s⟩

/-- `_expire_audit_evidence`. -/
def expireAuditEvidence (s : DataStores) : Outcome :=
  let expired := env.expired horizon .auditRecords s
  let deleted := (s.tables .auditRecords).countOf expired
  let heldCount := ((env.scan .auditRecords).window (s.tables .auditRecords).list).countP
    fun record => env.iso.readsBefore record.generatedAt horizon.cutoff &&
      horizon.isHeld record.tenantId
  { deletedIds := expired
    detail := s!"expired {deleted} audit records; {heldCount} past-retention rows kept under " ++
      "legal hold"
    stores := env.sweepTable horizon .auditRecords s }

/-- `_expire_async_runtime_content`. The holds are not looked at. -/
def expireAsyncRuntimeContent (s : DataStores) : Outcome :=
  let expiredJobIds := (Scan.all.due (jobIsDue env.iso horizon) s.asyncRuntime.jobs).map
    (·.jobId)
  let out := s.asyncRuntime.deleteJobRecords expiredJobIds
  let jobs := out.1.1
  let attempts := out.1.2.1
  let leases := out.1.2.2
  { deletedIds := expiredJobIds
    detail := s!"expired {jobs} terminal jobs with {attempts} attempts and {leases} leases; " ++
      "in-flight jobs are never expired"
    stores := { s with asyncRuntime := out.2 } }

/-- `_expire_transient_leases`. -/
def expireTransientLeases (s : DataStores) : Outcome :=
  let out := s.asyncRuntime.deleteLeases
    ((Scan.all.due (leaseIsDue env.iso horizon) s.asyncRuntime.leases).map (·.leaseId))
  let expired := env.expired horizon .admissionLeases s
  let workerDeleted := out.1.length
  let admissionDeleted := expired.length
  { deletedIds := out.1 ++ expired
    detail := s!"expired {workerDeleted} worker leases and {admissionDeleted} admission leases"
    stores := env.sweepTable horizon .admissionLeases { s with asyncRuntime := out.2 } }

/-- `_expire_control_plane_evidence`. -/
def expireControlPlaneEvidence (s : DataStores) : Outcome :=
  let note := fun (t : RetainedTable) (count _ : ℕ) => let table := t.value; s!"{table}={count}"
  let batch := env.expireTables horizon note .controlPlaneEvidence s
  let detail := batch.detail
  { deletedIds := batch.deletedIds
    detail := s!"expired control-plane evidence ({detail}); enforcing switches, pending " ++
      "governed actions and recently-observed drift are never expired"
    stores := batch.stores }

/-- What `_expire_workflow_run_records` notes of a table. -/
def workflowNote : RetainedTable → ℕ → ℕ → String
  | .runs, count, dependents => s!"runs={count} run_events={dependents}"
  | .taskFlows, count, dependents => s!"task_flows={count} checkpoints={dependents}"
  | .queueEvents, count, _ => s!"queue_events={count}"
  | _, count, _ => s!"idempotency={count}"

/-- `_expire_workflow_run_records`. -/
def expireWorkflowRunRecords (s : DataStores) : Outcome :=
  let batch := env.expireTables horizon workflowNote .workflowRunRecords s
  let detail := batch.detail
  { deletedIds := batch.deletedIds
    detail := s!"expired workflow run records ({detail}); held tenants and cascading " ++
      "children of held runs are untouched"
    stores := batch.stores }

/-- `_expire_artifact_content`. The holds are not looked at. -/
def expireArtifactContent (s : DataStores) : Outcome :=
  let expired := Scan.all.due (artifactIsDue env.iso horizon) s.artifacts.records
  let out := Artifacts.deleteArtifactsWithPayloads expired s.artifacts
  let count := out.1
  { deletedIds := expired.map fun record => "artifact_metadata:" ++ record.artifactId
    detail := s!"expired {count} artifact rows with their payload objects; " ++
      "retained_for_review rows are never expired"
    stores := { s with artifacts := out.2 } }

/-- `_expire_evaluation_approval_evidence`. -/
def expireEvaluationApprovalEvidence (s : DataStores) : Outcome :=
  let expired := env.expired horizon .evaluationRuns s
  let runs := (s.tables .evaluationRuns).countOf expired
  let attempts := (s.dependents expired .evaluationRuns).1
  let cases := (s.dependents expired .evaluationRuns).2
  { deletedIds := expired.map (RetainedTable.label .evaluationRuns)
    detail := s!"expired {runs} evaluation runs with {attempts} attempts and {cases} case rows"
    stores := env.sweepTable horizon .evaluationRuns s }

/-- `_expire_evaluation_case_content`. -/
def expireEvaluationCaseContent (s : DataStores) : Outcome :=
  let due := (env.scan .caseResults).due (RetainedTable.isDue env.iso horizon .caseResults)
    (s.tables .caseResults)
  let expired := env.expired horizon .caseResults s
  let count := (s.tables .caseResults).countOf expired
  let minimised := due.countP fun row => !env.iso.readsBefore row.recordedAt horizon.cutoff
  { deletedIds := expired.map (RetainedTable.label .caseResults)
    detail := s!"expired {count} evaluation case rows ({minimised} passing cases at the " ++
      "minimised horizon); run verdicts remain with the approval evidence family"
    stores := env.sweepTable horizon .caseResults s }

/-- `_expire_retrieval_reference_history`. -/
def expireRetrievalReferenceHistory (s : DataStores) : Outcome :=
  let expiredVersions := env.expired horizon .documentVersions s
  let versionCount := (s.tables .documentVersions).countOf expiredVersions
  let left := env.sweepTable horizon .documentVersions s
  let expiredJobs := env.expired horizon .ingestionJobs left
  let jobCount := (left.tables .ingestionJobs).countOf expiredJobs
  { deletedIds := expiredVersions.map (RetainedTable.label .documentVersions) ++
      expiredJobs.map (RetainedTable.label .ingestionJobs)
    detail := s!"expired {versionCount} superseded document versions and {jobCount} ingestion " ++
      "jobs; current versions are live reference state and never expired"
    stores := env.sweepTable horizon .ingestionJobs left }

/-- `_ENFORCED_FAMILY_HANDLERS`. -/
def expire : FamilyHandler → DataStores → Outcome
  | .auditEvidence => env.expireAuditEvidence horizon
  | .controlPlaneEvidence => env.expireControlPlaneEvidence horizon
  | .workflowRunRecords => env.expireWorkflowRunRecords horizon
  | .artifactContent => env.expireArtifactContent horizon
  | .evaluationApprovalEvidence => env.expireEvaluationApprovalEvidence horizon
  | .evaluationCaseContent => env.expireEvaluationCaseContent horizon
  | .retrievalSharedReference => env.expireRetrievalReferenceHistory horizon
  | .asyncRuntimeContent => env.expireAsyncRuntimeContent horizon
  | .transientOperationalLeases => env.expireTransientLeases horizon

end Environment

/-! ### What a handler does -/

namespace Environment

variable (env : Environment) (horizon : Horizon) (s : DataStores)

/-- Sweep some tables, one after the other. -/
def sweepTables (ts : List RetainedTable) (s : DataStores) : DataStores :=
  ts.foldl (fun s t => env.sweepTable horizon t s) s

/-- What a handler does outside the plain tables. -/
def sweepContent : FamilyHandler → DataStores
  | .artifactContent =>
    { s with artifacts := (Artifacts.deleteArtifactsWithPayloads
        (Scan.all.due (artifactIsDue env.iso horizon) s.artifacts.records) s.artifacts).2 }
  | .asyncRuntimeContent =>
    { s with asyncRuntime := (s.asyncRuntime.deleteJobRecords
        ((Scan.all.due (jobIsDue env.iso horizon) s.asyncRuntime.jobs).map (·.jobId))).2 }
  | .transientOperationalLeases =>
    { s with asyncRuntime := (s.asyncRuntime.deleteLeases
        ((Scan.all.due (leaseIsDue env.iso horizon) s.asyncRuntime.leases).map (·.leaseId))).2 }
  | _ => s

theorem stores_foldl_expireTable (note : RetainedTable → ℕ → ℕ → String)
    (ts : List RetainedTable) (batch : Batch) :
    (ts.foldl (env.expireTable horizon note) batch).stores =
      env.sweepTables horizon ts batch.stores := by
  induction ts generalizing batch with
  | nil => rfl
  | cons t rest ih => exact ih _

/-- A handler deals with its content, then with its tables. -/
theorem stores_expire (h : FamilyHandler) :
    (env.expire horizon h s).stores =
      env.sweepTables horizon h.tables (env.sweepContent horizon s h) := by
  cases h with
  | controlPlaneEvidence | workflowRunRecords => exact env.stores_foldl_expireTable horizon ..
  | _ => rfl

/-! ### Tables -/

variable {t : RetainedTable} {ts : List RetainedTable}

variable {s} in
theorem expired_congr {s' : DataStores} (h : s.tables t = s'.tables t) :
    env.expired horizon t s = env.expired horizon t s' := by
  rw [expired, h, expired]

theorem tables_sweepTable (t : RetainedTable) :
    (env.sweepTable horizon t s).tables t =
      (s.tables t).sweep (env.scan t) (t.isDue env.iso horizon) :=
  s.tables_removeRows t _

/-- A table that the sweep of another one leaves alone. -/
def Apart (t t' : RetainedTable) : Prop := t' ≠ t ∧ (t = .evaluationRuns → t' ≠ .caseResults)

theorem tables_sweepTable_of_apart {t' : RetainedTable} (h : Apart t t') :
    (env.sweepTable horizon t s).tables t' = s.tables t' :=
  s.tables_removeRows_of_ne _ h.1 h.2

theorem tables_sweepTables_of_apart (h : ∀ swept ∈ ts, Apart swept t) :
    (env.sweepTables horizon ts s).tables t = s.tables t := by
  induction ts generalizing s with
  | nil => rfl
  | cons swept rest ih =>
    have hrest := ih (env.sweepTable horizon swept s) fun other hother =>
      h other (.tail _ hother)
    exact hrest.trans (env.tables_sweepTable_of_apart horizon s (h swept (.head _)))

/-- Each table that is apart from the others is swept as it was found. -/
theorem tables_sweepTables_of_mem (hnodup : ts.Nodup) (hmem : t ∈ ts)
    (hapart : ∀ swept ∈ ts, swept ≠ t → Apart swept t) :
    (env.sweepTables horizon ts s).tables t =
      (s.tables t).sweep (env.scan t) (t.isDue env.iso horizon) := by
  induction ts generalizing s with
  | nil => cases hmem
  | cons swept rest ih =>
    obtain ⟨hnot, hrestnodup⟩ := List.nodup_cons.mp hnodup
    by_cases hswept : swept = t
    · -- its turn: the tables after it are apart
      subst hswept
      have hafter := env.tables_sweepTables_of_apart horizon (env.sweepTable horizon swept s)
        fun other hother => hapart other (.tail _ hother) fun heq =>
          hnot (heq ▸ hother)
      exact hafter.trans (env.tables_sweepTable horizon s swept)
    · have hrest : t ∈ rest := (List.mem_cons.mp hmem).resolve_left (Ne.symm hswept)
      have hfound := env.tables_sweepTable_of_apart horizon s (hapart swept (.head _) hswept)
      have hswept' := ih (env.sweepTable horizon swept s) hrestnodup hrest
        fun other hother => hapart other (.tail _ hother)
      rw [hfound] at hswept'
      exact hswept'

theorem tables_sweepContent (h : FamilyHandler) (t : RetainedTable) :
    (env.sweepContent horizon s h).tables t = s.tables t := by
  cases h <;> rfl

theorem apart_of_mem_tables {swept : RetainedTable} (hswept : swept ∈ h.tables)
    (hne : swept ≠ t) (hcases : h = .evaluationApprovalEvidence → t ≠ .caseResults) :
    Apart swept t := by
  refine ⟨Ne.symm hne, fun hruns => hcases ?_⟩
  rw [← mem_tables.mp hswept, hruns]
  rfl

/-- A handler sweeps the tables of its family. -/
theorem tables_expire (t : RetainedTable) :
    (env.expire horizon t.handler s).stores.tables t =
      (s.tables t).sweep (env.scan t) (t.isDue env.iso horizon) := by
  have hcases : t.handler = .evaluationApprovalEvidence → t ≠ .caseResults := by
    rintro hhandler rfl
    cases hhandler
  rw [stores_expire, env.tables_sweepTables_of_mem horizon _ t.handler.nodup_tables
    (mem_tables.mpr rfl) fun swept hswept hne =>
      apart_of_mem_tables hswept hne hcases, tables_sweepContent]

/-- The tables of other families it leaves, but for the cases of the evaluation runs it deletes. -/
theorem tables_expire_of_ne (hne : t.handler ≠ h)
    (hcases : h = .evaluationApprovalEvidence → t ≠ .caseResults) :
    (env.expire horizon h s).stores.tables t = s.tables t := by
  have hapart : ∀ swept ∈ h.tables, Apart swept t := by
    intro swept hswept
    refine apart_of_mem_tables hswept ?_ hcases
    rintro rfl
    exact hne (mem_tables.mp hswept)
  rw [stores_expire, env.tables_sweepTables_of_apart horizon _ hapart, tables_sweepContent]

/-- The cases of the evaluation runs that are deleted go with them. -/
theorem caseResults_expire :
    (env.expire horizon .evaluationApprovalEvidence s).stores.tables .caseResults =
      (s.tables .caseResults).deleteWhere fun row =>
        row.runId ∈ env.expired horizon .evaluationRuns s :=
  s.caseResults_removeRows _

/-- A handler adds no row to a table. -/
theorem sublist_expire (h : FamilyHandler) (t : RetainedTable) :
    ((env.expire horizon h s).stores.tables t).list.Sublist (s.tables t).list := by
  by_cases hhandler : t.handler = h
  · subst hhandler
    rw [tables_expire]
    exact sublist_delete ..
  · by_cases hcases : h = .evaluationApprovalEvidence ∧ t = .caseResults
    · obtain ⟨rfl, rfl⟩ := hcases
      exact sublist_delete ..
    · rw [env.tables_expire_of_ne _ _ hhandler fun hh ht => hcases ⟨hh, ht⟩]

theorem mem_of_mem_expire {row : t.Row}
    (hrow : row ∈ (env.expire horizon h s).stores.tables t) : row ∈ s.tables t :=
  mem_list.mp ((env.sublist_expire horizon s h t).subset (mem_list.mpr hrow))

/-! ### The other stores -/

/-- What no sweep of a table changes. -/
theorem sweepTables_keeps {α : Type} {π : DataStores → α}
    (h : ∀ t ∈ ts, ∀ ids s, π (DataStores.removeRows s t ids) = π s) :
    π (env.sweepTables horizon ts s) = π s := by
  induction ts generalizing s with
  | nil => rfl
  | cons t rest ih =>
    have hrest := ih (env.sweepTable horizon t s) fun other hother =>
      h other (.tail _ hother)
    exact hrest.trans (h t (.head _) _ s)

section

variable (h : FamilyHandler)

@[simp] theorem legalHolds_expire :
    (env.expire horizon h s).stores.legalHolds = s.legalHolds := by
  cases h <;> rfl

theorem artifacts_expire :
    (env.expire horizon h s).stores.artifacts =
      if h = .artifactContent then (Artifacts.deleteArtifactsWithPayloads
        (Scan.all.due (artifactIsDue env.iso horizon) s.artifacts.records) s.artifacts).2
      else s.artifacts := by
  cases h <;> rfl

theorem jobs_expire :
    (env.expire horizon h s).stores.asyncRuntime.jobs =
      if h = .asyncRuntimeContent then
        s.asyncRuntime.jobs.sweep Scan.all (jobIsDue env.iso horizon)
      else s.asyncRuntime.jobs := by
  cases h with
  | asyncRuntimeContent => exact RuntimeContent.jobs_deleteJobRecords ..
  | transientOperationalLeases => exact (RuntimeContent.jobs_deleteLeases ..).1
  | _ => rfl

theorem attempts_expire (jobId : String) :
    (env.expire horizon h s).stores.asyncRuntime.store.attempts.get? jobId =
      if h = .asyncRuntimeContent ∧
          jobId ∈ (Scan.all.due (jobIsDue env.iso horizon) s.asyncRuntime.jobs).map (·.jobId) then
        none
      else s.asyncRuntime.store.attempts.get? jobId := by
  cases h with
  | asyncRuntimeContent =>
    simp only [true_and]
    exact RuntimeContent.attempts_deleteJobRecords ..
  | transientOperationalLeases =>
    exact congrArg (·.get? jobId) (RuntimeContent.jobs_deleteLeases ..).2
  | _ => rfl

/-- The leases go with their jobs in one family, and by their own age in another. -/
theorem leases_expire :
    (env.expire horizon h s).stores.asyncRuntime.leases =
      match h with
      | .asyncRuntimeContent => s.asyncRuntime.leases.delete
          ((Scan.all.due (jobIsDue env.iso horizon) s.asyncRuntime.jobs).map (·.jobId))
      | .transientOperationalLeases =>
        s.asyncRuntime.leases.sweep Scan.all (leaseIsDue env.iso horizon)
      | _ => s.asyncRuntime.leases := by
  cases h with
  | asyncRuntimeContent => exact RuntimeContent.leases_deleteJobRecords ..
  | transientOperationalLeases =>
    exact (RuntimeContent.leases_deleteLeases nodup_due fun _ => mem_of_mem_due).2
  | _ => rfl

end

theorem runEvents_expire_of_ne (hne : h ≠ .workflowRunRecords) :
    (env.expire horizon h s).stores.runEvents = s.runEvents ∧
      (env.expire horizon h s).stores.checkpoints = s.checkpoints := by
  have hkeeps : ∀ t ∈ h.tables, ∀ ids (s : DataStores),
      ((s.removeRows t ids).runEvents, (s.removeRows t ids).checkpoints) =
        (s.runEvents, s.checkpoints) := by
    intro t ht ids s
    rw [s.runEvents_removeRows, s.checkpoints_removeRows]
    have hhandler := mem_tables.mp ht
    rw [if_neg, if_neg]
    · rintro rfl
      exact hne hhandler.symm
    · rintro rfl
      exact hne hhandler.symm
  have hpair := env.sweepTables_keeps horizon (env.sweepContent horizon s h)
    (π := fun s => (s.runEvents, s.checkpoints)) hkeeps
  rw [stores_expire]
  have hcontent : (env.sweepContent horizon s h).runEvents = s.runEvents ∧
      (env.sweepContent horizon s h).checkpoints = s.checkpoints := by
    cases h <;> exact ⟨rfl, rfl⟩
  exact ⟨(congrArg Prod.fst hpair).trans hcontent.1, (congrArg Prod.snd hpair).trans hcontent.2⟩

/-- The attempts of deleted evaluation runs go with them. -/
theorem evaluationAttempts_expire :
    (env.expire horizon .evaluationApprovalEvidence s).stores.evaluationAttempts =
      s.evaluationAttempts.deleteWhere fun attempt =>
        attempt.runId ∈ env.expired horizon .evaluationRuns s := rfl

theorem evaluationAttempts_expire_of_ne
    (hne : h ≠ .evaluationApprovalEvidence) :
    (env.expire horizon h s).stores.evaluationAttempts = s.evaluationAttempts := by
  have hkeeps : ∀ t ∈ h.tables, ∀ ids (s : DataStores),
      (s.removeRows t ids).evaluationAttempts = s.evaluationAttempts := by
    intro t ht ids s
    rw [s.evaluationAttempts_removeRows, if_neg]
    rintro rfl
    exact hne (mem_tables.mp ht).symm
  rw [stores_expire, env.sweepTables_keeps horizon _ hkeeps]
  cases h <;> rfl

/-- The events of deleted runs and the checkpoints of deleted flows go with them. -/
theorem runEvents_expire :
    (env.expire horizon .workflowRunRecords s).stores.runEvents =
        (s.runEvents.deleteWhere fun event => event.runId ∈ env.expired horizon .runs s) ∧
      (env.expire horizon .workflowRunRecords s).stores.checkpoints =
        s.checkpoints.deleteWhere fun row => row.taskFlowId ∈ env.expired horizon .taskFlows s := by
  -- runs and task flows come first; the other two tables have no dependents
  have hflows : env.expired horizon .taskFlows (env.sweepTable horizon .runs s) =
      env.expired horizon .taskFlows s :=
    env.expired_congr horizon (env.tables_sweepTable_of_apart horizon s ⟨by decide, nofun⟩)
  constructor
  · rfl
  · rw [← hflows]
    rfl

end Environment

/-! ### A run -/

/-- `FamilyRunResult`. -/
structure FamilyRunResult where
  familyId : String
  enforcement : String
  deletedCount : ℕ
  eventId : Option String
  detail : String
  deriving DecidableEq

/-- `DataLifecycleRunReport`. -/
structure DataLifecycleRunReport where
  policyVersion : String
  actor : String
  startedAt : String
  results : List FamilyRunResult
  deriving DecidableEq

/-- One run: who runs it, when, and the random digits it draws for the event of each family. -/
structure Run where
  actor : String
  now : ℤ
  hex : String → String

/-- The handler and the period of an enforced family. -/
def RetentionFamily.schedule? (family : RetentionFamily) : Option (FamilyHandler × ℕ) :=
  if family.enforcement = .enforced then
    (FamilyHandler.of? family.familyId).bind fun h => family.retentionDays.map fun days => (h, days)
  else none

/-- The cutoffs of a family, and the tenants held. A minimised period is counted back from the
instant of the run, which the handler recovers from the cutoff. -/
def RetentionFamily.horizon (family : RetentionFamily) (period : ℕ) (now : ℤ) (s : DataStores) :
    Horizon :=
  let cutoff := now - days period
  { cutoff
    minimisedCutoff := match family.minimisedRetentionDays with
      | some minimised => cutoff + days period - days minimised
      | none => cutoff
    held := s.heldTenants family.familyId }

/-- `save_lifecycle_event` in memory. -/
def DataStores.saveLifecycleEvent (s : DataStores) (event : DataLifecycleEvent) : DataStores :=
  s.put .lifecycleEvents ((s.tables .lifecycleEvents).upsert event)

namespace Environment

variable (env : Environment) (policyVersion : String) (run : Run)

/-- `_record_deletion_evidence`: the event. -/
def deletionEvidence (familyId : String) (deletedIds : List String) : DataLifecycleEvent where
  eventId := "dle_" ++ run.hex familyId
  familyId := familyId
  action := .expiry
  keyScope := none
  rowCount := deletedIds.length
  policyVersion := policyVersion
  actor := run.actor
  deletedIdsDigest := env.sha256 ("\n".intercalate (deletedIds.mergeSort fun a b => a ≤ b))
  recordedAt := env.isoformat run.now

/-- Write the event of a batch that is not empty. -/
def recordDeletionEvidence (familyId : String) (outcome : Outcome) : DataStores :=
  if outcome.deletedIds = [] then outcome.stores
  else outcome.stores.saveLifecycleEvent
    (env.deletionEvidence policyVersion run familyId outcome.deletedIds)

/-- One round of the loop over the families. -/
def runFamily (family : RetentionFamily) (s : DataStores) : FamilyRunResult × DataStores :=
  match family.schedule? with
  | none =>
    (⟨family.familyId, family.enforcement.value, 0, none,
      "not applied by the engine; posture is honest about that"⟩, s)
  | some (handler, period) =>
    let outcome := env.expire (family.horizon period run.now s) handler s
    let eventId := if outcome.deletedIds = [] then none
      else some (env.deletionEvidence policyVersion run family.familyId outcome.deletedIds).eventId
    (⟨family.familyId, family.enforcement.value, outcome.deletedIds.length, eventId,
      outcome.detail⟩, env.recordDeletionEvidence policyVersion run family.familyId outcome)

/-- The loop. -/
def runFamilies : List RetentionFamily → DataStores → List FamilyRunResult × DataStores
  | [], s => ([], s)
  | family :: rest, s =>
    let first := env.runFamily policyVersion run family s
    let others := runFamilies rest first.2
    (first.1 :: others.1, others.2)

/-- `run_data_lifecycle`. -/
def runDataLifecycle (policy : RetentionPolicy) (s : DataStores) :
    DataLifecycleRunReport × DataStores :=
  let out := env.runFamilies policy.policyVersion run policy.families s
  (⟨policy.policyVersion, run.actor, env.isoformat run.now, out.1⟩, out.2)

end Environment

end LotusAI.Lifecycle
