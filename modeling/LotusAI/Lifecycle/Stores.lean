import LotusAI.Admission.Leases
import LotusAI.AsyncRuntime.Coherence
import LotusAI.Budget.Ledger
import LotusAI.Idempotency.Repository
import LotusAI.KillSwitch.Switches
import LotusAI.Lib.Sweep

/-!
# The stores under retention

Every store family has a retention policy: how long its rows are kept, whether a legal hold
keeps them longer, and whether they can be erased for one tenant. This module has the rows of
these stores, as far as retention and erasure read them, and the policy.
-/

namespace LotusAI.Lifecycle

/-! ### The policy -/

/-- What a family's rows can be erased by. -/
inductive ErasureKey
  | tenant
  | request
  | subject
  | sharedReference
  | none
  deriving DecidableEq

/-- Whether the lifecycle engine applies the retention of a family. -/
inductive Enforcement
  | enforced
  | declaredOnly
  | notTimeBounded
  deriving DecidableEq

/-- The text of a posture. -/
def Enforcement.value : Enforcement → String
  | enforced => "ENFORCED"
  | declaredOnly => "DECLARED_ONLY"
  | notTimeBounded => "NOT_TIME_BOUNDED"

/-- `RetentionFamily`, as far as the engine and erasure read it. -/
structure RetentionFamily where
  familyId : String
  retentionDays : Option ℕ
  legalHoldSupported : Bool
  erasureKey : ErasureKey
  enforcement : Enforcement
  minimisedRetentionDays : Option ℕ := none
  deriving DecidableEq

/-- The families with a handler. -/
inductive FamilyHandler
  | auditEvidence
  | controlPlaneEvidence
  | workflowRunRecords
  | artifactContent
  | evaluationApprovalEvidence
  | evaluationCaseContent
  | retrievalSharedReference
  | asyncRuntimeContent
  | transientOperationalLeases
  deriving DecidableEq

namespace FamilyHandler

def familyId : FamilyHandler → String
  | auditEvidence => "audit_evidence"
  | controlPlaneEvidence => "control_plane_evidence"
  | workflowRunRecords => "workflow_run_records"
  | artifactContent => "artifact_content"
  | evaluationApprovalEvidence => "evaluation_approval_evidence"
  | evaluationCaseContent => "evaluation_case_content"
  | retrievalSharedReference => "retrieval_shared_reference"
  | asyncRuntimeContent => "async_runtime_content"
  | transientOperationalLeases => "transient_operational_leases"

/-- `_ENFORCED_FAMILY_HANDLERS`, by its entries. -/
def all : List FamilyHandler :=
  [auditEvidence, controlPlaneEvidence, workflowRunRecords, artifactContent,
    evaluationApprovalEvidence, evaluationCaseContent, retrievalSharedReference,
    asyncRuntimeContent, transientOperationalLeases]

def of? (familyId : String) : Option FamilyHandler := all.find? fun h => h.familyId = familyId

theorem familyId_of_of? {familyId : String} {h : FamilyHandler} (hof : of? familyId = some h) :
    h.familyId = familyId := by
  simpa using List.find?_some hof

end FamilyHandler

/-- A retention policy that its loader accepts: no family is declared twice, and a family is
without a period exactly where it is not bounded in time. That the enforced families are those
with a handler is pinned beside the engine. -/
structure RetentionPolicy where
  policyVersion : String
  families : List RetentionFamily
  nodup : (families.map (·.familyId)).Nodup
  bounded : ∀ family ∈ families,
    family.retentionDays = none ↔ family.enforcement = .notTimeBounded
  handled : ∀ family ∈ families,
    family.enforcement = .enforced → (FamilyHandler.of? family.familyId).isSome

/-- The families of `retention-policy.v1.json`. -/
def shippedFamilies : List RetentionFamily :=
  [⟨"audit_evidence", some 2555, true, .tenant, .enforced, none⟩,
    ⟨"control_plane_evidence", some 2555, true, .none, .enforced, none⟩,
    ⟨"workflow_run_records", some 2555, true, .tenant, .enforced, none⟩,
    ⟨"async_runtime_content", some 365, true, .tenant, .enforced, none⟩,
    ⟨"transient_operational_leases", some 30, false, .none, .enforced, none⟩,
    ⟨"evaluation_approval_evidence", some 2555, true, .none, .enforced, none⟩,
    ⟨"evaluation_case_content", some 365, true, .none, .enforced, some 90⟩,
    ⟨"retrieval_shared_reference", some 1095, true, .sharedReference, .enforced, none⟩,
    ⟨"governed_registry_configuration", none, true, .none, .notTimeBounded, none⟩,
    ⟨"provider_operational_state", none, false, .none, .notTimeBounded, none⟩,
    ⟨"artifact_content", some 2555, true, .tenant, .enforced, none⟩,
    ⟨"retrieval_current_reference", none, true, .sharedReference, .notTimeBounded, none⟩]

/-- The policy that is shipped. -/
def retentionPolicy : RetentionPolicy where
  policyVersion := "v1"
  families := shippedFamilies
  nodup := by decide
  bounded := by decide
  handled := by decide

/-! ### Rows -/

/-- An audit record. -/
structure AuditRecord where
  requestId : String
  tenantId : Option String
  generatedAt : String
  deriving DecidableEq

/-- A row that retention knows by its key and one instant. -/
structure EvidenceRow where
  rowId : String
  instant : String
  deriving DecidableEq

/-- The control-plane tables whose rows age on one instant and are not protected. -/
inductive EvidenceTable
  | auditAccessEvents
  | providerOperationsEvents
  | capabilityEvidenceRecords
  | promptRolloutEvents
  | asyncControlEvents
  | workflowPackControlEvents
  | modelCatalogueLifecycleEvents
  /-- These age on their last observation. -/
  | modelRevisionDriftObservations
  deriving DecidableEq

/-- The name of a table. -/
def EvidenceTable.value : EvidenceTable → String
  | auditAccessEvents => "audit_access_events"
  | providerOperationsEvents => "provider_operations_events"
  | capabilityEvidenceRecords => "capability_evidence_records"
  | promptRolloutEvents => "prompt_rollout_events"
  | asyncControlEvents => "async_control_events"
  | workflowPackControlEvents => "workflow_pack_control_events"
  | modelCatalogueLifecycleEvents => "model_catalogue_lifecycle_events"
  | modelRevisionDriftObservations => "model_revision_drift_observations"

/-- `DataLifecycleAction`. -/
inductive DataLifecycleAction
  | expiry
  | erasure
  deriving DecidableEq

/-- `DataLifecycleEventRecord`. -/
structure DataLifecycleEvent where
  eventId : String
  familyId : String
  action : DataLifecycleAction
  keyScope : Option String
  rowCount : ℕ
  policyVersion : String
  actor : String
  deletedIdsDigest : String
  recordedAt : String
  deriving DecidableEq

/-- A confirmation of a provider's retention, issued to a tenant. -/
structure RetentionConfirmation where
  confirmationId : String
  tenantId : String
  issuedAtUtc : String
  deriving DecidableEq

/-- A workflow-pack run. -/
structure WorkflowPackRun where
  runId : String
  tenantId : Option String
  createdAt : String
  deriving DecidableEq

/-- An event of a run. -/
structure WorkflowPackRunEvent where
  eventId : String
  runId : String
  deriving DecidableEq

/-- `WorkflowPackTaskFlowStatus`. -/
inductive TaskFlowStatus
  | created
  | running
  | waitingForInput
  | waitingForReview
  | blocked
  | completed
  | failed
  | cancelled
  | expired
  | superseded
  deriving DecidableEq

/-- `TASK_FLOW_TERMINAL_STATUSES`. -/
def TaskFlowStatus.isTerminal (status : TaskFlowStatus) : Bool :=
  status ∈ [completed, failed, cancelled, expired, superseded]

/-- A task flow. -/
structure WorkflowPackTaskFlow where
  taskFlowId : String
  tenantId : Option String
  createdAt : String
  flowStatus : TaskFlowStatus
  deriving DecidableEq

/-- A checkpoint of a task flow. -/
structure TaskFlowCheckpoint where
  checkpointId : String
  taskFlowId : String
  deriving DecidableEq

/-- A recorded queue event. -/
structure QueueEventRow where
  eventId : String
  tenantId : Option String
  recordedAt : String
  deriving DecidableEq

/-- The idempotency records; a response is its text. -/
abbrev IdempotencyRecord := Idempotency.Record String

/-- The lifecycle of an evaluation run. -/
inductive EvaluationRunStatus
  | recorded
  | superseded
  | submitted
  | queued
  | claimed
  | running
  | failed
  | completed
  | abandoned
  deriving DecidableEq

/-- A run that nobody is to work on any more. -/
def EvaluationRunStatus.isTerminal (status : EvaluationRunStatus) : Bool :=
  status ∉ [submitted, queued, claimed, running]

/-- An evaluation run. -/
structure EvaluationRun where
  runId : String
  submittedAt : String
  lifecycleStatus : EvaluationRunStatus
  deriving DecidableEq

/-- An attempt of an evaluation run. -/
structure EvaluationAttempt where
  attemptId : String
  runId : String
  deriving DecidableEq

/-- The result of one case of an evaluation run. -/
structure EvaluationCaseResult where
  caseResultId : String
  runId : String
  recordedAt : String
  outcome : String
  deriving DecidableEq

/-- A version of a retrieval document. -/
structure DocumentVersion where
  versionId : String
  createdAt : String
  lifecycleStatus : String
  deriving DecidableEq

/-- `RetrievalIngestionJobStatus`. -/
inductive IngestionJobStatus
  | staged
  | recorded
  | blocked
  | queued
  | running
  | failed
  | completed
  deriving DecidableEq

/-- The statuses with which the execution of an ingestion job ends. -/
def IngestionJobStatus.isTerminal (status : IngestionJobStatus) : Bool :=
  status = failed ∨ status = completed

/-- An ingestion job. -/
structure IngestionJob where
  jobId : String
  requestedAt : String
  status : IngestionJobStatus
  deriving DecidableEq

/-- `DataLegalHoldRecord`, as far as it is read. -/
structure LegalHold where
  holdId : String
  familyId : String
  keyType : String
  keyValue : String
  releasedAt : Option String
  deriving DecidableEq

/-! ### The async runtime -/

end LotusAI.Lifecycle

namespace LotusAI.AsyncRuntime.Store

/-- What one round deletes: jobs, attempts and leases. -/
def countJobRecord (s : Store) (jobId : String) : ℕ × ℕ × ℕ :=
  (if (s.jobs.get? jobId).isSome then 1 else 0, (s.attemptsOf jobId).length,
    if (s.leasesByJob.get? jobId).isSome then 1 else 0)

end LotusAI.AsyncRuntime.Store

namespace LotusAI.Lifecycle

open Lib

/-- The store of the async runtime: jobs and leases stand under their job's id, and the two maps
of leases are in step. -/
structure RuntimeContent where
  store : AsyncRuntime.Store
  jobsKeyed : ∀ jobId job, store.jobs.get? jobId = some job → job.jobId = jobId
  leasesKeyed : ∀ jobId lease, store.leasesByJob.get? jobId = some lease → lease.jobId = jobId
  inverse : AsyncRuntime.LeasesInverse store

namespace RuntimeContent

/-- The runtime without jobs. -/
def empty : RuntimeContent where
  store := .empty
  jobsKeyed := by intro jobId job h; cases h
  leasesKeyed := by intro jobId lease h; cases h
  inverse := by simp [AsyncRuntime.LeasesInverse, AsyncRuntime.Store.empty]

def jobs (c : RuntimeContent) : Table AsyncRuntime.JobRecord.jobId := ⟨c.store.jobs, c.jobsKeyed⟩

def leases (c : RuntimeContent) : Table AsyncRuntime.LeaseRecord.jobId :=
  ⟨c.store.leasesByJob, c.leasesKeyed⟩

/-- One round of `delete_job_records`. -/
def deleteJobRecord (c : RuntimeContent) (jobId : String) : RuntimeContent where
  store := c.store.deleteJobRecord jobId
  jobsKeyed := by
    intro k job h
    rw [AsyncRuntime.Store.deleteJobRecord, Dict.get?_erase] at h
    split_ifs at h
    exact c.jobsKeyed k job h
  leasesKeyed := by
    intro k lease h
    rw [AsyncRuntime.Store.deleteJobRecord, Dict.get?_erase] at h
    split_ifs at h
    exact c.leasesKeyed k lease h
  inverse := AsyncRuntime.Store.leasesInverse_deleteJobRecord c.inverse jobId

/-- `delete_job_records`: the jobs, attempts and leases that went. -/
def deleteJobRecords (c : RuntimeContent) : List String → (ℕ × ℕ × ℕ) × RuntimeContent
  | [] => ((0, 0, 0), c)
  | jobId :: rest =>
    let counted := c.store.countJobRecord jobId
    let out := (c.deleteJobRecord jobId).deleteJobRecords rest
    ((counted.1 + out.1.1, counted.2.1 + out.1.2.1, counted.2.2 + out.1.2.2), out.2)

/-- `delete_lease`: how many went. -/
def deleteLease (c : RuntimeContent) (leaseId : String) : ℕ × RuntimeContent :=
  ((c.store.deleteLease leaseId).1,
    { store := (c.store.deleteLease leaseId).2
      jobsKeyed := by
        intro k job h
        rw [AsyncRuntime.Store.jobs_deleteLease] at h
        exact c.jobsKeyed k job h
      leasesKeyed := by
        intro k lease h
        unfold AsyncRuntime.Store.deleteLease at h
        split at h
        · exact c.leasesKeyed k lease h
        · rw [Dict.get?_erase] at h
          split_ifs at h
          exact c.leasesKeyed k lease h
      inverse := c.inverse.deleteLease leaseId })

/-- Delete leases one by one, and note the ids of those that went. -/
def deleteLeases (c : RuntimeContent) : List String → List String × RuntimeContent
  | [] => ([], c)
  | leaseId :: rest =>
    let out := (c.deleteLease leaseId).2.deleteLeases rest
    (if (c.deleteLease leaseId).1 = 0 then out.1 else leaseId :: out.1, out.2)

section

variable (c : RuntimeContent) (jobIds : List String) (jobId : String)

theorem jobs_deleteJobRecord :
    (c.deleteJobRecord jobId).jobs = c.jobs.delete [jobId] := by
  apply Table.ext_rows
  apply Dict.eq_of_entries_eq
  change c.store.jobs.entries.filter _ = c.store.jobs.entries.filter _
  simp

theorem leases_deleteJobRecord :
    (c.deleteJobRecord jobId).leases = c.leases.delete [jobId] := by
  apply Table.ext_rows
  apply Dict.eq_of_entries_eq
  change c.store.leasesByJob.entries.filter _ = c.store.leasesByJob.entries.filter _
  simp

/-- The jobs go, -/
theorem jobs_deleteJobRecords :
    (c.deleteJobRecords jobIds).2.jobs = c.jobs.delete jobIds := by
  induction jobIds generalizing c with
  | nil => simp [deleteJobRecords]
  | cons jobId rest ih => simp [deleteJobRecords, ih, jobs_deleteJobRecord, Table.delete_delete]

/-- their leases, -/
theorem leases_deleteJobRecords :
    (c.deleteJobRecords jobIds).2.leases = c.leases.delete jobIds := by
  induction jobIds generalizing c with
  | nil => simp [deleteJobRecords]
  | cons jobId rest ih =>
    simp [deleteJobRecords, ih, leases_deleteJobRecord, Table.delete_delete]

/-- and their attempts. -/
theorem attempts_deleteJobRecords :
    (c.deleteJobRecords jobIds).2.store.attempts.get? jobId =
      if jobId ∈ jobIds then none else c.store.attempts.get? jobId := by
  induction jobIds generalizing c with
  | nil => simp [deleteJobRecords]
  | cons deleted rest ih =>
    have hround : (c.deleteJobRecord deleted).store.attempts.get? jobId =
        if jobId = deleted then none else c.store.attempts.get? jobId := Dict.get?_erase ..
    rw [deleteJobRecords, ih, hround]
    by_cases hdeleted : jobId = deleted <;> simp [hdeleted]

theorem deleteLease_of_mem {c : RuntimeContent} {lease : AsyncRuntime.LeaseRecord}
    (h : lease ∈ c.leases) :
    (c.deleteLease lease.leaseId).1 = 1 ∧
      (c.deleteLease lease.leaseId).2.leases = c.leases.delete [lease.jobId] := by
  have hid : c.store.leaseIdToJob.get? lease.leaseId = some lease.jobId :=
    (c.inverse _ _).mpr ⟨lease, h, rfl⟩
  constructor
  · simp [deleteLease, AsyncRuntime.Store.deleteLease, hid]
  · apply Table.ext_rows
    apply Dict.eq_of_entries_eq
    change ((c.store.deleteLease lease.leaseId).2.leasesByJob).entries =
      c.store.leasesByJob.entries.filter _
    simp [AsyncRuntime.Store.deleteLease, hid, Dict.erase]

theorem jobs_deleteLeases (leaseIds : List String) :
    (c.deleteLeases leaseIds).2.jobs = c.jobs ∧
      (c.deleteLeases leaseIds).2.store.attempts = c.store.attempts := by
  induction leaseIds generalizing c with
  | nil => exact ⟨rfl, rfl⟩
  | cons leaseId rest ih =>
    obtain ⟨hjobs, hattempts⟩ := ih (c.deleteLease leaseId).2
    have hround : (c.deleteLease leaseId).2.store.jobs = c.store.jobs ∧
        (c.deleteLease leaseId).2.store.attempts = c.store.attempts := by
      simp only [deleteLease, AsyncRuntime.Store.deleteLease]
      split <;> exact ⟨rfl, rfl⟩
    exact ⟨hjobs.trans (Table.ext_rows hround.1), hattempts.trans hround.2⟩

end

/-- Stored leases, each named once, all go. -/
theorem leases_deleteLeases {c : RuntimeContent} {rows : List AsyncRuntime.LeaseRecord}
    (hnodup : (rows.map (·.jobId)).Nodup) (hrows : ∀ lease ∈ rows, lease ∈ c.leases) :
    (c.deleteLeases (rows.map (·.leaseId))).1 = rows.map (·.leaseId) ∧
      (c.deleteLeases (rows.map (·.leaseId))).2.leases = c.leases.delete (rows.map (·.jobId)) := by
  induction rows generalizing c with
  | nil => simp [deleteLeases]
  | cons lease rest ih =>
    rw [List.map_cons, List.nodup_cons] at hnodup
    obtain ⟨hone, hleft⟩ := deleteLease_of_mem (hrows lease (.head _))
    -- the other leases are of other jobs, and still there
    have hrest : ∀ other ∈ rest, other ∈ (c.deleteLease lease.leaseId).2.leases := by
      intro other hother
      rw [hleft, Table.mem_delete, List.mem_singleton]
      refine ⟨hrows other (.tail _ hother), fun hsame => hnodup.1 ?_⟩
      exact List.mem_map.mpr ⟨other, hother, hsame⟩
    obtain ⟨hids, hleases⟩ := ih hnodup.2 hrest
    simp [deleteLeases, hone, hids, hleases, hleft, Table.delete_delete]

end RuntimeContent

/-! ### The tables -/

/-- The tables of plain rows. -/
inductive RetainedTable
  | auditRecords
  | evidence (table : EvidenceTable)
  | lifecycleEvents
  | attemptDebits
  | governedActions
  | killSwitches
  | confirmations
  | runs
  | taskFlows
  | queueEvents
  | idempotencyRecords
  | evaluationRuns
  | caseResults
  | documentVersions
  | ingestionJobs
  | admissionLeases
  deriving DecidableEq

namespace RetainedTable

@[reducible] def Row : RetainedTable → Type
  | auditRecords => AuditRecord
  | evidence _ => EvidenceRow
  | lifecycleEvents => DataLifecycleEvent
  | attemptDebits => Budget.AttemptDebitRecord
  | governedActions => Governance.GovernedActionRecord
  | killSwitches => KillSwitch.KillSwitchActivation
  | confirmations => RetentionConfirmation
  | runs => WorkflowPackRun
  | taskFlows => WorkflowPackTaskFlow
  | queueEvents => QueueEventRow
  | idempotencyRecords => IdempotencyRecord
  | evaluationRuns => EvaluationRun
  | caseResults => EvaluationCaseResult
  | documentVersions => DocumentVersion
  | ingestionJobs => IngestionJob
  | admissionLeases => Admission.WorkflowPackQueueAdmissionLease

/-- The primary key of a row. -/
def key : (t : RetainedTable) → t.Row → String
  | auditRecords, row => row.requestId
  | evidence _, row => row.rowId
  | lifecycleEvents, row => row.eventId
  | attemptDebits, row => row.debitId
  | governedActions, row => row.actionId
  | killSwitches, row => row.switchId
  | confirmations, row => row.confirmationId
  | runs, row => row.runId
  | taskFlows, row => row.taskFlowId
  | queueEvents, row => row.eventId
  | idempotencyRecords, row => row.recordId
  | evaluationRuns, row => row.runId
  | caseResults, row => row.caseResultId
  | documentVersions, row => row.versionId
  | ingestionJobs, row => row.jobId
  | admissionLeases, row => row.queueItemId

/-- The column that attributes a row to a tenant, where a table has one. -/
def tenant? : (t : RetainedTable) → t.Row → Option String
  | auditRecords, row => row.tenantId
  | confirmations, row => some row.tenantId
  | runs, row => row.tenantId
  | taskFlows, row => row.tenantId
  | queueEvents, row => row.tenantId
  | idempotencyRecords, row => some row.tenantScope
  | admissionLeases, row => row.tenantId
  | evidence _, _ | lifecycleEvents, _ | attemptDebits, _ | governedActions, _
  | killSwitches, _ | evaluationRuns, _ | caseResults, _ | documentVersions, _
  | ingestionJobs, _ => none

end RetainedTable

/-- The key of a run event: the memory store keeps the events of each run apart. -/
def runEventKey (event : WorkflowPackRunEvent) : String × String := (event.runId, event.eventId)

def evaluationAttemptKey (attempt : EvaluationAttempt) : String × String :=
  (attempt.runId, attempt.attemptId)

/-- All stores that retention or erasure touches. The control events of the async runtime stand
with the other evidence tables; the list that `asyncRuntime` has of them is not read here. -/
structure DataStores where
  tables : (t : RetainedTable) → Table t.key
  legalHolds : List LegalHold
  runEvents : Table runEventKey
  checkpoints : Table TaskFlowCheckpoint.checkpointId
  evaluationAttempts : Table evaluationAttemptKey
  artifacts : Artifacts.ArtifactStore
  asyncRuntime : RuntimeContent

namespace DataStores

/-- Stores without rows. -/
def empty : DataStores where
  tables _ := .empty
  legalHolds := []
  runEvents := .empty
  checkpoints := .empty
  evaluationAttempts := .empty
  artifacts := ⟨.empty, .empty⟩
  asyncRuntime := .empty

/-- Put a table in its place. -/
def put (s : DataStores) (t : RetainedTable) (table : Table t.key) : DataStores :=
  { s with tables := Function.update s.tables t table }

/-- `list_active_legal_holds`. -/
def activeLegalHolds (s : DataStores) (familyId : String) : List LegalHold :=
  s.legalHolds.filter fun hold => hold.releasedAt = none ∧ hold.familyId = familyId

/-- `_held_tenants`. -/
def heldTenants (s : DataStores) (familyId : String) : List String :=
  ((s.activeLegalHolds familyId).filter fun hold => hold.keyType = "tenant").map (·.keyValue)

/-! ### Deletions -/

/-- The rows that depend on deleted ones go with them. -/
def cascade (s : DataStores) (ids : List String) : RetainedTable → DataStores
  | .runs => { s with runEvents := s.runEvents.deleteWhere fun event => event.runId ∈ ids }
  | .taskFlows =>
    { s with checkpoints := s.checkpoints.deleteWhere fun row => row.taskFlowId ∈ ids }
  | .evaluationRuns =>
    { s.put .caseResults ((s.tables .caseResults).deleteWhere fun row => row.runId ∈ ids) with
      evaluationAttempts := s.evaluationAttempts.deleteWhere fun row => row.runId ∈ ids }
  | _ => s

/-- The number of rows that depend on rows of a table: events, checkpoints or attempts, and case
rows. -/
def dependents (s : DataStores) (ids : List String) : RetainedTable → ℕ × ℕ
  | .runs => (s.runEvents.list.countP fun event => event.runId ∈ ids, 0)
  | .taskFlows => (s.checkpoints.list.countP fun row => row.taskFlowId ∈ ids, 0)
  | .evaluationRuns =>
    (s.evaluationAttempts.list.countP fun row => row.runId ∈ ids,
      (s.tables .caseResults).list.countP fun row => row.runId ∈ ids)
  | _ => (0, 0)

/-- Delete rows of a table, and what depends on them: `delete_runs_with_events`,
`delete_task_flows_with_checkpoints`, `delete_runs_with_dependents`, and the deletions of the
tables that nothing depends on. -/
def removeRows (s : DataStores) (t : RetainedTable) (ids : List String) : DataStores :=
  (s.put t ((s.tables t).delete ids)).cascade ids t

variable (s : DataStores) (t t' : RetainedTable) (ids : List String)

@[simp] theorem tables_put (table : Table t.key) : (s.put t table).tables t = table :=
  Function.update_self ..

@[simp] theorem tables_put_of_ne {t t' : RetainedTable} (h : t' ≠ t) (table : Table t.key) :
    (s.put t table).tables t' = s.tables t' := Function.update_of_ne h ..

@[simp] theorem legalHolds_removeRows : (s.removeRows t ids).legalHolds = s.legalHolds := by
  cases t <;> rfl

@[simp] theorem artifacts_removeRows : (s.removeRows t ids).artifacts = s.artifacts := by
  cases t <;> rfl

@[simp] theorem asyncRuntime_removeRows : (s.removeRows t ids).asyncRuntime = s.asyncRuntime := by
  cases t <;> rfl

@[simp] theorem put_tables : s.put t (s.tables t) = s := by
  simp [put]

theorem removeRows_nil : s.removeRows t [] = s := by
  rw [removeRows, Table.delete_nil, put_tables]
  cases t <;> simp [cascade, Table.deleteWhere_eq_self]

theorem tables_removeRows : (s.removeRows t ids).tables t = (s.tables t).delete ids := by
  cases t <;> simp [removeRows, cascade]

/-- Other tables are left, but case results go with their evaluation run. -/
theorem tables_removeRows_of_ne {t t' : RetainedTable} (hne : t' ≠ t)
    (hcascade : t = .evaluationRuns → t' ≠ .caseResults) :
    (s.removeRows t ids).tables t' = s.tables t' := by
  cases t <;> simp_all [removeRows, cascade]

theorem caseResults_removeRows :
    (s.removeRows .evaluationRuns ids).tables .caseResults =
      (s.tables .caseResults).deleteWhere fun row => row.runId ∈ ids := by
  simp [removeRows, cascade]

theorem runEvents_removeRows :
    (s.removeRows t ids).runEvents =
      if t = .runs then s.runEvents.deleteWhere fun event => event.runId ∈ ids
      else s.runEvents := by
  cases t <;> rfl

theorem checkpoints_removeRows :
    (s.removeRows t ids).checkpoints =
      if t = .taskFlows then s.checkpoints.deleteWhere fun row => row.taskFlowId ∈ ids
      else s.checkpoints := by
  cases t <;> rfl

theorem evaluationAttempts_removeRows :
    (s.removeRows t ids).evaluationAttempts =
      if t = .evaluationRuns then s.evaluationAttempts.deleteWhere fun row => row.runId ∈ ids
      else s.evaluationAttempts := by
  cases t <;> rfl

end DataStores

end LotusAI.Lifecycle
