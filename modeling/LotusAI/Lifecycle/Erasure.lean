import LotusAI.Budget.Conservation
import LotusAI.Idempotency.Service
import LotusAI.Lib.Stepwise
import LotusAI.Lifecycle.Runs

/-!
# Erasure of a tenant

An approved erasure goes through the families whose erasure key is the tenant. A family under a
hold for the tenant is passed over. In the others every row of the tenant is deleted, whatever
its age, and the count is written down as an event under an identifier that is fixed by the action
and the family, so that a second pass over the same action finds what the first has counted.

The callback works by calls to several stores, and can be stopped between any two of them.
-/

namespace LotusAI.Lifecycle

open Lib Artifacts

/-- `_ERASURE_BATCH_LIMIT`. -/
def erasureBatchLimit : ℕ := 5000

/-- The families with an executor. -/
inductive ErasureExecutor
  | auditEvidence
  | workflowRunRecords
  | asyncRuntimeContent
  | artifactContent
  deriving DecidableEq

namespace ErasureExecutor

def handler : ErasureExecutor → FamilyHandler
  | auditEvidence => .auditEvidence
  | workflowRunRecords => .workflowRunRecords
  | asyncRuntimeContent => .asyncRuntimeContent
  | artifactContent => .artifactContent

theorem handler_injective : Function.Injective handler := by
  intro a b h
  cases a <;> cases b <;> first | rfl | cases h

/-- Its identifier. -/
def familyId (executor : ErasureExecutor) : String := executor.handler.familyId

/-- `_ERASURE_EXECUTORS`, by its entries. -/
def all : List ErasureExecutor :=
  [auditEvidence, workflowRunRecords, asyncRuntimeContent, artifactContent]

theorem mem_all (executor : ErasureExecutor) : executor ∈ all := by
  cases executor <;> decide

def of? (familyId : String) : Option ErasureExecutor := all.find? fun e => e.familyId = familyId

theorem of?_familyId (executor : ErasureExecutor) : of? executor.familyId = some executor := by
  cases executor <;> decide

end ErasureExecutor

/-- `_tenant_erasable_family_ids`. -/
def tenantErasableFamilyIds (policy : RetentionPolicy) : List String :=
  (policy.families.filter fun family => family.erasureKey = .tenant).map (·.familyId)

/-- The families of the shipped policy. Each has an executor. -/
theorem tenantErasableFamilyIds_retentionPolicy :
    tenantErasableFamilyIds retentionPolicy =
      ErasureExecutor.all.map (·.familyId) := by
  decide

/-- `DataErasureFamilyResult`. -/
structure DataErasureFamilyResult where
  familyId : String
  erasedCount : ℕ
  held : Bool
  unattributableCount : Option ℕ := none
  deriving DecidableEq

/-- `DataErasureReceiptClaims`. -/
structure DataErasureReceiptClaims where
  schemaVersion : String
  issuer : String
  receiptId : String
  tenantId : String
  reason : String
  policyVersion : String
  governedActionId : String
  families : List DataErasureFamilyResult
  executedAt : String
  deriving DecidableEq

/-- One pass over a claimed action: who executes it, when, and the random digits of its receipt. -/
structure ErasurePass where
  caller : Governance.AuthenticatedCaller
  record : Governance.GovernedActionRecord
  now : ℤ
  hex : String

def ErasurePass.tenantId (pass : ErasurePass) : String := pass.record.actionPayload.text "tenant_id"

/-- A computation over the stores. -/
abbrev Erasing (α : Type) := Stepwise DataStores Raised α

open Stepwise

namespace Environment

variable (env : Environment)

/-! ### Executors -/

/-- The records that one round of `_erase_audit_evidence` lists. -/
def auditBatch (tenantId : String) (s : DataStores) : List AuditRecord :=
  ((env.listing .auditRecords).arrange
    ((s.tables .auditRecords).list.filter fun record => record.tenantId = some tenantId)).take
      erasureBatchLimit

/-- The loop of `_erase_audit_evidence`, for so many rounds at most. -/
def eraseAuditRounds (tenantId : String) : ℕ → Erasing ℕ
  | 0 => pure 0
  | rounds + 1 => do
    let records ← read (env.auditBatch tenantId)
    if records = [] then
      return 0
    let ids := records.map (·.requestId)
    let erased ← modify fun s =>
      ((s.tables .auditRecords).countOf ids, s.removeRows .auditRecords ids)
    let others ← eraseAuditRounds tenantId rounds
    return erased + others

/-- `_erase_audit_evidence`. A round that finds records deletes one at least, so there are no more
rounds than records, and one that finds none. -/
def eraseAuditEvidence (tenantId : String) : Erasing (ℕ × Option ℕ) := fun s =>
  (do
    let erased ← env.eraseAuditRounds tenantId ((s.tables .auditRecords).list.length + 1)
    return (erased, none)) s

/-- One table of `_erase_workflow_run_records`. Its scan is unbounded. -/
def eraseTable (tenantId : String) (t : RetainedTable) : Erasing ℕ := do
  let rows ← read fun s => (env.listing t).arrange (s.tables t).list
  let ids := (rows.filter fun row => t.tenant? row = some tenantId).map t.key
  if ids = [] then
    return 0
  modify fun s =>
    ((s.tables t).countOf ids + (s.dependents ids t).1, s.removeRows t ids)

/-- The tables, one after the other. -/
def eraseTables (tenantId : String) : List RetainedTable → Erasing ℕ
  | [] => pure 0
  | t :: rest => do
    let erased ← env.eraseTable tenantId t
    let others ← eraseTables tenantId rest
    return erased + others

/-- `_erase_workflow_run_records`. -/
def eraseWorkflowRunRecords (tenantId : String) : Erasing (ℕ × Option ℕ) := do
  let erased ← env.eraseTables tenantId FamilyHandler.workflowRunRecords.tables
  return (erased, none)

end Environment

def tenantJobs (tenantId : String) (s : DataStores) : List String :=
  (s.asyncRuntime.jobs.list.filter fun job => job.tenantId = some tenantId).map (·.jobId)

/-- `_erase_async_runtime_content`. -/
def eraseAsyncRuntimeContent (tenantId : String) : Erasing (ℕ × Option ℕ) := do
  let listed ← read fun s => (tenantJobs tenantId s,
    s.asyncRuntime.jobs.list.countP fun job => job.tenantId = none)
  if listed.1 = [] then
    return (0, some listed.2)
  let deleted ← modify fun s =>
    let out := s.asyncRuntime.deleteJobRecords listed.1
    (out.1, { s with asyncRuntime := out.2 })
  return (deleted.1 + deleted.2.1 + deleted.2.2, some listed.2)

def tenantArtifacts (tenantId : String) (s : DataStores) : List ArtifactRecord :=
  s.artifacts.listArtifacts.filter fun record => record.tenantId = some tenantId

/-- The payloads of some artifacts, one call for each. -/
def eraseObjects : List ArtifactRecord → Erasing Unit
  | [] => pure ()
  | record :: rest => do
    modify fun s => ((), { s with artifacts := s.artifacts.deleteObject record.objectKey })
    eraseObjects rest

/-- `_erase_artifact_content`: the payloads go first, then the rows. -/
def eraseArtifactContent (tenantId : String) : Erasing (ℕ × Option ℕ) := do
  let listed ← read fun s => (tenantArtifacts tenantId s,
    s.artifacts.listArtifacts.countP fun record => record.tenantId = none)
  if listed.1 = [] then
    return (0, some listed.2)
  eraseObjects listed.1
  let deleted ← modify fun s =>
    let out := s.artifacts.deleteArtifacts (listed.1.map (·.artifactId))
    (out.1, { s with artifacts := out.2 })
  return (deleted, some listed.2)

/-- `save_lifecycle_event`. In memory an event replaces the one under its identifier; the database
refuses a second row. -/
def saveLifecycleEvent (adapter : Budget.Adapter) (event : DataLifecycleEvent) : Erasing Unit :=
  call fun s =>
    if adapter = .sqlalchemy ∧ ((s.tables .lifecycleEvents).get? event.eventId).isSome then
      (.error (.other "IntegrityError"), s)
    else (.ok (), s.saveLifecycleEvent event)

namespace Environment

variable (env : Environment) (adapter : Budget.Adapter)

/-- `_ERASURE_EXECUTORS`. -/
def erase (executor : ErasureExecutor) (tenantId : String) : Erasing (ℕ × Option ℕ) :=
  match executor with
  | .auditEvidence => env.eraseAuditEvidence tenantId
  | .workflowRunRecords => env.eraseWorkflowRunRecords tenantId
  | .asyncRuntimeContent => eraseAsyncRuntimeContent tenantId
  | .artifactContent => eraseArtifactContent tenantId

/-! ### The callback -/

/-- `_family_erasure_event_id`. -/
def familyErasureEventId (actionId familyId : String) : String :=
  let digest := String.ofList ((env.sha256 s!"{actionId}:{familyId}").toList.take 24)
  s!"dle_{digest}"

/-- The newest ten thousand events. -/
def listLifecycleEvents (s : DataStores) : List DataLifecycleEvent :=
  ((env.listing .lifecycleEvents).arrange (s.tables .lifecycleEvents).list).take 10000

/-- The event that an earlier pass has written for a family, if it is listed. -/
def priorEvent (actionId familyId : String) (s : DataStores) : Option DataLifecycleEvent :=
  (env.listLifecycleEvents s).find? fun event =>
    event.eventId = env.familyErasureEventId actionId familyId

/-- The count of an event, or none. -/
def eventCount (event : Option DataLifecycleEvent) : ℕ := (event.map (·.rowCount)).getD 0

def erasureEvent (policyVersion : String) (pass : ErasurePass) (familyId : String) (erased : ℕ) :
    DataLifecycleEvent :=
  let now := env.isoformat pass.now
  let tenantId := pass.tenantId
  let key := pass.caller.credentialKeyId.getD "None"
  { eventId := env.familyErasureEventId pass.record.actionId familyId
    familyId := familyId
    action := .erasure
    keyScope := some s!"tenant:{tenantId}"
    rowCount := erased
    policyVersion := policyVersion
    actor := s!"{pass.caller.callerApp} (credential {key})"
    deletedIdsDigest := env.sha256 s!"{familyId}:{tenantId}:{erased}:{now}"
    recordedAt := now }

/-- Write the event of a family from which something is erased. -/
def recordErasure (policyVersion : String) (pass : ErasurePass) (familyId : String) (erased : ℕ) :
    Erasing Unit :=
  if erased = 0 then pure ()
  else saveLifecycleEvent adapter (env.erasureEvent policyVersion pass familyId erased)

/-- One round of `_execute_erasure`. What an earlier pass has counted is merged by taking the larger
of the two counts. -/
def eraseFamily (policyVersion : String) (pass : ErasurePass) (familyId : String) :
    Erasing DataErasureFamilyResult := do
  let held ← read fun s => s.heldTenants familyId
  if pass.tenantId ∈ held then
    return { familyId, erasedCount := 0, held := true }
  match ErasureExecutor.of? familyId with
  | none => raise (.other "KeyError")
  | some executor =>
    let counted ← env.erase executor pass.tenantId
    let prior ← read (env.priorEvent pass.record.actionId familyId)
    let erased := max counted.1 (eventCount prior)
    env.recordErasure adapter policyVersion pass familyId erased
    return { familyId, erasedCount := erased, held := false, unattributableCount := counted.2 }

/-- The loop of `_execute_erasure`. -/
def eraseFamilies (policyVersion : String) (pass : ErasurePass) :
    List String → Erasing (List DataErasureFamilyResult)
  | [] => pure []
  | familyId :: rest => do
    let first ← env.eraseFamily adapter policyVersion pass familyId
    let others ← eraseFamilies policyVersion pass rest
    return first :: others

/-- `_execute_erasure`, under the shipped policy. -/
def executeErasure (pass : ErasurePass) : Erasing (List DataErasureFamilyResult) :=
  env.eraseFamilies adapter retentionPolicy.policyVersion pass
    (tenantErasableFamilyIds retentionPolicy)

/-- `_issue_receipt`, without the signature. -/
def issueReceipt (pass : ErasurePass) (families : List DataErasureFamilyResult) :
    DataErasureReceiptClaims where
  schemaVersion := "lotus-ai.data-erasure-receipt.v1"
  issuer := "lotus-ai"
  receiptId := s!"der_{pass.hex}"
  tenantId := pass.record.target
  reason := pass.record.actionPayload.text "reason"
  policyVersion := retentionPolicy.policyVersion
  governedActionId := pass.record.actionId
  families := families
  executedAt := env.isoformat pass.now

/-- `approve_data_erasure`, from the claim on: the callback, and the receipt of its results. -/
def approveDataErasure (pass : ErasurePass) : Erasing DataErasureReceiptClaims := do
  let results ← env.executeErasure adapter pass
  return env.issueReceipt pass results

end Environment

end LotusAI.Lifecycle
