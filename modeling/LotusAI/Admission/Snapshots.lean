import LotusAI.Admission.Leases

/-!
# Queue request snapshots

A request that enters the queue is kept whole, as the payload of an artifact, so that a worker or
a recovery can execute it later. The artifact is written by the helper that reuses artifacts,
and that helper takes no tenant.
-/

namespace LotusAI.Admission

open Artifacts

/-- `CallerMetadata`. -/
structure CallerMetadata where
  callerApp : String
  correlationId : String
  requestedBy : Option String := none
  tenantId : Option String := none
  deriving DecidableEq

/-- `TaskExecutionRequest`: who asks, and the task with its context, as a text. -/
structure TaskExecutionRequest where
  taskId : String
  caller : CallerMetadata
  context : String
  deriving DecidableEq

/-- `WorkflowPackEnvironment`. -/
inductive WorkflowPackEnvironment
  | local
  | development
  | qa
  | uat
  | production
  deriving DecidableEq

/-- `WorkflowPackCallerIdentityClass`. -/
inductive WorkflowPackCallerIdentityClass
  | internalService
  | bankerProduct
  | operatorSupport
  | platformAutomation
  deriving DecidableEq

/-- `WorkflowPackRegistrationDescriptor`, as far as the queue reads it. -/
structure WorkflowPackRegistration where
  packId : String
  version : String
  workflowAuthorityOwner : String
  deriving DecidableEq

/-- The object that a snapshot is the text of. -/
structure QueueRequestSnapshot where
  queueItemId : String
  packId : String
  packVersion : String
  registrationRef : String
  workflowAuthorityOwner : String
  queueLane : WorkflowPackQueueLane
  workflowSurface : Option String
  environment : Option WorkflowPackEnvironment
  callerIdentityClass : Option WorkflowPackCallerIdentityClass
  idempotencyKey : Option String
  idempotencyRequestFingerprint : Option String
  taskRequest : TaskExecutionRequest
  deriving DecidableEq

/-- What a snapshot is taken of. -/
structure SnapshotInput where
  registration : WorkflowPackRegistration
  lane : WorkflowPackQueueLane
  taskRequest : TaskExecutionRequest
  workflowSurface : Option String
  environment : Option WorkflowPackEnvironment
  callerIdentityClass : Option WorkflowPackCallerIdentityClass
  idempotencyKey : Option String := none
  idempotencyRequestFingerprint : Option String := none
  deriving DecidableEq

def SnapshotInput.snapshot (input : SnapshotInput) (queueItemId : String) :
    QueueRequestSnapshot where
  queueItemId := queueItemId
  packId := input.registration.packId
  packVersion := input.registration.version
  registrationRef := s!"{input.registration.packId}@{input.registration.version}"
  workflowAuthorityOwner := input.registration.workflowAuthorityOwner
  queueLane := input.lane
  workflowSurface := input.workflowSurface
  environment := input.environment
  callerIdentityClass := input.callerIdentityClass
  idempotencyKey := input.idempotencyKey
  idempotencyRequestFingerprint := input.idempotencyRequestFingerprint
  taskRequest := input.taskRequest

/-- How artifacts are written: the digest, the backend, and the text of a snapshot. -/
structure ArtifactWriter where
  sha256 : String → String
  backend : ArtifactStorageBackend
  /-- `json.dumps` of a snapshot. -/
  dumps : QueueRequestSnapshot → String

def SnapshotInput.draft (input : SnapshotInput) (writer : ArtifactWriter)
    (queueItemId createdAt : String) : ArtifactDraft where
  domain := "workflow_pack"
  artifactType := "queue_request_snapshot"
  sourceObjectKind := "workflow_pack_queue_item"
  sourceObjectId := queueItemId
  createdAt := createdAt
  createdBy := "lotus-ai.workflow-pack-queue-admission"
  payloadJson := writer.dumps (input.snapshot queueItemId)
  retentionPosture := "retained_for_recovery"

/-- `persist_workflow_pack_queue_request_snapshot`. -/
def persistWorkflowPackQueueRequestSnapshot (writer : ArtifactWriter)
    (queueItemId hex createdAt : String) (input : SnapshotInput) (store : ArtifactStore) :
    ArtifactDescriptor × ArtifactStore :=
  persistOrReuseJsonArtifact writer.sha256 writer.backend hex
    (input.draft writer queueItemId createdAt) store

end LotusAI.Admission
