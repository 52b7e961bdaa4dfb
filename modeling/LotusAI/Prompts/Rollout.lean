import LotusAI.Governance.Actions
import LotusAI.Lib.Table

/-!
# Prompt rollout

`prompt_rollout_control`, as far as it computes on what it has read: which versions of a
prompt exist, which one is active for a task, what a promotion and a rollback make of them, and
the payload a promotion is approved under. A promotion puts a new text in front of clients and
is governed; a rollback restores the previous one and is not.
-/

namespace LotusAI.Prompts

open Lib Governance

/-! ### Records -/

/-- `PromptLifecycleStatus`. -/
inductive PromptLifecycleStatus
  | active
  | candidate
  | retired
  deriving DecidableEq

/-- `PromptManagementMode`. -/
inductive PromptManagementMode
  | seededMemory
  | migrationManaged
  deriving DecidableEq

/-- `PromptRolloutSelectionMode`. -/
inductive PromptRolloutSelectionMode
  | governedStateReadOnly
  | governedControlActions
  deriving DecidableEq

/-- `PromptControlActionType`. -/
inductive PromptControlActionType
  | promoteCandidate
  | rollbackToPreviousActive
  deriving DecidableEq

/-- `PromptDescriptor`: one version of the prompt of a task. -/
structure PromptDescriptor where
  taskId : String
  promptVersion : String
  promptKind : String
  lifecycleStatus : PromptLifecycleStatus
  managementMode : PromptManagementMode
  sourceReference : String
  systemInstructions : String
  outputContractNotes : String
  deriving DecidableEq

/-- `PromptRolloutStateRecord`: which version is active for a task. -/
structure PromptRolloutState where
  taskId : String
  activePromptVersion : String
  candidatePromptVersion : Option String
  previousActivePromptVersion : Option String
  rolloutMode : PromptRolloutSelectionMode
  runtimeMutationEnabled : Bool
  deriving DecidableEq

/-- `PromptRolloutEventRecord`. -/
structure PromptRolloutEvent where
  eventId : String
  taskId : String
  actionType : PromptControlActionType
  requestedBy : String
  approvedBy : Option String
  reason : String
  priorActivePromptVersion : Option String
  resultingActivePromptVersion : Option String
  priorCandidatePromptVersion : Option String
  resultingCandidatePromptVersion : Option String
  authorization : AuthorizationDecision
  recordedAt : String
  deriving DecidableEq

/-- `EvaluationApprovalEvidenceState`. -/
inductive EvidenceState
  | noEvidence
  | stagedOnly
  | runtimeInProgress
  | runtimePartial
  | runtimePass
  | runtimeFail
  | runtimeStale
  deriving DecidableEq

/-- The text of an evidence state. -/
def EvidenceState.value : EvidenceState → String
  | noEvidence => "NO_EVIDENCE"
  | stagedOnly => "STAGED_ONLY"
  | runtimeInProgress => "RUNTIME_IN_PROGRESS"
  | runtimePartial => "RUNTIME_PARTIAL"
  | runtimePass => "RUNTIME_PASS"
  | runtimeFail => "RUNTIME_FAIL"
  | runtimeStale => "RUNTIME_STALE"

/-! ### Checks -/

/-- `_require_durable_prompt_control_plane`. -/
def requireDurablePromptControlPlane (promptStoreMode evaluationRuntimeStoreMode : String)
    (actionType : PromptControlActionType) : Except Raised Unit :=
  if promptStoreMode ≠ "sqlalchemy" then
    .error (conflict ("Prompt control actions require SQL-backed prompt rollout state so " ++
      "promote and rollback history remain durable across restart."))
  else if actionType = .promoteCandidate ∧ evaluationRuntimeStoreMode ≠ "sqlalchemy" then
    .error (conflict ("Prompt promotion requires SQL-backed evaluation runtime evidence so the " ++
      "approval gate remains durable across restart."))
  else .ok ()

/-- `_get_required_rollout_state`, of what was read for the task. -/
def requiredRolloutState (taskId : String) :
    Option PromptRolloutState → Except Raised PromptRolloutState
  | some state => .ok state
  | none => .error (notFound s!"Prompt rollout state for task_id '{taskId}' was not found.")

/-- `_get_required_prompt_version`, of what was read. -/
def requiredPromptVersion (taskId promptVersion : String) :
    Option PromptDescriptor → Except Raised PromptDescriptor
  | some prompt => .ok prompt
  | none => .error (conflict (s!"Prompt rollout state for task_id '{taskId}' references " ++
      s!"missing prompt version '{promptVersion}'."))

/-! ### Promotion -/

/-- The checks of a promotion before it reads a version: the approval gate, and a candidate
other than the active version. -/
def promotable (gate : EvidenceState) (state : PromptRolloutState)
    (candidatePromptVersion : Option String) : Except Raised String :=
  if gate ≠ .runtimePass then
    .error (conflict ("Prompt promotion is blocked until runtime-backed prompt approval " ++
      s!"evidence reaches RUNTIME_PASS. Current approval state: {gate.value}."))
  else match candidatePromptVersion with
    | none => .error
        (unprocessable "candidate_prompt_version is required for PROMOTE_CANDIDATE.")
    | some candidate =>
      if candidate = state.activePromptVersion then
        .error (conflict "Candidate prompt version already matches the active prompt version.")
      else .ok candidate

/-- The candidate that was read, if it is one. -/
def governedCandidate (taskId candidatePromptVersion : String) :
    Option PromptDescriptor → Except Raised PromptDescriptor
  | none => .error (notFound (s!"Candidate prompt version '{candidatePromptVersion}' was not " ++
      s!"found for task_id '{taskId}'."))
  | some prompt =>
    if prompt.lifecycleStatus ≠ .candidate then
      .error (conflict (s!"Prompt version '{candidatePromptVersion}' is not a governed " ++
        "candidate and cannot be promoted."))
    else .ok prompt

/-- What an action writes: the state, the versions it moves, and its event. -/
structure RolloutTransition where
  state : PromptRolloutState
  prompts : List PromptDescriptor
  event : PromptRolloutEvent
  deriving DecidableEq

/-- The result of `_build_promote_transition`, of what was read. The event id is `prompt_evt_`
and twelve random hexadecimal digits. -/
def promoteTransition (state : PromptRolloutState) (candidate active : PromptDescriptor)
    (taskId requestedBy approvedBy reason : String) (authorization : AuthorizationDecision)
    (hex now : String) : RolloutTransition where
  state :=
    { taskId := state.taskId
      activePromptVersion := candidate.promptVersion
      candidatePromptVersion := none
      previousActivePromptVersion := some active.promptVersion
      rolloutMode := .governedControlActions
      runtimeMutationEnabled := true }
  prompts := [{ active with lifecycleStatus := .retired },
    { candidate with lifecycleStatus := .active }]
  event :=
    { eventId := "prompt_evt_" ++ hex
      taskId := taskId
      actionType := .promoteCandidate
      requestedBy := requestedBy
      approvedBy := some approvedBy
      reason := reason
      priorActivePromptVersion := some active.promptVersion
      resultingActivePromptVersion := some candidate.promptVersion
      priorCandidatePromptVersion := state.candidatePromptVersion
      resultingCandidatePromptVersion := none
      authorization := authorization
      recordedAt := now }

/-- `_promotion_payload`: pins the prior active version. -/
def promotionPayload (taskId candidatePromptVersion priorActivePromptVersion reason : String) :
    Payload :=
  ((((Dict.empty.insert "action_type" (some GovernedActionType.promptPromote.value)).insert
    "task_id" (some taskId)).insert
    "candidate_prompt_version" (some candidatePromptVersion)).insert
    "prior_active_prompt_version" (some priorActivePromptVersion)).insert
    "reason" (some reason)

/-! ### Rollback -/

/-- The checks of a rollback before it reads a version. -/
def previousActive (state : PromptRolloutState) (taskId : String)
    (candidatePromptVersion : Option String) : Except Raised String :=
  if candidatePromptVersion ≠ none then
    .error (unprocessable
      "candidate_prompt_version must be omitted for ROLLBACK_TO_PREVIOUS_ACTIVE.")
  else match state.previousActivePromptVersion with
    | none => .error (conflict (s!"Prompt rollout state for task_id '{taskId}' has no prior " ++
        "active prompt available for rollback."))
    | some previous => .ok previous

/-- The result of `_build_rollback_transition`, of what was read. It has no approver. -/
def rollbackTransition (state : PromptRolloutState) (active previous : PromptDescriptor)
    (taskId requestedBy reason : String) (authorization : AuthorizationDecision)
    (hex now : String) : RolloutTransition where
  state :=
    { taskId := state.taskId
      activePromptVersion := previous.promptVersion
      candidatePromptVersion := some active.promptVersion
      previousActivePromptVersion := none
      rolloutMode := .governedControlActions
      runtimeMutationEnabled := true }
  prompts := [{ active with lifecycleStatus := .candidate },
    { previous with lifecycleStatus := .active }]
  event :=
    { eventId := "prompt_evt_" ++ hex
      taskId := taskId
      actionType := .rollbackToPreviousActive
      requestedBy := requestedBy
      approvedBy := none
      reason := reason
      priorActivePromptVersion := some active.promptVersion
      resultingActivePromptVersion := some previous.promptVersion
      priorCandidatePromptVersion := state.candidatePromptVersion
      resultingCandidatePromptVersion := some active.promptVersion
      authorization := authorization
      recordedAt := now }

/-! ### The store -/

/-- A version is stored under its task and its label. -/
abbrev PromptDescriptor.key (prompt : PromptDescriptor) : String × String :=
  (prompt.taskId, prompt.promptVersion)

/-- The prompt tables. -/
structure PromptStore where
  versions : Table PromptDescriptor.key
  rollouts : Table PromptRolloutState.taskId
  events : List PromptRolloutEvent

/-- The stored version after a transition: its text and its kind are not written. -/
def PromptDescriptor.managedAs (stored written : PromptDescriptor) : PromptDescriptor :=
  { stored with
    lifecycleStatus := written.lifecycleStatus
    managementMode := written.managementMode
    sourceReference := written.sourceReference }

/-- Write the versions a transition moves. A version has to be there, with the text it is
written with; the hashes the store compares are equal exactly if the texts are. -/
def saveVersions (versions : Table PromptDescriptor.key) :
    List PromptDescriptor → Except Raised (Table PromptDescriptor.key)
  | [] => .ok versions
  | written :: rest =>
    match versions.get? written.key with
    | none => .error (.other "RuntimeError")
    | some stored =>
      if written.systemInstructions ≠ stored.systemInstructions ∨
          written.outputContractNotes ≠ stored.outputContractNotes then
        .error (.other "RuntimeError")
      else saveVersions (versions.upsert (stored.managedAs written)) rest

/-- `save_prompt_rollout_transition`: one transaction. -/
def PromptStore.saveRolloutTransition (store : PromptStore) (transition : RolloutTransition) :
    Except Raised PromptStore := do
  let versions ← saveVersions store.versions transition.prompts
  match store.rollouts.get? transition.state.taskId with
  | none => throw (.other "RuntimeError")
  | some _ => return {
      versions := versions
      rollouts := store.rollouts.upsert transition.state
      events := store.events ++ [transition.event] }

end LotusAI.Prompts
