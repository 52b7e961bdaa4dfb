import LotusAI.Governance.Fence
import LotusAI.Idempotency.ExactlyOnce
import LotusAI.AsyncRuntime.LostUpdate
import LotusAI.Provider.Limits
import LotusAI.Budget.Resets
import LotusAI.KillSwitch.Totality
import LotusAI.Catalogue.RowKeys
import LotusAI.ControlPlane.Baselines
import LotusAI.Governance.Recovery
import LotusAI.Lifecycle.LiveRows
import LotusAI.Lifecycle.Completeness
import LotusAI.Lifecycle.ErasureReceipts
import LotusAI.AsyncRuntime.Adapters
import LotusAI.AsyncRuntime.TargetJobs
import LotusAI.AsyncRuntime.Identities
import LotusAI.Callers.Credential
import LotusAI.Prompts.OneActive
import LotusAI.Admission.RecoveryDecisions
import LotusAI.Governance.Intents
import LotusAI.Provider.Degradation
import LotusAI.WorkflowPacks.SourceEvents
import LotusAI.Retrieval.ActiveVersion
