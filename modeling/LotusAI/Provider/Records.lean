import Mathlib.Data.List.Sort

/-!
# Records of provider execution

The bounded failure vocabulary, the execution config of a serving candidate, and the
errors provider code raises.
-/

namespace LotusAI.Provider

/-- `ProviderFailureCategory`. -/
inductive FailureCategory
  | unsupportedMode
  | liveExecutionNotEnabled
  | providerNotRegistered
  | invalidLiveConfiguration
  | invalidQuotaConfiguration
  | invalidBudgetConfiguration
  | taskNotAllowlisted
  | quotaExceeded
  | budgetExceeded
  | modelNotCatalogued
  | modelLifecycleIneligible
  | killSwitchActive
  | circuitOpen
  | capabilityNotSupported
  | capabilityUnknown
  | capabilityDegraded
  | requestDeadlineExhausted
  | requestCostExhausted
  | providerTimeout
  | providerRateLimited
  | providerUpstreamError
  deriving DecidableEq

namespace FailureCategory

/-- The text of a category. -/
def value : FailureCategory → String
  | unsupportedMode => "UNSUPPORTED_MODE"
  | liveExecutionNotEnabled => "LIVE_EXECUTION_NOT_ENABLED"
  | providerNotRegistered => "PROVIDER_NOT_REGISTERED"
  | invalidLiveConfiguration => "INVALID_LIVE_CONFIGURATION"
  | invalidQuotaConfiguration => "INVALID_QUOTA_CONFIGURATION"
  | invalidBudgetConfiguration => "INVALID_BUDGET_CONFIGURATION"
  | taskNotAllowlisted => "TASK_NOT_ALLOWLISTED"
  | quotaExceeded => "QUOTA_EXCEEDED"
  | budgetExceeded => "BUDGET_EXCEEDED"
  | modelNotCatalogued => "MODEL_NOT_CATALOGUED"
  | modelLifecycleIneligible => "MODEL_LIFECYCLE_INELIGIBLE"
  | killSwitchActive => "KILL_SWITCH_ACTIVE"
  | circuitOpen => "CIRCUIT_OPEN"
  | capabilityNotSupported => "CAPABILITY_NOT_SUPPORTED"
  | capabilityUnknown => "CAPABILITY_UNKNOWN"
  | capabilityDegraded => "CAPABILITY_DEGRADED"
  | requestDeadlineExhausted => "REQUEST_DEADLINE_EXHAUSTED"
  | requestCostExhausted => "REQUEST_COST_EXHAUSTED"
  | providerTimeout => "PROVIDER_TIMEOUT"
  | providerRateLimited => "PROVIDER_RATE_LIMITED"
  | providerUpstreamError => "PROVIDER_UPSTREAM_ERROR"

/-- `_FALLBACK_TRIGGER_CATEGORIES`. -/
def isFallbackTrigger (category : FailureCategory) : Bool :=
  category ∈ [providerTimeout, providerRateLimited, providerUpstreamError, requestCostExhausted]

end FailureCategory

/-- `ProviderExecutionError`. -/
structure ProviderError where
  category : FailureCategory
  message : String
  deriving DecidableEq

/-- A string that Python would take for true. -/
def truthy (text : Option String) : Option String := text.filter (· ≠ "")

/-- `ProviderExecutionConfig`, as far as routing reads it. -/
structure ExecutionConfig where
  providerId : Option String
  modelId : Option String
  modelVersion : Option String
  deployment : Option String
  deriving DecidableEq

/-- `derive_model_catalogue_entry_id`. -/
def deriveModelCatalogueEntryId (providerId modelRevision : String) (deployment : Option String) :
    String :=
  match truthy deployment with
  | some name => s!"{providerId}:{modelRevision}:{name}"
  | none => s!"{providerId}:{modelRevision}"

end LotusAI.Provider
