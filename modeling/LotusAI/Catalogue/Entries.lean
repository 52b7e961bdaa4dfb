import LotusAI.Http
import LotusAI.Lib.CanonicalJson
import LotusAI.Provider.Universe

/-!
# The model catalogue

One row for an exact model identity: who serves it, in which lifecycle state it is, what has
been assessed about it and which of its capabilities an operator has degraded. A row is
stored under a readable key that leaves out the family and separates its parts by colons; the
canonical identity is a digest of the full serving tuple.

Key and canonical identity are functions of the tuple: the source checks at every write that
they are, and no operation changes the tuple of a row.
-/

namespace LotusAI.Catalogue

open Lib Provider

/-! ### Identities -/

/-- The immutable serving tuple of a candidate. -/
structure ServingTuple where
  providerId : String
  modelFamily : String
  modelRevision : String
  deployment : Option String
  deriving DecidableEq

/-- The row key: `derive_model_catalogue_entry_id`. -/
def ServingTuple.entryId (tuple : ServingTuple) : String :=
  deriveModelCatalogueEntryId tuple.providerId tuple.modelRevision tuple.deployment

/-- `CANDIDATE_IDENTITY_V2_PREFIX`. -/
def candidateIdentityV2Prefix : String := "cand2_"

/-- The minified JSON of a tuple, with sorted keys and its texts verbatim. -/
def candidateText (tuple : ServingTuple) : List Char :=
  "\x7b\"deployment\":".toList ++ (nullable quotedVerbatim tuple.deployment ++
    (",\"model_family\":".toList ++ (quotedVerbatim tuple.modelFamily ++
      (",\"model_revision\":".toList ++ (quotedVerbatim tuple.modelRevision ++
        (",\"provider_id\":".toList ++ (quotedVerbatim tuple.providerId ++
          ",\"v\":2\x7d".toList)))))))

/-- `derive_candidate_identity_v2`, over the digest `sha256` of a text. -/
def ServingTuple.candidateIdV2 (sha256 : String → String) (tuple : ServingTuple) : String :=
  candidateIdentityV2Prefix ++ sha256 (String.ofList (candidateText tuple))

/-- The digested text determines the tuple. -/
theorem candidateText_injective : Function.Injective candidateText := by
  intro a b h
  obtain ⟨pa, fa, ra, da⟩ := a
  obtain ⟨pb, fb, rb, db⟩ := b
  unfold candidateText at h
  obtain ⟨hdeployment, h⟩ := selfDelimiting_nullableVerbatim (List.append_cancel_left h)
  obtain ⟨hfamily, h⟩ := selfDelimiting_quotedVerbatim (List.append_cancel_left h)
  obtain ⟨hrevision, h⟩ := selfDelimiting_quotedVerbatim (List.append_cancel_left h)
  obtain ⟨hprovider, -⟩ := selfDelimiting_quotedVerbatim (List.append_cancel_left h)
  simp_all

theorem candidateIdV2_injective {sha256 : String → String} (hsha : Function.Injective sha256) :
    Function.Injective (ServingTuple.candidateIdV2 sha256) := by
  intro a b h
  have hlists := congrArg String.toList h
  rw [ServingTuple.candidateIdV2, ServingTuple.candidateIdV2, String.toList_append,
    String.toList_append] at hlists
  exact candidateText_injective
    (String.ofList_injective (hsha (String.toList_inj.mp (List.append_cancel_left hlists))))

/-! ### Lifecycle -/

/-- `ALLOWED_MODEL_LIFECYCLE_TRANSITIONS`. -/
def allowedModelLifecycleTransitions : ModelLifecycleState → List ModelLifecycleState
  | .discovered => [.catalogued]
  | .catalogued => [.evaluating, .deprecated]
  | .evaluating => [.approved, .catalogued, .deprecated]
  | .approved => [.shadow, .canary, .production, .degraded, .deprecated]
  | .shadow => [.canary, .approved, .deprecated]
  | .canary => [.production, .approved, .degraded, .deprecated]
  | .production => [.degraded, .deprecated]
  | .degraded => [.production, .canary, .deprecated]
  | .deprecated => [.retired]
  | .retired => []

/-- `MODEL_SERVING_PROMOTION_TARGETS`. -/
def modelServingPromotionTargets : List ModelLifecycleState :=
  [.approved, .shadow, .canary, .production]

/-- `OPERATOR_TERMINAL_LIFECYCLE_STATES`. -/
def operatorTerminalLifecycleStates : List ModelLifecycleState := [.deprecated, .retired]

/-- The state a stored text names, `ModelLifecycleState(text)`. -/
def lifecycleStateOf? (text : String) : Option ModelLifecycleState :=
  [.discovered, .catalogued, .evaluating, .approved, .shadow, .canary, .production, .degraded,
    .deprecated, .retired].find? fun state => state.value = text

/-- `DEGRADABLE_CAPABILITY_DIMENSIONS`, sorted. -/
def degradableCapabilityDimensions : List String :=
  ["supports_structured_output", "supports_tool_calling"]

/-! ### Rows -/

/-- `ModelCatalogueSeedSource`. -/
inductive SeedSource
  | settingsLiveText
  | approvedWorkflowRunModelInventory
  | operator
  deriving DecidableEq

/-- `ModelCapabilityDegradation`. -/
structure CapabilityDegradation where
  dimension : String
  reason : String
  degradedBy : String
  degradedAt : String
  deriving DecidableEq

/-- `ModelCatalogueEntry`. -/
structure ModelCatalogueEntry extends ServingTuple where
  providerMode : String
  sku : Option String
  lifecycleState : ModelLifecycleState
  revisionPinned : Bool
  modalities : List String
  contextWindowTokens : Option ℕ
  maxOutputTokens : Option ℕ
  supportsStructuredOutput : Option Bool
  supportsToolCalling : Option Bool
  supportsStreaming : Option Bool
  capabilityDegradations : Dict String CapabilityDegradation
  approvedWorkflowPackIds : List String
  approvalEvidenceRefs : List String
  approvedFromUtc : Option String
  approvedUntilUtc : Option String
  seedSource : SeedSource
  createdAt : String
  lastUpdatedAt : String
  deriving DecidableEq

/-- The part of a row that serving reads. -/
def ModelCatalogueEntry.serving (sha256 : String → String) (entry : ModelCatalogueEntry) :
    CatalogueEntry where
  entryId := entry.entryId
  candidateIdV2 := entry.candidateIdV2 sha256
  providerMode := entry.providerMode
  modelRevision := entry.modelRevision
  revisionPinned := entry.revisionPinned
  lifecycleState := entry.lifecycleState

/-- `ModelLifecycleTransitionRecord`. -/
structure ModelLifecycleTransition where
  eventId : String
  entryId : String
  fromState : ModelLifecycleState
  toState : ModelLifecycleState
  reason : String
  requestedBy : String
  approvedBy : Option String
  approvalEvidenceRef : Option String
  recordedAt : String
  deriving DecidableEq

/-- What produced a version of the serving policy. -/
inductive PolicyAction
  | identityAdd
  | identityRemove
  deriving DecidableEq

/-- `ServingPolicyVersionRecord`. -/
structure ServingPolicyVersion where
  version : ℕ
  orderedEntryIds : List String
  action : PolicyAction
  changedEntryId : String
  requestedByKeyId : String
  approverKeyId : Option String
  governedActionId : Option String
  recordedAt : String
  deriving DecidableEq

/-! ### Lookups -/

/-- `get_entry_by_candidate_id`. -/
def getEntryByCandidateId (sha256 : String → String) (entries : Dict String ModelCatalogueEntry)
    (candidateIdV2 : String) : Option ModelCatalogueEntry :=
  entries.values.find? fun entry => entry.candidateIdV2 sha256 = candidateIdV2

/-- `resolve_catalogue_entry_by_identity`, over the stored rows. -/
def resolveEntry (sha256 : String → String) (entries : Dict String ModelCatalogueEntry)
    (identity : String) : Option ModelCatalogueEntry :=
  if identity.startsWith candidateIdentityV2Prefix then
    getEntryByCandidateId sha256 entries identity
  else entries.get? identity

/-- `get_current_serving_policy`: the highest version. -/
def getCurrentServingPolicy (policies : Dict ℕ ServingPolicyVersion) :
    Option ServingPolicyVersion :=
  policies.keys.max?.bind policies.get?

end LotusAI.Catalogue
