import LotusAI.Provider.Records

/-!
# The candidate universe

`derive_candidate_universe`: the serving order bounded by what the catalogue and the
connection material allow. Whatever may not serve is excluded with a reason.
-/

namespace LotusAI.Provider

/-- `CandidateUniverseExclusionReason`. -/
inductive ExclusionReason
  | modelNotCatalogued
  | lifecycleIneligible
  | policyExcluded
  | connectionMaterialMissing
  deriving DecidableEq

/-- `CandidateUniverseExclusionDescriptor`. -/
structure Exclusion where
  entryId : String
  reason : ExclusionReason
  detail : String
  deriving DecidableEq

/-- `CandidateUniverseSource`. -/
inductive UniverseSource
  | configured
  | catalogueDerived
  deriving DecidableEq

/-- `CandidateUniverse`. -/
structure CandidateUniverse where
  source : UniverseSource
  candidateEntryIds : List String
  exclusions : List Exclusion
  servingPolicyVersion : Option ℕ
  deriving DecidableEq

/-- `ModelLifecycleState`. -/
inductive ModelLifecycleState
  | discovered
  | catalogued
  | evaluating
  | approved
  | shadow
  | canary
  | production
  | degraded
  | deprecated
  | retired
  deriving DecidableEq

/-- The text of a lifecycle state. -/
def ModelLifecycleState.value : ModelLifecycleState → String
  | discovered => "DISCOVERED"
  | catalogued => "CATALOGUED"
  | evaluating => "EVALUATING"
  | approved => "APPROVED"
  | shadow => "SHADOW"
  | canary => "CANARY"
  | production => "PRODUCTION"
  | degraded => "DEGRADED"
  | deprecated => "DEPRECATED"
  | retired => "RETIRED"

/-- `_EXECUTION_INELIGIBLE_LIFECYCLE_STATES`. -/
def ModelLifecycleState.ineligible (state : ModelLifecycleState) : Bool :=
  state ∈ [degraded, deprecated, retired]

/-- `ModelCatalogueEntry`, as far as serving reads it. -/
structure CatalogueEntry where
  entryId : String
  candidateIdV2 : String
  providerMode : String
  modelRevision : String
  revisionPinned : Bool
  lifecycleState : ModelLifecycleState
  deriving DecidableEq

/-- `resolve_catalogue_entry_by_identity`: the canonical id, or the human-readable row key. -/
def resolveCatalogueEntryByIdentity (catalogue : List CatalogueEntry) (identity : String) :
    Option CatalogueEntry :=
  if identity.startsWith "cand2_" then catalogue.find? (·.candidateIdV2 = identity)
  else catalogue.find? (·.entryId = identity)

/-- What is decided about one identity of the serving order: excluded, or a candidate. Either
way the entry that was considered, if there is one. -/
def considerIdentity (catalogue : List CatalogueEntry) (hasMaterial : String → Bool)
    (identity : String) : Option CatalogueEntry × Except Exclusion String :=
  match resolveCatalogueEntryByIdentity catalogue identity with
  | none => (none, .error ⟨identity, .modelNotCatalogued,
      s!"Policy orders `{identity}` but no governed catalogue entry exists for it."⟩)
  | some entry =>
    if entry.lifecycleState.ineligible then
      (some entry, .error ⟨entry.entryId, .lifecycleIneligible,
        s!"`{entry.entryId}` is {entry.lifecycleState.value} and not " ++
        "eligible to serve new executions."⟩)
    else if hasMaterial entry.candidateIdV2 = false then
      (some entry, .error ⟨entry.entryId, .connectionMaterialMissing,
        s!"Policy orders `{entry.entryId}` but no governed connection " ++
        "material says how to reach it (issue #295)."⟩)
    else (some entry, .ok entry.candidateIdV2)

/-- The candidates among the verdicts, in order. -/
def candidatesOf (verdicts : List (Option CatalogueEntry × Except Exclusion String)) :
    List String :=
  verdicts.filterMap fun verdict => verdict.2.toOption

/-- The exclusions among the verdicts, in order. -/
def exclusionsOf (verdicts : List (Option CatalogueEntry × Except Exclusion String)) :
    List Exclusion :=
  verdicts.filterMap fun verdict => match verdict.2 with
    | .error exclusion => some exclusion
    | .ok _ => none

/-- `derive_candidate_universe`, over the listed catalogue, the serving order and its policy
version, and the identities that have connection material. -/
def deriveCandidateUniverse (catalogue : List CatalogueEntry) (order : List String)
    (servingPolicyVersion : Option ℕ) (hasMaterial : String → Bool) (providerMode : String) :
    CandidateUniverse :=
  let verdicts := order.map (considerIdentity catalogue hasMaterial)
  let exclusions := exclusionsOf verdicts
  let considered := verdicts.filterMap fun verdict => verdict.1.map (·.candidateIdV2)
  -- serving-eligible entries of this mode that no policy row names
  let unordered := catalogue.filter fun entry =>
    entry.candidateIdV2 ∉ considered && entry.entryId ∉ exclusions.map (·.entryId) &&
      entry.providerMode = providerMode && !entry.lifecycleState.ineligible
  { source := .catalogueDerived
    candidateEntryIds := candidatesOf verdicts
    exclusions := exclusions ++ unordered.map fun entry =>
      ⟨entry.entryId, .policyExcluded,
        s!"`{entry.entryId}` is serving-eligible for mode " ++
        s!"`{providerMode}` but no policy row lets it serve."⟩
    servingPolicyVersion := servingPolicyVersion }

end LotusAI.Provider
