import LotusAI.Catalogue.PolicyHistory
import LotusAI.Lib.StateTriple
import LotusAI.Provider.Execution
import LotusAI.Provider.Routing

/-!
# Who serves under a serving policy

From the settings, the catalogue and the stored policy to the live request that the gateway
executes. Under ordered fallback the candidates are the identities of the operative order that
are catalogued, eligible and reachable. Under the fixed strategy the one candidate is the
configured primary, and the policy is not consulted.
-/

namespace LotusAI.Catalogue

open Lib Provider Keeping List Option

/-! ### Connection material -/

/-- `ProviderConnectionMaterial`, as far as it says who is reached. -/
structure ConnectionMaterial where
  providerId : String
  modelId : String
  modelVersion : Option String
  deployment : Option String
  seeded : Bool
  deriving DecidableEq

/-- The candidate the material is for. -/
def ConnectionMaterial.tuple (material : ConnectionMaterial) : ServingTuple where
  providerId := material.providerId
  modelFamily := material.modelId
  modelRevision := (truthy material.modelVersion).getD material.modelId
  deployment := material.deployment

/-- The settings of live serving. Declared connection material is parsed, or there is a finding
on it; parsing refuses unnamed providers and models. -/
structure ServingSettings extends SeedSettings where
  routingStrategy : String
  fallbackApiBase : Option String
  declared : Except String (List ConnectionMaterial)
  declared_named : ∀ materials, declared = .ok materials → ∀ material ∈ materials,
    material.providerId ≠ "" ∧ material.modelId ≠ "" ∧ material.seeded = false

namespace ServingSettings

variable (settings : ServingSettings)

/-- `resolve_provider_execution_config`. The settings pair never names a deployment. -/
def config : ExecutionConfig where
  providerId := settings.providerId
  modelId := settings.modelId
  modelVersion := settings.modelVersion
  deployment := none

/-- `fallback_identity_configured`. -/
def fallbackConfigured : Bool :=
  (truthy settings.fallbackProviderId).isSome && (truthy settings.fallbackModelId).isSome &&
    (truthy settings.fallbackApiBase).isSome

/-- `derive_fallback_execution_config`. -/
def fallbackConfig : Option ExecutionConfig :=
  if settings.fallbackConfigured then
    some ⟨settings.fallbackProviderId, settings.fallbackModelId, settings.fallbackModelVersion,
      none⟩
  else none

/-- `fallback_configuration_findings`. -/
def fallbackConfigurationFindings : List String :=
  let required := [("LOTUS_AI_LIVE_TEXT_FALLBACK_API_BASE", settings.fallbackApiBase),
    ("LOTUS_AI_LIVE_TEXT_FALLBACK_MODEL_ID", settings.fallbackModelId),
    ("LOTUS_AI_LIVE_TEXT_FALLBACK_PROVIDER_ID", settings.fallbackProviderId)]
  let supplied := required.filter fun entry => (truthy entry.2).isSome
  let missing := (required.filter fun entry => (truthy entry.2).isNone).map Prod.fst
  let named := ", ".intercalate missing
  (if supplied ≠ [] ∧ missing ≠ [] then
    ["provider routing: the fallback identity is partially configured " ++
      s!"(missing {named}); supply the complete identity or none of it"] else []) ++
  (if settings.routingStrategy = "ordered_fallback" then
    if supplied = [] then
      ["provider routing: routing_strategy=ordered_fallback requires a complete " ++
        "fallback identity (provider, model, endpoint) and none is configured"]
    else if missing = [] ∧ settings.fallbackProviderId = settings.providerId ∧
        settings.fallbackModelId = settings.modelId ∧
        settings.fallbackModelVersion = settings.modelVersion then
      ["provider routing: the fallback identity is the same candidate as the " ++
        "primary (same provider, model and revision), which provides no failover; " ++
        "configure a distinct alternate candidate"]
    else []
  else if settings.routingStrategy ≠ "fixed" then
    [s!"provider routing: unknown routing_strategy '{settings.routingStrategy}' " ++
      "(supported: fixed, ordered_fallback)"]
  else [])

/-- `connection_material_findings`. -/
def connectionMaterialFindings : List String :=
  match settings.declared with
  | .error finding => [finding]
  | .ok _ => []

/-- What is found before an ordered execution. -/
def orderedFindings : List String :=
  settings.fallbackConfigurationFindings ++ settings.connectionMaterialFindings

end ServingSettings

/-- The candidate a config names, if it names a provider and a model. -/
def servingTuple (config : ExecutionConfig) : Option ServingTuple :=
  match truthy config.providerId, truthy config.modelId with
  | some providerId, some modelId =>
    some ⟨providerId, modelId, (truthy config.modelVersion).getD modelId, config.deployment⟩
  | _, _ => none

/-- The material of a configured identity. -/
def seededMaterial (config : ExecutionConfig) : List ConnectionMaterial :=
  match truthy config.providerId, truthy config.modelId with
  | some providerId, some modelId =>
    [⟨providerId, modelId, config.modelVersion, config.deployment, true⟩]
  | _, _ => []

/-- The settings pair, as material. -/
def seededMaterials (settings : ServingSettings) : List ConnectionMaterial :=
  seededMaterial settings.config ++ settings.fallbackConfig.toList.flatMap seededMaterial

/-- Material by identity, later over earlier. -/
def collectMaterials (sha256 : String → String) (materials : List ConnectionMaterial) :
    Dict String ConnectionMaterial :=
  materials.foldl (fun found material => found.insert (material.tuple.candidateIdV2 sha256)
    material) .empty

/-- `configured_connection_materials`: the settings pair, then the declared material over it. -/
def configuredConnectionMaterials (sha256 : String → String) (settings : ServingSettings) :
    Except PythonError (Dict String ConnectionMaterial) :=
  match settings.declared with
  | .error _ => .error .valueError
  | .ok declared =>
    if (declared.map (·.tuple.candidateIdV2 sha256)).Nodup then
      .ok (collectMaterials sha256 (seededMaterials settings ++ declared))
    else .error .valueError

/-- `derive_candidate_execution_config`, over the merged material. -/
def deriveCandidateExecutionConfig (sha256 : String → String) (settings : ServingSettings)
    (materials : Dict String ConnectionMaterial) (entryId : String) : Option ExecutionConfig :=
  match materials.get? entryId with
  | none => none
  | some material =>
    if material.seeded then
      if (servingTuple settings.config).map (·.candidateIdV2 sha256) = some entryId then
        some settings.config
      else settings.fallbackConfig
    else some ⟨some material.providerId, some material.modelId, material.modelVersion,
      material.deployment⟩

/-! ### The request -/

/-- `bind_live_text_model_catalogue_entry`, over the seeded catalogue. -/
def bindLiveTextModelCatalogueEntry (entries : Dict String ModelCatalogueEntry)
    (config : ExecutionConfig) : Except ProviderError ModelCatalogueEntry :=
  match servingTuple config with
  | none => .error ⟨.modelNotCatalogued,
      "Live text execution requires a configured provider and model identity."⟩
  | some tuple =>
    match entries.get? tuple.entryId with
    | none => .error ⟨.modelNotCatalogued,
        s!"No governed model-catalogue entry exists for '{tuple.entryId}'."⟩
    | some entry =>
      if entry.providerId ≠ tuple.providerId ∨ entry.modelRevision ≠ tuple.modelRevision ∨
          entry.deployment ≠ tuple.deployment then
        let found := entry.deployment.getD "None"
        let requested := tuple.deployment.getD "None"
        .error ⟨.modelNotCatalogued,
          s!"Model-catalogue entry '{tuple.entryId}' resolves to serving identity " ++
          s!"('{entry.providerId}', '{entry.modelRevision}', '{found}'), " ++
          s!"which is not the requested ('{tuple.providerId}', '{tuple.modelRevision}', " ++
          s!"'{requested}'); refusing an identity-mismatched binding."⟩
      else if entry.lifecycleState.ineligible then
        .error ⟨.modelLifecycleIneligible,
          s!"Model-catalogue entry '{tuple.entryId}' is {entry.lifecycleState.value} " ++
          "and not eligible to serve new executions."⟩
      else .ok entry

/-- What a request brings with it. -/
structure Intake where
  authorization : AuthorizationDecision
  /-- Why live execution is not enabled, if it is not. -/
  blocked : Option String
  requirements : Option (List String)

/-- The rows as they are listed. -/
def listEntries (sha256 : String → String) (entries : Dict String ModelCatalogueEntry) :
    List CatalogueEntry :=
  (sortedEntries entries).map fun entry => entry.2.serving sha256

/-- The material, read unless the request is refused before. -/
def materialsUnless (sha256 : String → String) (settings : ServingSettings) (refused : Bool) :
    Except PythonError (Dict String ConnectionMaterial) :=
  if refused then .ok .empty else configuredConnectionMaterials sha256 settings

/-- The fixed route. The connection of the primary is resolved once live execution is enabled,
the caller is authorized and the material is well formed. -/
def fixedRequest (sha256 : String → String) (settings : ServingSettings) (intake : Intake) :
    Except PythonError FixedRequest := do
  let materials ← materialsUnless sha256 settings (intake.blocked.isSome ||
    !intake.authorization.allowed || settings.connectionMaterialFindings ≠ [])
  let resolved := (servingTuple settings.config).bind fun tuple =>
    deriveCandidateExecutionConfig sha256 settings materials (tuple.candidateIdV2 sha256)
  return {
    authorization := intake.authorization
    findings := settings.connectionMaterialFindings
    config := settings.config
    executionConfig := resolved.getD settings.config
    modeValue := settings.providerMode
    requirements := intake.requirements }

/-- The ordered-fallback route: the universe is derived from the operative order, once live
execution is enabled, the caller is authorized and the configuration is complete. -/
def orderedRequest (sha256 : String → String) (settings : ServingSettings) (intake : Intake)
    (entries : Dict String ModelCatalogueEntry) (policies : Dict ℕ ServingPolicyVersion) :
    Except PythonError OrderedRequest := do
  let materials ← materialsUnless sha256 settings (intake.blocked.isSome ||
    !intake.authorization.allowed || settings.orderedFindings ≠ [] ||
    settings.fallbackConfig.isNone)
  let operative := currentServingOrder settings.toSeedSettings policies
  return {
    authorization := intake.authorization
    findings := settings.orderedFindings
    alternate := settings.fallbackConfig.isSome
    config := settings.config
    modeValue := settings.providerMode
    requirements := intake.requirements
    candidateUniverse := deriveCandidateUniverse (listEntries sha256 entries) operative.1
      operative.2 (fun identity => (materials.get? identity).isSome) settings.providerMode
    connection := deriveCandidateExecutionConfig sha256 settings materials }

/-- The live request under the configured routing strategy, over the seeded catalogue. -/
def liveRequest (sha256 : String → String) (settings : ServingSettings) (intake : Intake)
    (entries : Dict String ModelCatalogueEntry) (policies : Dict ℕ ServingPolicyVersion) :
    Except PythonError LiveRequest :=
  if settings.routingStrategy = "ordered_fallback" then
    (orderedRequest sha256 settings intake entries policies).map fun request =>
      ⟨intake.blocked, .ordered request⟩
  else
    (fixedRequest sha256 settings intake).map fun request => ⟨intake.blocked, .fixed request⟩

/-! ### Adapter calls -/

section Trace

variable {ρ : Type}

/-- The steps with given outcomes; the configs the adapter is called with are noted. -/
def tracing (o : Outcomes ρ) : Controls (StateM (List ExecutionConfig)) ρ where
  enforceKillSwitches index _ := pure (o.killSwitches index)
  enforceProviderQuota := pure o.quota
  enforceProviderBudget := pure o.budget
  requireBudgetRemaining index := pure (o.deadline index)
  enforceProviderDegradationPreflight index _ := pure (o.breaker index)
  bindCatalogueEntry index _ := pure (o.bind index)
  enforceCapabilityRequirements index _ := pure (o.capability index)
  execute index config := do
    modify (· ++ [config])
    return o.adapter index
  recordProviderFailure _ := pure ()
  recordModelRevisionDrift _ _ := pure ()
  recordSuccessfulProviderExecution := pure ()
  utcNow := pure o.now

/-- The configs that an execution calls the adapter with. -/
def adapterCalls (o : Outcomes ρ) (providerIdOf : ρ → String) (request : LiveRequest) :
    List ExecutionConfig :=
  ((executeTextGeneration (tracing o) providerIdOf request).run []).2

/-- Only candidates are noted. -/
def Within (candidates log : List ExecutionConfig) : Prop := ∀ config ∈ log, config ∈ candidates

variable {o : Outcomes ρ} {candidates : List ExecutionConfig} {l : List (ExecutionConfig × ℕ)}
  {vetoes : Vetoes} {request : OrderedRequest} {config : ExecutionConfig}

/-- The vetoes leave candidates only. -/
theorem keeping_vetoLoop (hl : ∀ entry ∈ l, entry.1 ∈ candidates)
    (hvetoes : ∀ entry ∈ vetoes.eligible, entry.1 ∈ candidates) :
    Keeping (Within candidates) (vetoLoop (tracing o) l vetoes)
      fun vetoes' => ∀ entry ∈ vetoes'.eligible, entry.1 ∈ candidates := by
  induction l generalizing vetoes with
  | nil => exact pure hvetoes
  | cons entry rest ih =>
    have hrest : ∀ other ∈ rest, other.1 ∈ candidates :=
      fun other hother => hl other (.tail _ hother)
    refine (answer _).andThen fun verdict => ?_
    cases verdict with
    | error e => exact ih hrest hvetoes
    | ok =>
      refine ih hrest fun other hother => ?_
      rcases mem_append.mp hother with hother | hother
      · exact hvetoes other hother
      · rw [mem_singleton.mp hother]
        exact hl entry (.head _)

theorem keeping_preflight (candidate : ExecutionConfig) (index : ℕ) :
    Keeping (Within candidates) (preflight (tracing o) candidate index) fun _ => True :=
  (answer _).bindExcept fun _ => (answer _).bindExcept fun _ =>
    (answer _).bindExcept fun _ => (answer _).bindExcept fun _ =>
      answer _

theorem keeping_execute (hconfig : config ∈ candidates) (index : ℕ) :
    Keeping (Within candidates) ((tracing o).execute index config) fun _ => True := by
  intro log hlog
  refine ⟨fun other hother => ?_, trivial⟩
  rcases mem_append.mp hother with hother | hother
  · exact hlog other hother
  · rw [mem_singleton.mp hother]
    exact hconfig

theorem keeping_attemptLoop (hl : ∀ entry ∈ l, entry.1 ∈ candidates) (attempts : Attempts) :
    Keeping (Within candidates) (attemptLoop (tracing o) l attempts) fun _ => True := by
  induction l generalizing attempts with
  | nil => exact answer _
  | cons entry rest ih =>
    have hrest : ∀ other ∈ rest, other.1 ∈ candidates :=
      fun other hother => hl other (.tail _ hother)
    refine (keeping_preflight entry.1 entry.2).andThen fun verdict => ?_
    cases verdict with
    | error e => exact ih hrest _
    | ok catalogued =>
      refine (keeping_execute (hl entry (.head _)) entry.2).andThen fun result => ?_
      cases result with
      | ok response => exact answer _
      | error e =>
        refine (answer _).andThen fun _ => ?_
        split_ifs
        · exact ih hrest _
        · exact answer _

theorem keeping_serveEligible (hvetoes : ∀ entry ∈ vetoes.eligible, entry.1 ∈ candidates) :
    Keeping (Within candidates) (serveEligible (tracing o) request vetoes) fun _ => True := by
  refine ((answer _).bindExcept fun _ => answer _).andThen fun economics => ?_
  cases economics with
  | error e => exact (answer _).andThen fun _ => answer _
  | ok =>
    refine (keeping_attemptLoop hvetoes _).andThen fun finish => ?_
    obtain ⟨served, attempts⟩ := finish
    cases served with
    | none => exact (answer _).andThen fun _ => answer _
    | some served =>
      exact (answer _).andThen fun _ => (answer _).andThen fun _ =>
        (answer _).andThen fun _ => answer _

theorem keeping_executeOrderedFallback (request : OrderedRequest) :
    Keeping (Within request.candidates) (executeOrderedFallback (tracing o) request)
      fun _ => True := by
  unfold executeOrderedFallback
  split_ifs
  · exact answer _
  · exact (answer _).andThen fun _ => answer _
  · exact (answer _).andThen fun _ => answer _
  · have hall : ∀ entry ∈ request.candidates.zipIdx, entry.1 ∈ request.candidates :=
      fun entry hentry => fst_mem_of_mem_zipIdx hentry
    refine bind (keeping_vetoLoop hall (fun _ h => nomatch h)) fun vetoes hvetoes => ?_
    split_ifs
    · exact (answer _).andThen fun _ => answer _
    · exact keeping_serveEligible hvetoes

/-- Under ordered fallback the adapter is called for candidates of the request only. -/
theorem executed_mem_candidates {blocked : Option String} {providerIdOf : ρ → String}
    (h : config ∈ adapterCalls o providerIdOf ⟨blocked, .ordered request⟩) :
    config ∈ request.candidates := by
  cases blocked with
  | some reason => cases h
  | none => exact (keeping_executeOrderedFallback request [] (fun _ h => nomatch h)).1 config h

/-- What the controls in front of the one candidate of the fixed route say. -/
def fixedVerdict (o : Outcomes ρ) : Except ProviderError CatalogueEntry := do
  o.killSwitches 0
  o.quota
  o.budget
  o.breaker 0
  let entry ← o.bind 0
  o.capability 0
  o.deadline 0
  return entry

theorem fixedPreflight_run (request : FixedRequest) (log : List ExecutionConfig) :
    (fixedPreflight (tracing o) request).run log = (fixedVerdict o, log) := by
  simp only [fixedPreflight, tracing, run_answer_bind]
  unfold fixedVerdict
  cases o.killSwitches 0 with
  | error e => rfl
  | ok => cases o.quota with
    | error e => rfl
    | ok => cases o.budget with
      | error e => rfl
      | ok => cases o.breaker 0 with
        | error e => rfl
        | ok => cases o.bind 0 with
          | error e => rfl
          | ok entry => cases o.capability 0 with
            | error e => rfl
            | ok => cases o.deadline 0 <;> rfl

/-- If the controls pass, the candidate was bound to a row. -/
theorem bind_of_fixedVerdict (h : (fixedVerdict o).toOption.isSome) :
    ∃ entry, o.bind 0 = .ok entry := by
  cases hverdict : fixedVerdict o with
  | error e =>
    rw [hverdict] at h
    cases h
  | ok entry =>
    obtain ⟨_, -, hrest⟩ := bind_eq_ok.mp hverdict
    obtain ⟨_, -, hrest⟩ := bind_eq_ok.mp hrest
    obtain ⟨_, -, hrest⟩ := bind_eq_ok.mp hrest
    obtain ⟨_, -, hrest⟩ := bind_eq_ok.mp hrest
    obtain ⟨bound, hbound, -⟩ := bind_eq_ok.mp hrest
    exact ⟨bound, hbound⟩

/-- On the fixed route the adapter is called once, if nothing refuses. -/
theorem adapterCalls_fixed (blocked : Option String) (request : FixedRequest)
    (providerIdOf : ρ → String) :
    adapterCalls o providerIdOf ⟨blocked, .fixed request⟩ =
      if blocked = none ∧ request.authorization.allowed = true ∧ request.findings = [] ∧
        (fixedVerdict o).toOption.isSome then [request.executionConfig] else [] := by
  cases blocked with
  | some reason =>
    rfl
  | none =>
    simp only [adapterCalls, executeTextGeneration, executeFixed]
    by_cases hallowed : request.authorization.allowed = true
    · by_cases hfindings : request.findings = []
      · rw [if_neg (by simp [hallowed]), if_neg (by simp [hfindings]), StateT.run_bind,
          fixedPreflight_run]
        cases hverdict : fixedVerdict o with
        | error e =>
          rw [if_neg (by simp [Except.toOption])]
          rfl
        | ok entry =>
          rw [if_pos (by simp [Except.toOption, hallowed, hfindings])]
          -- whatever the adapter answers, it has been called
          cases hadapter : o.adapter 0 <;> simp [tracing, hadapter] <;> rfl
      · rw [if_neg (by simp [hallowed]), if_pos (by simpa using hfindings),
          if_neg (by simp [hfindings])]
        rfl
    · rw [if_pos (by simpa using hallowed), if_neg (by simp [hallowed])]
      rfl

end Trace

/-! ### Who is reached -/

/-- The candidate of a config stands in an order, in either representation. -/
def InOrder (sha256 : String → String) (order : List String) (config : ExecutionConfig) : Prop :=
  ∃ tuple, servingTuple config = some tuple ∧
    (tuple.entryId ∈ order ∨ tuple.candidateIdV2 sha256 ∈ order)

section Reached

variable {sha256 : String → String} {settings : ServingSettings}
  {materials : Dict String ConnectionMaterial}

theorem truthy_some {text : String} (h : text ≠ "") : truthy (some text) = some text := by
  simp [truthy, filter, h]

variable {identity : String} {material : ConnectionMaterial}
  {entries : Dict String ModelCatalogueEntry} {config : ExecutionConfig} {intake : Intake}

theorem get?_collectMaterials {l : List ConnectionMaterial}
    (h : (collectMaterials sha256 l).get? identity = some material) :
    material ∈ l ∧ material.tuple.candidateIdV2 sha256 = identity := by
  induction l using reverseRecOn with
  | nil => cases h
  | append_singleton earlier last ih =>
    rw [collectMaterials, foldl_append, foldl_cons, foldl_nil, Dict.get?_insert] at h
    split_ifs at h with hlast
    · cases h
      exact ⟨by simp, hlast.symm⟩
    · obtain ⟨hmem, hidentity⟩ := ih h
      exact ⟨mem_append_left _ hmem, hidentity⟩

/-- The material of a configured identity is for the candidate that its config names. -/
theorem mem_seededMaterial (h : material ∈ seededMaterial config) :
    servingTuple config = some material.tuple ∧ material.seeded = true := by
  unfold seededMaterial at h
  split at h
  · rename_i providerId modelId hprovider hmodel
    obtain rfl := mem_singleton.mp h
    exact ⟨by rw [servingTuple, hprovider, hmodel]; rfl, rfl⟩
  · cases h

/-- A config is derived for the identity it was asked for. -/
theorem servingTuple_of_derive
    (hmaterials : configuredConnectionMaterials sha256 settings = .ok materials)
    (h : deriveCandidateExecutionConfig sha256 settings materials identity = some config) :
    ∃ tuple, servingTuple config = some tuple ∧ tuple.candidateIdV2 sha256 = identity := by
  unfold configuredConnectionMaterials at hmaterials
  split at hmaterials
  · cases hmaterials
  · rename_i declared hdeclared
    split_ifs at hmaterials
    cases hmaterials
    unfold deriveCandidateExecutionConfig at h
    split at h
    · cases h
    · rename_i material hmaterial
      obtain ⟨hmem, hidentity⟩ := get?_collectMaterials hmaterial
      split_ifs at h with hseeded hprimary
      · -- the primary, as it is configured
        cases h
        obtain ⟨tuple, htuple, hsame⟩ := map_eq_some_iff.mp hprimary
        exact ⟨tuple, htuple, hsame⟩
      · -- seeded and not the primary, so the alternate
        rcases mem_append.mp hmem with hpair | hother
        · rcases mem_append.mp hpair with hfirst | hsecond
          · have htuple := (mem_seededMaterial hfirst).1
            exact absurd (by rw [htuple, map_some, hidentity]) hprimary
          · rw [h] at hsecond
            have hsecond' : material ∈ seededMaterial config := by simpa using hsecond
            exact ⟨material.tuple, (mem_seededMaterial hsecond').1, hidentity⟩
        · have hdeclares := (settings.declared_named declared hdeclared material hother).2.2
          rw [hdeclares] at hseeded
          cases hseeded
      · -- declared
        cases h
        refine ⟨material.tuple, ?_, hidentity⟩
        rcases mem_append.mp hmem with hpair | hother
        · rcases mem_append.mp hpair with hfirst | hsecond
          · exact absurd (mem_seededMaterial hfirst).2 hseeded
          · obtain ⟨fallback, -, hfallback⟩ := mem_flatMap.mp hsecond
            exact absurd (mem_seededMaterial hfallback).2 hseeded
        · obtain ⟨hprovider, hmodel, -⟩ := settings.declared_named declared hdeclared material hother
          rw [servingTuple, truthy_some hprovider, truthy_some hmodel]
          rfl

/-- What the universe enumerates is the canonical identity of a row that the order names. -/
theorem mem_candidateEntryIds {order : List String} {version : Option ℕ}
    {hasMaterial : String → Bool} {mode : String}
    (h : identity ∈ (deriveCandidateUniverse (listEntries sha256 entries) order version
      hasMaterial mode).candidateEntryIds) :
    ∃ row : ModelCatalogueEntry, row.candidateIdV2 sha256 = identity ∧
      (row.entryId ∈ order ∨ row.candidateIdV2 sha256 ∈ order) := by
  obtain ⟨verdict, hverdict, hidentity⟩ := mem_filterMap.mp h
  obtain ⟨named, hnamed, rfl⟩ := mem_map.mp hverdict
  unfold considerIdentity at hidentity
  split at hidentity
  · cases hidentity
  · rename_i entry hresolved
    split_ifs at hidentity
    · cases hidentity
    · cases hidentity
    · cases hidentity
      unfold resolveCatalogueEntryByIdentity at hresolved
      have hlisted : entry ∈ listEntries sha256 entries := by
        split_ifs at hresolved <;> exact mem_of_find?_eq_some hresolved
      obtain ⟨stored, -, rfl⟩ := mem_map.mp hlisted
      refine ⟨stored.2, rfl, ?_⟩
      split_ifs at hresolved
      · have hsame : (stored.2.serving sha256).candidateIdV2 = named := by
          simpa using find?_some hresolved
        change stored.2.candidateIdV2 sha256 = named at hsame
        exact .inr (hsame ▸ hnamed)
      · have hsame : (stored.2.serving sha256).entryId = named := by
          simpa using find?_some hresolved
        change stored.2.entryId = named at hsame
        exact .inl (hsame ▸ hnamed)

/-- The candidates of an ordered request stand in the operative order. -/
theorem inOrder_of_ordered (hsha : Function.Injective sha256)
    {policies : Dict ℕ ServingPolicyVersion} {request : OrderedRequest}
    (hrequest : orderedRequest sha256 settings intake entries policies = .ok request) (hconfig : config ∈ request.candidates) :
    InOrder sha256 (currentServingOrder settings.toSeedSettings policies).1 config := by
  obtain ⟨materials, hmaterials, hout⟩ := bind_eq_ok.mp hrequest
  obtain rfl := pure_eq_ok.mp hout
  obtain ⟨identity, hidentity, hderived⟩ := mem_filterMap.mp hconfig
  obtain ⟨row, hrow, horder⟩ := mem_candidateEntryIds hidentity
  unfold materialsUnless at hmaterials
  split_ifs at hmaterials
  · cases hmaterials
    cases hderived
  · obtain ⟨tuple, htuple, hsame⟩ := servingTuple_of_derive hmaterials hderived
    have hcandidate : tuple = row.toServingTuple :=
      candidateIdV2_injective hsha (hsame.trans hrow.symm)
    exact ⟨tuple, htuple, by rw [hcandidate]; exact horder⟩

/-- The fixed route serves the configured primary, whatever connection it is reached by. -/
theorem servingTuple_executionConfig (hsha : Function.Injective sha256)
    {request : FixedRequest} (hrequest : fixedRequest sha256 settings intake = .ok request) :
    servingTuple request.executionConfig = servingTuple settings.config := by
  obtain ⟨materials, hmaterials, hout⟩ := bind_eq_ok.mp hrequest
  obtain rfl := pure_eq_ok.mp hout
  cases htuple : servingTuple settings.config with
  | none => exact htuple
  | some tuple =>
    cases hderived : deriveCandidateExecutionConfig sha256 settings materials
        (tuple.candidateIdV2 sha256) with
    | none => simp [hderived, htuple]
    | some config =>
      simp only [hderived, bind_some, getD_some]
      unfold materialsUnless at hmaterials
      split_ifs at hmaterials
      · cases hmaterials
        cases hderived
      · obtain ⟨tuple', htuple', hsame⟩ := servingTuple_of_derive hmaterials hderived
        rw [htuple', candidateIdV2_injective hsha hsame]

end Reached

/-! ### Who serves -/

section Serves

variable {ρ : Type} {sha256 : String → String} {settings : ServingSettings} {intake : Intake}
  {entries : Dict String ModelCatalogueEntry} {policies : Dict ℕ ServingPolicyVersion}
  {request : LiveRequest} {order : List String}

/-- Outcomes in which each candidate is bound to the row the catalogue holds for it. -/
def Bound (sha256 : String → String) (entries : Dict String ModelCatalogueEntry)
    (request : LiveRequest) (o : Outcomes ρ) : Prop :=
  let bound config := (bindLiveTextModelCatalogueEntry entries config).map
    fun entry : ModelCatalogueEntry => entry.serving sha256
  match request.route with
  | .fixed fixed => o.bind 0 = bound fixed.config
  | .ordered ordered => ∀ index config, ordered.candidates[index]? = some config →
      o.bind index = bound config

/-- Whatever the controls and the provider answer, the adapter is called for identities of the
order only. -/
def ServesOnlyOrdered (ρ : Type) (sha256 : String → String)
    (entries : Dict String ModelCatalogueEntry) (request : LiveRequest) (order : List String) :
    Prop :=
  ∀ (o : Outcomes ρ) (providerIdOf : ρ → String), Bound sha256 entries request o →
    ∀ config ∈ adapterCalls o providerIdOf request, InOrder sha256 order config

/-- A live request under the fixed strategy that nothing refuses by configuration, for a primary
that is catalogued and eligible but not in the order. -/
structure BypassesPolicy (sha256 : String → String) (settings : ServingSettings)
    (intake : Intake) (entries : Dict String ModelCatalogueEntry) (order : List String) :
    Prop where
  fixed : settings.routingStrategy ≠ "ordered_fallback"
  enabled : intake.blocked = none
  authorized : intake.authorization.allowed = true
  wellFormed : settings.connectionMaterialFindings = []
  bound : ∃ entry, bindLiveTextModelCatalogueEntry entries settings.config = .ok entry
  unordered : ¬ InOrder sha256 order settings.config

theorem inOrder_congr {config config' : ExecutionConfig}
    (h : servingTuple config = servingTuple config') :
    InOrder sha256 order config ↔ InOrder sha256 order config' := by
  rw [InOrder, InOrder, h]

/-- Outcomes under which every control passes and the provider then fails. -/
def allPass (bound : Except ProviderError CatalogueEntry) : Outcomes ρ where
  killSwitches _ := .ok ()
  quota := .ok ()
  budget := .ok ()
  deadline _ := .ok ()
  breaker _ := .ok ()
  bind _ := bound
  capability _ := .ok ()
  adapter _ := .error ⟨.providerTimeout, "timed out"⟩
  now := ""

/-- A request that bypasses the policy calls the adapter for an identity outside the order. -/
theorem BypassesPolicy.not_servesOnlyOrdered (hsha : Function.Injective sha256)
    (h : BypassesPolicy sha256 settings intake entries order)
    (hrequest : liveRequest sha256 settings intake entries policies = .ok request) :
    ¬ ServesOnlyOrdered ρ sha256 entries request order := by
  rw [liveRequest, if_neg h.fixed] at hrequest
  obtain ⟨fixed, hfixed, rfl⟩ := map_eq_ok.mp hrequest
  have htuple := servingTuple_executionConfig hsha hfixed
  obtain ⟨materials, -, hout⟩ := bind_eq_ok.mp hfixed
  obtain ⟨entry, hentry⟩ := h.bound
  intro hserves
  -- nothing refuses, so the adapter is called
  refine h.unordered ((inOrder_congr htuple).mp
    (hserves (allPass (.ok (entry.serving sha256))) (fun _ => "") ?_ fixed.executionConfig ?_))
  · rw [← pure_eq_ok.mp hout]
    change _ = Except.map _ (bindLiveTextModelCatalogueEntry entries settings.config)
    rw [hentry]
    rfl
  · rw [adapterCalls_fixed, if_pos ?_]
    · exact mem_singleton_self _
    · rw [← pure_eq_ok.mp hout]
      exact ⟨h.enabled, h.authorized, h.wellFormed, rfl⟩

/-- On the fixed route an adapter call means that nothing refused. -/
theorem bypassesPolicy_of_call (hsha : Function.Injective sha256)
    (hfixed : settings.routingStrategy ≠ "ordered_fallback")
    (hrequest : liveRequest sha256 settings intake entries policies = .ok request)
    {o : Outcomes ρ} {providerIdOf : ρ → String} (hbound : Bound sha256 entries request o)
    {config : ExecutionConfig} (hcall : config ∈ adapterCalls o providerIdOf request)
    (hunordered : ¬ InOrder sha256 order config) :
    BypassesPolicy sha256 settings intake entries order := by
  rw [liveRequest, if_neg hfixed] at hrequest
  obtain ⟨fixed, hbuilt, rfl⟩ := map_eq_ok.mp hrequest
  have htuple := servingTuple_executionConfig hsha hbuilt
  obtain ⟨materials, -, hout⟩ := bind_eq_ok.mp hbuilt
  rw [adapterCalls_fixed] at hcall
  split_ifs at hcall with hpasses
  · obtain ⟨henabled, hauthorized, hfindings, hverdict⟩ := hpasses
    rw [mem_singleton.mp hcall] at hunordered
    refine ⟨hfixed, henabled, ?_, ?_, ?_, fun h => hunordered ((inOrder_congr htuple).mpr h)⟩
    · rw [← pure_eq_ok.mp hout] at hauthorized
      exact hauthorized
    · rw [← pure_eq_ok.mp hout] at hfindings
      exact hfindings
    · obtain ⟨bound, hbind⟩ := bind_of_fixedVerdict hverdict
      change o.bind 0 = Except.map _ _ at hbound
      rw [hbind, ← pure_eq_ok.mp hout] at hbound
      obtain ⟨entry, hentry, -⟩ := map_eq_ok.mp hbound.symm
      exact ⟨entry, hentry⟩
  · cases hcall

end Serves

/-- After every history of the policy, with a version stored, over every catalogue and for every
configuration and live request: only identities of the operative order are executed, exactly when
the request does not bypass the policy. -/
theorem servesOnlyOrdered_iff (ρ : Type) (sha256 : String → String)
    (hsha : Function.Injective sha256) (pair : SeedSettings) (operations : List PolicyOperation)
    (settings : ServingSettings) (intake : Intake) (entries : Dict String ModelCatalogueEntry)
    (policy : ServingPolicyVersion)
    (hpolicy : getCurrentServingPolicy (PolicyDesk.after sha256 pair operations).policies =
      some policy)
    (request : LiveRequest)
    (hrequest : liveRequest sha256 settings intake entries
      (PolicyDesk.after sha256 pair operations).policies = .ok request) :
    ServesOnlyOrdered ρ sha256 entries request policy.orderedEntryIds ↔
      ¬ BypassesPolicy sha256 settings intake entries policy.orderedEntryIds := by
  constructor
  · intro hserves hbypasses
    exact hbypasses.not_servesOnlyOrdered hsha hrequest hserves
  · intro hbypasses o providerIdOf hbound config hcall
    by_cases hstrategy : settings.routingStrategy = "ordered_fallback"
    · rw [liveRequest, if_pos hstrategy] at hrequest
      obtain ⟨ordered, hordered, rfl⟩ := map_eq_ok.mp hrequest
      have horder := inOrder_of_ordered hsha hordered (executed_mem_candidates hcall)
      rwa [currentServingOrder, hpolicy] at horder
    · by_contra hunordered
      exact hbypasses (bypassesPolicy_of_call hsha hstrategy hrequest hbound hcall hunordered)

/-! ### After a removal -/

section Samples

/-- Live serving of the configured pair. -/
def servingPair (routingStrategy : String) : ServingSettings :=
  { configuredPair with
    routingStrategy := routingStrategy
    fallbackApiBase := some "https://b"
    declared := .ok []
    declared_named := fun _ h _ hmem => by rw [← Except.ok.inj h] at hmem; cases hmem }

/-- An authorized request. -/
def authorizedIntake : Intake := ⟨⟨"app", true, "allowed"⟩, none, none⟩

/-- The primary is removed, which stores the first version. -/
def removePrimary : List PolicyOperation := [.remove "a:m" "k1" "t0"]

/-- The stored version names the fallback only. -/
def withoutPrimary : ServingPolicyVersion :=
  ⟨1, ["b:m"], .identityRemove, "a:m", "k1", none, none, "t0"⟩

theorem current_removePrimary :
    getCurrentServingPolicy (PolicyDesk.after sampleDigest configuredPair removePrimary).policies =
      some withoutPrimary := by decide +kernel

def primaryRow : ModelCatalogueEntry := settingsSeedEntry "openai" "a" "m" none "t1"

def pairRows : Dict String ModelCatalogueEntry :=
  collectRows [primaryRow, settingsSeedEntry "openai" "b" "m" none "t1"]

/-- Ordered fallback then serves the fallback only. -/
theorem servesOnlyOrdered_after_removal :
    ∃ request, liveRequest sampleDigest (servingPair "ordered_fallback") authorizedIntake pairRows
        (PolicyDesk.after sampleDigest configuredPair removePrimary).policies = .ok request ∧
      ServesOnlyOrdered Unit sampleDigest pairRows request ["b:m"] :=
  ⟨_, rfl, (servesOnlyOrdered_iff Unit sampleDigest sampleDigest_injective configuredPair
    removePrimary (servingPair "ordered_fallback") authorizedIntake pairRows withoutPrimary
    current_removePrimary _ rfl).mpr fun h => h.fixed rfl⟩

/-- Under the fixed strategy the removed primary is executed all the same. -/
theorem removed_primary_serves :
    ∃ request, liveRequest sampleDigest (servingPair "fixed") authorizedIntake pairRows
        (PolicyDesk.after sampleDigest configuredPair removePrimary).policies = .ok request ∧
      getCurrentServingPolicy
        (PolicyDesk.after sampleDigest configuredPair removePrimary).policies =
          some withoutPrimary ∧
      ¬ ServesOnlyOrdered Unit sampleDigest pairRows request
        withoutPrimary.orderedEntryIds := by
  have hbypasses : BypassesPolicy sampleDigest (servingPair "fixed") authorizedIntake
      pairRows withoutPrimary.orderedEntryIds := by
    refine ⟨by decide, rfl, rfl, rfl, ⟨primaryRow, by rfl⟩, ?_⟩
    rintro ⟨tuple, htuple, hmem⟩
    obtain rfl : ⟨"a", "m", "m", none⟩ = tuple := Option.some.inj htuple
    rcases hmem with hkey | hcanonical
    · exact absurd hkey (by decide)
    · have := Fact.mk hexadecimal_sampleDigest
      have hcolon := @notMem_candidateIdV2 sampleDigest _ ⟨"a", "m", "m", none⟩ ':' (by decide)
      rw [List.mem_singleton.mp hcanonical] at hcolon
      exact hcolon (by decide)
  obtain ⟨request, hrequest⟩ : ∃ request, liveRequest sampleDigest (servingPair "fixed")
      authorizedIntake pairRows
      (PolicyDesk.after sampleDigest configuredPair removePrimary).policies = .ok request :=
    ⟨_, rfl⟩
  exact ⟨request, hrequest, current_removePrimary,
    hbypasses.not_servesOnlyOrdered sampleDigest_injective hrequest⟩

end Samples

end LotusAI.Catalogue
