import LotusAI.Catalogue.Entries
import LotusAI.Lib.Checks
import LotusAI.Lib.Datetime
import Mathlib.Data.List.Induction

/-!
# Seeding the catalogue

`ensure_model_catalogue_seeded`: the rows the configuration asks for are compared with the
stored ones, and written where something that seeding manages differs. A stored row that is a
different candidate under the same key is left alone. Otherwise the row is rebuilt from the
configuration, and some of what governance has added since is put back.
-/

namespace LotusAI.Catalogue

open Lib Provider List Dict

/-! ### The rows the configuration asks for -/

/-- `ApprovedWorkflowRunModel`. -/
structure ApprovedModel where
  providerId : String
  providerMode : String
  modelId : String
  modelVersion : String
  workflowPackIds : List String
  approvalRef : String
  approvedFromUtc : String
  approvedUntilUtc : Option String
  deriving DecidableEq

/-- What a seeding pass reads: the configured identities, and the approved models if the
inventory is valid governed JSON. -/
structure SeedSettings where
  providerMode : String
  providerId : Option String
  modelId : Option String
  modelVersion : Option String
  fallbackProviderId : Option String
  fallbackModelId : Option String
  fallbackModelVersion : Option String
  inventory : Option (List ApprovedModel)
  deriving DecidableEq

/-- `_LIVE_TEXT_MODES`. -/
def liveTextModes : List String := ["openai", "local_openai_compatible"]

/-- The row of a configured identity: catalogued, since configuration is not approval. -/
def settingsSeedEntry (providerMode providerId modelId : String) (modelVersion : Option String)
    (now : String) : ModelCatalogueEntry where
  providerId := providerId
  modelFamily := modelId
  modelRevision := (truthy modelVersion).getD modelId
  deployment := none
  providerMode := providerMode
  sku := none
  lifecycleState := .catalogued
  revisionPinned := (truthy modelVersion).isSome
  modalities := ["text"]
  contextWindowTokens := none
  maxOutputTokens := none
  supportsStructuredOutput := none
  supportsToolCalling := none
  supportsStreaming := none
  capabilityDegradations := .empty
  approvedWorkflowPackIds := []
  approvalEvidenceRefs := []
  approvedFromUtc := none
  approvedUntilUtc := none
  seedSource := .settingsLiveText
  createdAt := now
  lastUpdatedAt := now

/-- The row of an approved model, with its approval evidence. -/
def inventorySeedEntry (approved : ApprovedModel) (now : String) : ModelCatalogueEntry where
  providerId := approved.providerId
  modelFamily := approved.modelId
  modelRevision := approved.modelVersion
  deployment := none
  providerMode := approved.providerMode
  sku := none
  lifecycleState := .approved
  revisionPinned := true
  modalities := ["text"]
  contextWindowTokens := none
  maxOutputTokens := none
  supportsStructuredOutput := none
  supportsToolCalling := none
  supportsStreaming := none
  capabilityDegradations := .empty
  approvedWorkflowPackIds := approved.workflowPackIds
  approvalEvidenceRefs := [approved.approvalRef]
  approvedFromUtc := some approved.approvedFromUtc
  approvedUntilUtc := approved.approvedUntilUtc
  seedSource := .approvedWorkflowRunModelInventory
  createdAt := now
  lastUpdatedAt := now

/-- A configured identity, where provider and model are both named. -/
def configuredRow (providerMode : String) (providerId modelId modelVersion : Option String)
    (now : String) : List ModelCatalogueEntry :=
  match truthy providerId, truthy modelId with
  | some providerId, some modelId =>
    if providerMode ∈ liveTextModes then
      [settingsSeedEntry providerMode providerId modelId modelVersion now]
    else []
  | _, _ => []

/-- `approved_models`: the inventory, if it can be read and no identity is approved twice. -/
def approvedModels (settings : SeedSettings) : Except PythonError (List ApprovedModel) :=
  match settings.inventory with
  | none => .error .valueError
  | some models =>
    let identities := models.flatMap fun model => model.workflowPackIds.map fun packId =>
      (model.providerId, model.providerMode, model.modelId, model.modelVersion, packId)
    if identities.Nodup then .ok models else .error .valueError

/-- Write rows under their keys, later ones over earlier ones. -/
def collectRows (rows : List ModelCatalogueEntry) : Dict String ModelCatalogueEntry :=
  rows.foldl (fun entries row => entries.insert row.entryId row) .empty

/-- The configured pair, then the inventory over it. -/
def seedRows (settings : SeedSettings) (approved : List ApprovedModel) (now : String) :
    List ModelCatalogueEntry :=
  configuredRow settings.providerMode settings.providerId settings.modelId
      settings.modelVersion now ++
    configuredRow settings.providerMode settings.fallbackProviderId settings.fallbackModelId
      settings.fallbackModelVersion now ++
    approved.map fun model => inventorySeedEntry model now

/-- `build_seed_model_catalogue_entries`: one row per key, in the order of the keys. -/
def buildSeedModelCatalogueEntries (settings : SeedSettings) (now : String) :
    Except PythonError (List ModelCatalogueEntry) := do
  let approved ← approvedModels settings
  return (sortedEntries (collectRows (seedRows settings approved now))).map Prod.snd

/-! ### Reconciliation -/

/-- `_preserve_assessed_capabilities`: unknown never overwrites known, and degradations
survive. -/
def preserveAssessedCapabilities (candidate existing : ModelCatalogueEntry) :
    ModelCatalogueEntry :=
  { candidate with
    supportsStructuredOutput := candidate.supportsStructuredOutput.or
      existing.supportsStructuredOutput
    supportsToolCalling := candidate.supportsToolCalling.or existing.supportsToolCalling
    supportsStreaming := candidate.supportsStreaming.or existing.supportsStreaming
    contextWindowTokens := candidate.contextWindowTokens.or existing.contextWindowTokens
    maxOutputTokens := candidate.maxOutputTokens.or existing.maxOutputTokens
    capabilityDegradations :=
      if existing.capabilityDegradations.entries ≠ [] then existing.capabilityDegradations
      else candidate.capabilityDegradations }

/-- The row a seed becomes over an existing row of the same candidate. The lifecycle state is
governed: only a change of the seeding authority asserts it again, and never out of a state an
operator has ended the model in. -/
def seedOver (seed existing : ModelCatalogueEntry) : ModelCatalogueEntry :=
  preserveAssessedCapabilities
    { seed with
      createdAt := existing.createdAt
      lifecycleState :=
        if seed.seedSource = existing.seedSource ∨
            existing.lifecycleState ∈ operatorTerminalLifecycleStates then
          existing.lifecycleState
        else seed.lifecycleState }
    existing

/-- A row up to its own provenance (`_SEED_MANAGED_EXCLUDES`). -/
def ModelCatalogueEntry.undated (entry : ModelCatalogueEntry) : ModelCatalogueEntry :=
  { entry with createdAt := "", lastUpdatedAt := "" }

/-- What becomes of a seed row. -/
inductive SeedVerdict
  | create
  | identityConflict
  | unchanged
  | update (candidate : ModelCatalogueEntry)
  deriving DecidableEq

/-- One round of `ensure_model_catalogue_seeded`, over the row found at the seed's key. -/
def reconcile (sha256 : String → String) (seed : ModelCatalogueEntry) :
    Option ModelCatalogueEntry → SeedVerdict
  | none => .create
  | some existing =>
    if existing.candidateIdV2 sha256 ≠ seed.candidateIdV2 sha256 then .identityConflict
    else if (seedOver seed existing).undated = existing.undated then .unchanged
    else .update (seedOver seed existing)

/-- `ModelCatalogueSeedReport`. -/
structure SeedReport where
  createdCount : ℕ := 0
  updatedCount : ℕ := 0
  unchangedCount : ℕ := 0
  identityConflictCount : ℕ := 0
  deriving DecidableEq

def SeedReport.count (report : SeedReport) : SeedVerdict → SeedReport
  | .create => { report with createdCount := report.createdCount + 1 }
  | .identityConflict => { report with identityConflictCount := report.identityConflictCount + 1 }
  | .unchanged => { report with unchangedCount := report.unchangedCount + 1 }
  | .update _ => { report with updatedCount := report.updatedCount + 1 }

/-- The rows after a verdict. -/
def applyVerdict (seed : ModelCatalogueEntry) (entries : Dict String ModelCatalogueEntry) :
    SeedVerdict → Dict String ModelCatalogueEntry
  | .create => entries.insert seed.entryId seed
  | .identityConflict => entries
  | .unchanged => entries
  | .update candidate => entries.insert seed.entryId candidate

/-- The pass over the seed rows. -/
def seedAll (sha256 : String → String) : List ModelCatalogueEntry → SeedReport →
    Dict String ModelCatalogueEntry → SeedReport × Dict String ModelCatalogueEntry
  | [], report, entries => (report, entries)
  | seed :: rest, report, entries =>
    let verdict := reconcile sha256 seed (entries.get? seed.entryId)
    seedAll sha256 rest (report.count verdict) (applyVerdict seed entries verdict)

/-- `ensure_model_catalogue_seeded`, with no one else at work. -/
def ensureModelCatalogueSeeded (sha256 : String → String) (settings : SeedSettings) (now : String)
    (entries : Dict String ModelCatalogueEntry) :
    Except PythonError (SeedReport × Dict String ModelCatalogueEntry) := do
  let seeds ← buildSeedModelCatalogueEntries settings now
  return seedAll sha256 seeds {} entries

/-! ### What a pass leaves -/

variable {approved : List ApprovedModel}

section Pass

variable {sha256 : String → String}

/-- Each row is stored under its own key. -/
def Keyed (entries : Dict String ModelCatalogueEntry) : Prop :=
  ∀ key row, entries.get? key = some row → row.entryId = key

variable {entries : Dict String ModelCatalogueEntry} {now : String}
  {seeds : List ModelCatalogueEntry} {settings : SeedSettings} {report : SeedReport}
  (rows : List ModelCatalogueEntry) {seed : ModelCatalogueEntry} {key : String}

theorem Keyed.insert (h : Keyed entries) {row : ModelCatalogueEntry}
    (hrow : row.entryId = key) : Keyed (entries.insert key row) :=
  forall_insert hrow h

/-- A row is collected when no later one has its key. -/
theorem get?_collectRows (key : String) :
    (collectRows rows).get? key = rows.reverse.find? (·.entryId = key) := by
  induction rows using reverseRecOn with
  | nil => rfl
  | append_singleton earlier row ih =>
    rw [collectRows, foldl_append, foldl_cons, foldl_nil, get?_insert,
      reverse_append, reverse_singleton, singleton_append, find?_cons]
    by_cases hkey : key = row.entryId
    · simp [hkey]
    · rw [if_neg hkey]
      simp only [Ne.symm hkey, decide_false]
      exact ih

theorem keyed_collectRows : Keyed (collectRows rows) := by
  intro key row hfound
  rw [get?_collectRows] at hfound
  simpa using find?_some hfound

theorem buildSeed_eq_ok :
    buildSeedModelCatalogueEntries settings now = .ok seeds ↔
      ∃ approved, approvedModels settings = .ok approved ∧
        (sortedEntries (collectRows (seedRows settings approved now))).map Prod.snd = seeds := by
  rw [buildSeedModelCatalogueEntries, bind_eq_ok]
  exact exists_congr fun approved => and_congr_right fun _ => pure_eq_ok

/-- The seeded rows are the collected ones. -/
theorem mem_seeds :
    seed ∈ (sortedEntries (collectRows (seedRows settings approved now))).map Prod.snd ↔
      (collectRows (seedRows settings approved now)).get? seed.entryId = some seed := by
  generalize hrows : collectRows (seedRows settings approved now) = rows
  have hkeyed : Keyed rows := hrows ▸ keyed_collectRows _
  simp only [mem_map, (sortedEntries_perm rows).mem_iff]
  constructor
  · rintro ⟨⟨key, row⟩, hmem, rfl⟩
    have hfound := get?_eq_some_iff.mpr hmem
    exact (hkeyed key row hfound) ▸ hfound
  · intro hfound
    exact ⟨(seed.entryId, seed), get?_eq_some_iff.mp hfound, rfl⟩

/-- The seeded rows have pairwise distinct keys. -/
theorem seeds_nodup (h : buildSeedModelCatalogueEntries settings now = .ok seeds) :
    (seeds.map (·.entryId)).Nodup := by
  obtain ⟨approved, -, rfl⟩ := buildSeed_eq_ok.mp h
  generalize hrows : collectRows (seedRows settings approved now) = rows
  have hkeyed : Keyed rows := hrows ▸ keyed_collectRows _
  have hkeys : ((sortedEntries rows).map Prod.snd).map (·.entryId) =
      (sortedEntries rows).map Prod.fst := by
    rw [map_map]
    refine map_congr_left fun entry hentry => ?_
    exact hkeyed entry.1 entry.2
      (get?_eq_some_iff.mpr ((sortedEntries_perm rows).mem_iff.mp hentry))
  rw [hkeys]
  exact ((sortedEntries_perm rows).map Prod.fst).nodup_iff.mpr rows.nodup_keys

/-- The row at a seed's key after its round. -/
def settledRow (sha256 : String → String) (seed : ModelCatalogueEntry)
    (existing : Option ModelCatalogueEntry) : Option ModelCatalogueEntry :=
  match reconcile sha256 seed existing with
  | .create => some seed
  | .identityConflict => existing
  | .unchanged => existing
  | .update candidate => some candidate

theorem get?_applyVerdict (seed : ModelCatalogueEntry) (entries : Dict String ModelCatalogueEntry)
    (key : String) :
    (applyVerdict seed entries (reconcile sha256 seed (entries.get? seed.entryId))).get? key =
      if key = seed.entryId then settledRow sha256 seed (entries.get? seed.entryId)
      else entries.get? key := by
  by_cases hkey : key = seed.entryId
  · subst hkey
    rw [if_pos rfl, settledRow]
    cases reconcile sha256 seed (entries.get? seed.entryId) <;> simp [applyVerdict]
  · rw [if_neg hkey]
    cases reconcile sha256 seed (entries.get? seed.entryId) <;>
      simp [applyVerdict, get?_insert, hkey]

/-- A pass leaves the rows at other keys alone. -/
theorem get?_seedAll_of_notMem (h : key ∉ seeds.map (·.entryId)) :
    (seedAll sha256 seeds report entries).2.get? key = entries.get? key := by
  induction seeds generalizing report entries with
  | nil => rfl
  | cons seed rest ih =>
    rw [map_cons, mem_cons, not_or] at h
    rw [seedAll, ih h.2, get?_applyVerdict, if_neg h.1]

/-- A pass leaves at the key of a seed what its own round makes of the row there. -/
theorem get?_seedAll_of_mem (hnodup : (seeds.map (·.entryId)).Nodup)
    (hmem : seed ∈ seeds) :
    (seedAll sha256 seeds report entries).2.get? seed.entryId =
      settledRow sha256 seed (entries.get? seed.entryId) := by
  induction seeds generalizing report entries with
  | nil => cases hmem
  | cons first rest ih =>
    rw [map_cons, nodup_cons] at hnodup
    rw [seedAll]
    rcases mem_cons.mp hmem with rfl | hrest
    · rw [get?_seedAll_of_notMem hnodup.1, get?_applyVerdict, if_pos rfl]
    · have hne : seed.entryId ≠ first.entryId := fun heq =>
        hnodup.1 (heq ▸ mem_map_of_mem hrest)
      rw [ih hnodup.2 hrest, get?_applyVerdict, if_neg hne]

/-- A verdict that writes nothing. -/
def SeedVerdict.idle : SeedVerdict → Bool
  | .identityConflict | .unchanged => true
  | .create | .update _ => false

/-- A pass in which every round is idle changes no row and counts no write. -/
theorem seedAll_idle
    (h : ∀ seed ∈ seeds, (reconcile sha256 seed (entries.get? seed.entryId)).idle) :
    (seedAll sha256 seeds report entries).2 = entries ∧
      (seedAll sha256 seeds report entries).1.createdCount = report.createdCount ∧
      (seedAll sha256 seeds report entries).1.updatedCount = report.updatedCount := by
  induction seeds generalizing report with
  | nil => exact ⟨rfl, rfl, rfl⟩
  | cons seed rest ih =>
    have hidle := h seed (.head _)
    have hrest : ∀ other ∈ rest, (reconcile sha256 other (entries.get? other.entryId)).idle :=
      fun other hother => h other (.tail _ hother)
    rw [seedAll]
    cases hverdict : reconcile sha256 seed (entries.get? seed.entryId) with
    | create | update candidate => simp [hverdict, SeedVerdict.idle] at hidle
    | identityConflict | unchanged => exact ih hrest

end Pass

/-! ### Repeated passes -/

section Repeat

variable {sha256 : String → String} {settings : SeedSettings} {now later : String}

/-- The row of a pass at another time. -/
def ModelCatalogueEntry.redated (entry : ModelCatalogueEntry) (now : String) :
    ModelCatalogueEntry :=
  { entry with createdAt := now, lastUpdatedAt := now }

@[simp] theorem redated_toServingTuple (entry : ModelCatalogueEntry) (now : String) :
    (entry.redated now).toServingTuple = entry.toServingTuple := rfl

theorem configuredRow_redated (providerMode : String)
    (providerId modelId modelVersion : Option String) (now later : String) :
    configuredRow providerMode providerId modelId modelVersion later =
      (configuredRow providerMode providerId modelId modelVersion now).map (·.redated later) := by
  unfold configuredRow
  split
  · split_ifs <;> rfl
  · rfl

theorem seedRows_redated (settings : SeedSettings) (approved : List ApprovedModel)
    (now later : String) :
    seedRows settings approved later = (seedRows settings approved now).map (·.redated later) := by
  simp only [seedRows, map_append, map_map, ← configuredRow_redated]
  rfl

/-- The rows of a later pass under the same settings are those of the earlier one, redated. -/
theorem exists_earlier_seed {seed : ModelCatalogueEntry}
    (h : (collectRows (seedRows settings approved later)).get? seed.entryId = some seed) :
    ∃ earlier, (collectRows (seedRows settings approved now)).get? earlier.entryId =
      some earlier ∧ seed = earlier.redated later := by
  rw [get?_collectRows, seedRows_redated settings approved now, ← map_reverse,
    find?_map] at h
  obtain ⟨earlier, hfound, rfl⟩ := Option.map_eq_some_iff.mp h
  exact ⟨earlier, by rw [get?_collectRows]; exact hfound, rfl⟩

/-! The row a seed becomes, field by field. -/

section

variable (seed existing : ModelCatalogueEntry)

@[simp] theorem seedOver_seedSource :
    (seedOver seed existing).seedSource = seed.seedSource := rfl

theorem seedOver_lifecycleState :
    (seedOver seed existing).lifecycleState =
      if seed.seedSource = existing.seedSource ∨
        existing.lifecycleState ∈ operatorTerminalLifecycleStates then existing.lifecycleState
      else seed.lifecycleState := rfl

theorem undated_seedOver_redated (later : String) :
    (seedOver (seed.redated later) existing).undated = (seedOver seed existing).undated := rfl

/-- Seeding twice over a row is seeding once: the second time the seed has already become the
row's source, and nothing that was put back is lost. -/
theorem undated_seedOver_seedOver :
    (seedOver seed (seedOver seed existing)).undated = (seedOver seed existing).undated := by
  have hlifecycle : (seedOver seed (seedOver seed existing)).lifecycleState =
      (seedOver seed existing).lifecycleState := by
    rw [seedOver_lifecycleState, if_pos (.inl (seedOver_seedSource ..).symm)]
  have hdegradations : (seedOver seed (seedOver seed existing)).capabilityDegradations =
      (seedOver seed existing).capabilityDegradations := by
    simp only [seedOver, preserveAssessedCapabilities]
    split_ifs <;> simp_all
  have hkeep {α : Type} (a b : Option α) : a.or (a.or b) = a.or b := by cases a <;> rfl
  simp only [ModelCatalogueEntry.undated, ModelCatalogueEntry.mk.injEq, hlifecycle, hdegradations]
  simp [seedOver, preserveAssessedCapabilities, hkeep]

end

/-- A reconciled row is not written again: whatever round led to it, a later seed of the same
content finds nothing to change. -/
theorem reconcile_settled (seed : ModelCatalogueEntry) (existing : Option ModelCatalogueEntry)
    (later : String) :
    (reconcile sha256 (seed.redated later) (settledRow sha256 seed existing)).idle := by
  -- over a row with the seed's own content, seeding changes only dates
  have again (row : ModelCatalogueEntry)
      (hsame : row.candidateIdV2 sha256 = seed.candidateIdV2 sha256)
      (hrow : (seedOver seed row).undated = row.undated) :
      (reconcile sha256 (seed.redated later) (some row)).idle := by
    rw [reconcile, redated_toServingTuple, if_neg (not_not.mpr hsame),
      if_pos ((undated_seedOver_redated seed row later).trans hrow)]
    rfl
  cases existing with
  | none =>
    apply again seed rfl
    simp [seedOver, preserveAssessedCapabilities, ModelCatalogueEntry.undated]
  | some row =>
    by_cases hsame : row.candidateIdV2 sha256 = seed.candidateIdV2 sha256
    · by_cases hrow : (seedOver seed row).undated = row.undated
      · have hsettled : settledRow sha256 seed (some row) = some row := by
          simp [settledRow, reconcile, hsame, hrow]
        rw [hsettled]
        exact again row hsame hrow
      · have hsettled : settledRow sha256 seed (some row) = some (seedOver seed row) := by
          simp [settledRow, reconcile, hsame, hrow]
        rw [hsettled]
        exact again _ rfl (undated_seedOver_seedOver seed row)
    · have hsettled : settledRow sha256 seed (some row) = some row := by
        simp [settledRow, reconcile, hsame]
      rw [hsettled, reconcile, redated_toServingTuple, if_pos hsame]
      rfl

/-- A second pass under unchanged settings writes nothing. -/
theorem ensureModelCatalogueSeeded_again
    {entries : Dict String ModelCatalogueEntry}
    {outcome again : SeedReport × Dict String ModelCatalogueEntry}
    (hfirst : ensureModelCatalogueSeeded sha256 settings now entries = .ok outcome)
    (hsecond : ensureModelCatalogueSeeded sha256 settings later outcome.2 = .ok again) :
    again.1.createdCount = 0 ∧ again.1.updatedCount = 0 ∧ again.2 = outcome.2 := by
  obtain ⟨seeds, hseeds, hfirst⟩ := bind_eq_ok.mp hfirst
  obtain ⟨seeds', hseeds', hsecond⟩ := bind_eq_ok.mp hsecond
  obtain rfl := pure_eq_ok.mp hfirst
  obtain rfl := pure_eq_ok.mp hsecond
  have hnodup := seeds_nodup hseeds
  obtain ⟨approved, happroved, rfl⟩ := buildSeed_eq_ok.mp hseeds
  obtain ⟨approved', happroved', rfl⟩ := buildSeed_eq_ok.mp hseeds'
  obtain rfl : approved = approved' := Except.ok.inj (happroved.symm.trans happroved')
  have hidle : ∀ seed ∈ (sortedEntries (collectRows (seedRows settings approved later))).map
      Prod.snd, (reconcile sha256 seed ((seedAll sha256 ((sortedEntries (collectRows
        (seedRows settings approved now))).map Prod.snd) {} entries).2.get? seed.entryId)).idle := by
    intro seed hseed
    obtain ⟨earlier, hearlier, rfl⟩ := exists_earlier_seed (mem_seeds.mp hseed)
    rw [redated_toServingTuple, get?_seedAll_of_mem hnodup (mem_seeds.mpr hearlier)]
    exact reconcile_settled earlier _ later
  obtain ⟨hrows, hcreated, hupdated⟩ := seedAll_idle hidle
  exact ⟨hcreated, hupdated, hrows⟩

end Repeat

end LotusAI.Catalogue
