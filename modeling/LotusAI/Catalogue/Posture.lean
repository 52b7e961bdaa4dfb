import LotusAI.Catalogue.Lifecycle
import LotusAI.Catalogue.Seeding

/-!
# What seeding keeps of a governed posture

Operators move rows through their lifecycle, promotions add approval evidence, capabilities
are degraded and restored; seeding passes run in between, under settings that may change each
time. A pass rebuilds every configured row and puts back the assessed capabilities and the
degradations. It does not put back the evidence of promotions, and where the seeding authority
of a row changes it asserts the lifecycle state again, unless an operator has ended the model.
-/

namespace LotusAI.Catalogue

open Lib Provider

/-! ### Operations -/

/-- The rows and the recorded lifecycle events, in the order in which they were recorded. -/
structure CatalogueStore where
  entries : Dict String ModelCatalogueEntry
  lifecycleEvents : List ModelLifecycleTransition
  deriving DecidableEq

/-- A completed operation on the catalogue. A promotion or a restore is the effect of an
approved governed action. -/
inductive CatalogueOperation
  | seed (settings : SeedSettings) (now : String)
  | transition (entryId : String) (toState : ModelLifecycleState) (reason requestedBy hex
      now : String)
  | promote (entryId : String) (toState : ModelLifecycleState) (evaluationRunId : String)
      (run : Option RunVerdict) (reason requestedBy approvedBy hex now : String)
  | degrade (entryId dimension reason degradedBy now : String)
  | restore (entryId dimension evaluationRunId : String) (run : Option RunVerdict) (now : String)

namespace CatalogueStore

/-- Write back what became of the row at a key, if a row is there and the step accepts it. -/
def advance (store : CatalogueStore) (entryId : String)
    (step : ModelCatalogueEntry → Except Raised (ModelCatalogueEntry ×
      Option ModelLifecycleTransition)) : CatalogueStore :=
  match store.entries.get? entryId with
  | none => store
  | some entry =>
    match step entry with
    | .error _ => store
    | .ok (updated, event) =>
      ⟨store.entries.insert entryId updated, store.lifecycleEvents ++ event.toList⟩

end CatalogueStore

/-- The store after an operation; a refused one leaves it unchanged. -/
def CatalogueOperation.perform (sha256 : String → String) (store : CatalogueStore) :
    CatalogueOperation → CatalogueStore
  | seed settings now =>
    match ensureModelCatalogueSeeded sha256 settings now store.entries with
    | .ok (_, entries) => { store with entries }
    | .error _ => store
  | transition entryId toState reason requestedBy hex now => store.advance entryId fun entry =>
      (transitionStep entry toState reason requestedBy hex now).map fun (row, event) =>
        (row, some event)
  | promote entryId toState evaluationRunId run reason requestedBy approvedBy hex now =>
    store.advance entryId fun entry =>
      (promotionStep entry toState evaluationRunId run reason requestedBy approvedBy hex
        now).map fun (row, event) => (row, some event)
  | degrade entryId dimension reason degradedBy now => store.advance entryId fun entry =>
      (degradationStep entryId entry dimension reason degradedBy now).map fun row => (row, none)
  | restore entryId dimension evaluationRunId run now => store.advance entryId fun entry =>
      (restoreStep entry dimension evaluationRunId run now).map fun row => (row, none)

/-- The store after a sequence of operations. -/
def CatalogueStore.performAll (sha256 : String → String) (start : CatalogueStore)
    (operations : List CatalogueOperation) : CatalogueStore :=
  operations.foldl (CatalogueOperation.perform sha256) start

/-! ### The property -/

/-- A reference that a recorded promotion of this row has appended. -/
def Promoted (events : List ModelLifecycleTransition) (entryId ref : String) : Prop :=
  ∃ event ∈ events, event.entryId = entryId ∧ event.approvalEvidenceRef = some ref

/-- No capability that was assessed has become unknown. -/
def CapabilitiesKept (row row' : ModelCatalogueEntry) : Prop :=
  (row.supportsStructuredOutput.isSome → row'.supportsStructuredOutput.isSome) ∧
    (row.supportsToolCalling.isSome → row'.supportsToolCalling.isSome) ∧
    (row.supportsStreaming.isSome → row'.supportsStreaming.isSome) ∧
    (row.contextWindowTokens.isSome → row'.contextWindowTokens.isSome) ∧
    (row.maxOutputTokens.isSome → row'.maxOutputTokens.isSome)

/-- What a pass must leave of the rows it found. -/
structure RowKept (events : List ModelLifecycleTransition) (entryId : String)
    (row row' : ModelCatalogueEntry) : Prop where
  evidence : ∀ ref ∈ row.approvalEvidenceRefs, Promoted events entryId ref →
    ref ∈ row'.approvalEvidenceRefs
  lifecycle : row.lifecycleState.ineligible → row'.lifecycleState.ineligible
  capabilities : CapabilitiesKept row row'

/-- A seeding pass keeps the governed posture: of every row it found, and in that a second pass
under the same settings writes nothing. -/
structure PosturePreserved (sha256 : String → String) (settings : SeedSettings)
    (store : CatalogueStore) (entries : Dict String ModelCatalogueEntry) : Prop where
  rows : ∀ entryId row, store.entries.get? entryId = some row →
    ∃ row', entries.get? entryId = some row' ∧ RowKept store.lifecycleEvents entryId row row'
  again : ∀ later outcome, ensureModelCatalogueSeeded sha256 settings later entries = .ok outcome →
    outcome.1.createdCount = 0 ∧ outcome.1.updatedCount = 0 ∧ outcome.2 = entries

/-- No seed row over a stored row of the same candidate lacks the evidence of its promotions,
or comes from another authority while the stored row is degraded. -/
def Harmless (sha256 : String → String) (settings : SeedSettings) (now : String)
    (store : CatalogueStore) : Prop :=
  ∀ seeds, buildSeedModelCatalogueEntries settings now = .ok seeds →
    ∀ seed ∈ seeds, ∀ row, store.entries.get? seed.entryId = some row →
    row.candidateIdV2 sha256 = seed.candidateIdV2 sha256 →
    (∀ ref ∈ row.approvalEvidenceRefs, Promoted store.lifecycleEvents seed.entryId ref →
      ref ∈ seed.approvalEvidenceRefs) ∧
    (row.lifecycleState = .degraded → row.seedSource = seed.seedSource)

/-! ### One row -/

section Row

variable {sha256 : String → String} {events : List ModelLifecycleTransition} {entryId : String}

theorem RowKept.refl (row : ModelCatalogueEntry) : RowKept events entryId row row :=
  ⟨fun _ hmem _ => hmem, fun h => h, fun h => h, fun h => h, fun h => h, fun h => h, fun h => h⟩

theorem capabilitiesKept_seedOver (seed row : ModelCatalogueEntry) :
    CapabilitiesKept row (seedOver seed row) := by
  have hor {α : Type} (a b : Option α) (hb : b.isSome) : (a.or b).isSome := by
    cases a with
    | none => exact hb
    | some => rfl
  exact ⟨hor _ _, hor _ _, hor _ _, hor _ _, hor _ _⟩

variable {now : String} {seed row : ModelCatalogueEntry}

/-- A seed asserts a state in which the model may serve. -/
theorem configuredRow_eligible {providerMode : String}
    {providerId modelId modelVersion : Option String}
    (h : seed ∈ configuredRow providerMode providerId modelId modelVersion now) :
    seed.lifecycleState.ineligible = false := by
  unfold configuredRow at h
  split at h
  · split_ifs at h
    · rw [List.mem_singleton.mp h]
      rfl
    · cases h
  · cases h

theorem seed_eligible {settings : SeedSettings} {seeds : List ModelCatalogueEntry}
    (h : buildSeedModelCatalogueEntries settings now = .ok seeds) (hseed : seed ∈ seeds) :
    seed.lifecycleState.ineligible = false := by
  obtain ⟨approved, -, rfl⟩ := buildSeed_eq_ok.mp h
  have hfound := mem_seeds.mp hseed
  rw [get?_collectRows] at hfound
  have hrow := List.mem_reverse.mp (List.mem_of_find?_eq_some hfound)
  simp only [seedRows, List.mem_append, List.mem_map] at hrow
  rcases hrow with (hprimary | hfallback) | ⟨model, -, rfl⟩
  · exact configuredRow_eligible hprimary
  · exact configuredRow_eligible hfallback
  · rfl

/-- Over a stored row, a seed that asserts an eligible state keeps the posture iff it brings the
promotions' evidence and does not revive a degraded row. -/
theorem rowKept_seedOver_iff (hseed : seed.lifecycleState.ineligible = false) :
    RowKept events entryId row (seedOver seed row) ↔
      (∀ ref ∈ row.approvalEvidenceRefs, Promoted events entryId ref →
        ref ∈ seed.approvalEvidenceRefs) ∧
      (row.lifecycleState = .degraded → row.seedSource = seed.seedSource) := by
  constructor
  · intro hkept
    refine ⟨hkept.evidence, fun hdegraded => ?_⟩
    have hineligible := hkept.lifecycle (by rw [hdegraded]; rfl)
    rw [seedOver_lifecycleState] at hineligible
    split_ifs at hineligible with hsource
    · rcases hsource with hsource | hterminal
      · exact hsource.symm
      · rw [hdegraded] at hterminal
        exact absurd hterminal (by decide)
    · rw [hseed] at hineligible
      cases hineligible
  · rintro ⟨hevidence, hdegraded⟩
    refine ⟨hevidence, fun hineligible => ?_, capabilitiesKept_seedOver seed row⟩
    rw [seedOver_lifecycleState]
    split_ifs with hsource
    · exact hineligible
    · -- of the ineligible states only a degraded one is open to another authority
      push Not at hsource
      cases hstate : row.lifecycleState with
      | degraded => exact absurd (hdegraded hstate).symm hsource.1
      | deprecated | retired => exact absurd (by rw [hstate]; decide) hsource.2
      | _ =>
        rw [hstate] at hineligible
        cases hineligible

/-- The round of a seed keeps the posture of the row it finds iff it is harmless to it. -/
theorem rowKept_settledRow_iff (hseed : seed.lifecycleState.ineligible = false) :
    (∃ row', settledRow sha256 seed (some row) = some row' ∧ RowKept events entryId row row') ↔
      (row.candidateIdV2 sha256 = seed.candidateIdV2 sha256 →
        (∀ ref ∈ row.approvalEvidenceRefs, Promoted events entryId ref →
          ref ∈ seed.approvalEvidenceRefs) ∧
        (row.lifecycleState = .degraded → row.seedSource = seed.seedSource)) := by
  by_cases hsame : row.candidateIdV2 sha256 = seed.candidateIdV2 sha256
  · by_cases hrow : (seedOver seed row).undated = row.undated
    · have hsettled : settledRow sha256 seed (some row) = some row := by
        simp [settledRow, reconcile, hsame, hrow]
      -- nothing to change means that the seed already says what the row says
      have hrefs : (seedOver seed row).undated.approvalEvidenceRefs =
          row.undated.approvalEvidenceRefs := by rw [hrow]
      have hsource : (seedOver seed row).undated.seedSource = row.undated.seedSource := by
        rw [hrow]
      rw [hsettled]
      refine ⟨fun _ _ => ⟨fun ref hmem _ => hrefs ▸ hmem, fun _ => hsource.symm⟩, fun _ => ?_⟩
      exact ⟨row, rfl, RowKept.refl row⟩
    · have hsettled : settledRow sha256 seed (some row) = some (seedOver seed row) := by
        simp [settledRow, reconcile, hsame, hrow]
      rw [hsettled, ← rowKept_seedOver_iff hseed]
      constructor
      · rintro ⟨row', hrow', hkept⟩ _
        exact Option.some.inj hrow' ▸ hkept
      · intro hkept
        exact ⟨_, rfl, hkept hsame⟩
  · have hsettled : settledRow sha256 seed (some row) = some row := by
      simp [settledRow, reconcile, hsame]
    rw [hsettled]
    exact ⟨fun _ h => absurd h hsame, fun _ => ⟨row, rfl, RowKept.refl row⟩⟩

end Row

/-! ### Passes -/

/-- After any operations on any store, under any settings: a pass keeps the governed posture iff
its seed rows are harmless. Assessed capabilities and repetition are kept in any case. -/
theorem posturePreserved_iff (sha256 : String → String) (start : CatalogueStore)
    (operations : List CatalogueOperation) (settings : SeedSettings) (now : String)
    (outcome : SeedReport × Dict String ModelCatalogueEntry)
    (hpass : ensureModelCatalogueSeeded sha256 settings now
      (start.performAll sha256 operations).entries = .ok outcome) :
    PosturePreserved sha256 settings (start.performAll sha256 operations) outcome.2 ↔
      Harmless sha256 settings now (start.performAll sha256 operations) := by
  generalize start.performAll sha256 operations = store at hpass ⊢
  obtain ⟨seeds, hseeds, hout⟩ := bind_eq_ok.mp hpass
  obtain rfl := pure_eq_ok.mp hout
  have hnodup := seeds_nodup hseeds
  constructor
  · intro hposture seeds' hseeds' seed hseed row hrow
    obtain rfl : seeds = seeds' := Except.ok.inj (hseeds.symm.trans hseeds')
    apply (rowKept_settledRow_iff (seed_eligible hseeds hseed)).mp
    have hkept := hposture.rows seed.entryId row hrow
    rwa [get?_seedAll_of_mem hnodup hseed, hrow] at hkept
  · intro hharmless
    refine ⟨fun entryId row hrow => ?_, fun later outcome houtcome =>
      ensureModelCatalogueSeeded_again hpass houtcome⟩
    by_cases hkey : entryId ∈ seeds.map (·.entryId)
    · obtain ⟨seed, hseed, rfl⟩ := List.mem_map.mp hkey
      rw [get?_seedAll_of_mem hnodup hseed, hrow]
      exact (rowKept_settledRow_iff (seed_eligible hseeds hseed)).mpr
        (hharmless seeds hseeds seed hseed row hrow)
    · rw [get?_seedAll_of_notMem hkey, hrow]
      exact ⟨row, rfl, RowKept.refl row⟩

/-! ### Two passes over a promoted model -/

section Samples

/-- One live identity is configured, and nothing is approved by the inventory. -/
def configuredOnly : SeedSettings :=
  ⟨"openai", some "text.openai", some "gpt", none, none, none, none, some []⟩

/-- The same identity, approved by the inventory. -/
def approvedByInventory : SeedSettings :=
  { configuredOnly with inventory := some [⟨"text.openai", "openai", "gpt", "gpt", ["pack"],
    "model-risk:1", "2026-01-01T00:00:00Z", none⟩] }

/-- Catalogue the model, evaluate it and promote it on the evidence of a run. -/
def promoteConfigured : List CatalogueOperation :=
  [.seed configuredOnly "t0",
    .transition "text.openai:gpt" .evaluating "trial" "ops" "0" "t1",
    .promote "text.openai:gpt" .approved "run-1" (some ⟨"COMPLETED", some "PASS"⟩) "good" "ops"
      "lead" "1" "t2"]

/-- The same, and then an operator degrades the model. -/
def degradeConfigured : List CatalogueOperation :=
  promoteConfigured ++ [.transition "text.openai:gpt" .degraded "incident" "ops" "2" "t3"]

abbrev catalogueAfter (operations : List CatalogueOperation) : CatalogueStore :=
  CatalogueStore.performAll id ⟨.empty, []⟩ operations

/-- A pass under unchanged settings drops the evidence of a promotion, and a pass after the
inventory has approved the model puts a degraded model back into service. -/
theorem seeding_drops_evidence_and_revives :
    (∃ outcome, ensureModelCatalogueSeeded id configuredOnly "t4"
        (catalogueAfter promoteConfigured).entries = .ok outcome ∧
      ¬ PosturePreserved id configuredOnly (catalogueAfter promoteConfigured) outcome.2) ∧
    ∃ outcome, ensureModelCatalogueSeeded id approvedByInventory "t4"
        (catalogueAfter degradeConfigured).entries = .ok outcome ∧
      ¬ PosturePreserved id approvedByInventory (catalogueAfter degradeConfigured) outcome.2 := by
  constructor
  · refine ⟨_, rfl, fun hposture => ?_⟩
    have hbefore : ((catalogueAfter promoteConfigured).entries.get? "text.openai:gpt").map
        (·.approvalEvidenceRefs) = some ["evaluation-run:run-1"] := by decide +kernel
    obtain ⟨row, hrow, hrefs⟩ := Option.map_eq_some_iff.mp hbefore
    obtain ⟨row', hrow', hkept⟩ := hposture.rows _ row hrow
    have hpromoted : Promoted (catalogueAfter promoteConfigured).lifecycleEvents "text.openai:gpt"
        "evaluation-run:run-1" := by
      unfold Promoted
      decide +kernel
    have hmem := hkept.evidence _ (by rw [hrefs]; exact List.mem_singleton_self _) hpromoted
    have hafter : ((catalogueAfter (promoteConfigured ++ [.seed configuredOnly "t4"])).entries.get?
        "text.openai:gpt").map (·.approvalEvidenceRefs) = some [] := by decide +kernel
    obtain ⟨row'', hrow'', hnone⟩ := Option.map_eq_some_iff.mp hafter
    obtain rfl : row' = row'' := Option.mem_unique hrow' hrow''
    rw [hnone] at hmem
    cases hmem
  · refine ⟨_, rfl, fun hposture => ?_⟩
    have hbefore : ((catalogueAfter degradeConfigured).entries.get? "text.openai:gpt").map
        (·.lifecycleState) = some .degraded := by decide +kernel
    obtain ⟨row, hrow, hdegraded⟩ := Option.map_eq_some_iff.mp hbefore
    obtain ⟨row', hrow', hkept⟩ := hposture.rows _ row hrow
    have hineligible := hkept.lifecycle (by rw [hdegraded]; rfl)
    have hafter : ((catalogueAfter (degradeConfigured ++
        [.seed approvedByInventory "t4"])).entries.get? "text.openai:gpt").map
          (·.lifecycleState) = some .approved := by decide +kernel
    obtain ⟨row'', hrow'', happroved⟩ := Option.map_eq_some_iff.mp hafter
    obtain rfl : row' = row'' := Option.mem_unique hrow' hrow''
    rw [happroved] at hineligible
    cases hineligible

/-- Before the promotion the same pass keeps the posture. -/
theorem posturePreserved_before_promotion :
    ∃ outcome, ensureModelCatalogueSeeded id configuredOnly "t4"
        (catalogueAfter (promoteConfigured.take 2)).entries = .ok outcome ∧
      PosturePreserved id configuredOnly (catalogueAfter (promoteConfigured.take 2))
        outcome.2 := by
  obtain ⟨outcome, hpass⟩ : ∃ outcome, ensureModelCatalogueSeeded id configuredOnly "t4"
      (catalogueAfter (promoteConfigured.take 2)).entries = .ok outcome := ⟨_, rfl⟩
  refine ⟨outcome, hpass, (posturePreserved_iff id _ _ _ _ outcome hpass).mpr ?_⟩
  intro seeds hseeds seed hseed row hrow _
  have hfresh : (catalogueAfter (promoteConfigured.take 2)).entries.values.map
      (fun row => (row.approvalEvidenceRefs, row.lifecycleState)) = [([], .evaluating)] := by
    decide +kernel
  have hmem := List.mem_map_of_mem (f := fun row : ModelCatalogueEntry =>
    (row.approvalEvidenceRefs, row.lifecycleState)) (Dict.mem_values_iff.mpr ⟨_, hrow⟩)
  rw [hfresh, List.mem_singleton, Prod.mk.injEq] at hmem
  refine ⟨fun ref href => ?_, fun hdegraded => ?_⟩
  · rw [hmem.1] at href
    cases href
  · rw [hmem.2] at hdegraded
    cases hdegraded

end Samples

end LotusAI.Catalogue
