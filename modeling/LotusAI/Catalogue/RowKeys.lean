import LotusAI.Catalogue.Serving

/-!
# What the row key leaves out

A row is stored under a key that leaves out the model family. Whatever goes through the key alone
confuses candidates that differ in their family: a binding returns the row of another family, and
of the approved models that share a key the last one is all that is seeded.
-/

namespace LotusAI.Catalogue

open Lib Provider List

/-! ### Bindings -/

/-- A bound row is the row of the candidate that the config names. -/
def BindsIdentity (sha256 : String → String) (entries : Dict String ModelCatalogueEntry)
    (config : ExecutionConfig) : Prop :=
  ∀ entry, bindLiveTextModelCatalogueEntry entries config = .ok entry →
    (servingTuple config).map (·.candidateIdV2 sha256) = some (entry.candidateIdV2 sha256)

/-- The row that serves under the config's key is of its model family, where the rest of the
identity is the same. -/
def FamilyStored (entries : Dict String ModelCatalogueEntry) (config : ExecutionConfig) : Prop :=
  ∀ tuple entry, servingTuple config = some tuple → entries.get? tuple.entryId = some entry →
    entry.lifecycleState.ineligible = false →
    { entry.toServingTuple with modelFamily := tuple.modelFamily } = tuple →
    entry.modelFamily = tuple.modelFamily

section Bindings

variable {sha256 : String → String} {entries : Dict String ModelCatalogueEntry}
  {config : ExecutionConfig} {entry : ModelCatalogueEntry}

theorem bind_eq_ok_iff :
    bindLiveTextModelCatalogueEntry entries config = .ok entry ↔
      ∃ tuple, servingTuple config = some tuple ∧ entries.get? tuple.entryId = some entry ∧
        entry.lifecycleState.ineligible = false ∧
        { entry.toServingTuple with modelFamily := tuple.modelFamily } = tuple := by
  unfold bindLiveTextModelCatalogueEntry
  cases servingTuple config with
  | none => simp
  | some tuple =>
    simp only [Option.some.injEq, exists_eq_left']
    cases entries.get? tuple.entryId with
    | none => simp
    | some found =>
      obtain ⟨providerId, modelFamily, modelRevision, deployment⟩ := tuple
      simp only [Option.some.injEq, ServingTuple.mk.injEq, true_and]
      split_ifs with hdiffers hineligible <;> grind

end Bindings

/-- Live settings of one model revision. -/
def revisionSettings (modelId : String) : SeedSettings :=
  ⟨"openai", some "p", some modelId, some "v", none, none, none, some []⟩

/-- A pass under each of some settings, from nothing stored. -/
def seededRows (settings : List SeedSettings) : Dict String ModelCatalogueEntry :=
  (CatalogueStore.performAll id ⟨.empty, []⟩ (settings.map (.seed · "t"))).entries

/-- The candidate that a row of the inventory approves. -/
def ApprovedModel.tuple (model : ApprovedModel) : ServingTuple :=
  ⟨model.providerId, model.modelId, model.modelVersion, none⟩

/-- Every approved candidate is seeded, with all its packs and references, and with no others. -/
structure ApprovalsKept (sha256 : String → String) (approved : List ApprovedModel)
    (seeds : List ModelCatalogueEntry) : Prop where
  seeded : ∀ model ∈ approved, ∃ seed ∈ seeds,
    seed.candidateIdV2 sha256 = model.tuple.candidateIdV2 sha256
  kept : ∀ model ∈ approved, ∀ seed ∈ seeds,
    seed.candidateIdV2 sha256 = model.tuple.candidateIdV2 sha256 →
    model.workflowPackIds ⊆ seed.approvedWorkflowPackIds ∧
      model.approvalRef ∈ seed.approvalEvidenceRefs
  own : ∀ seed ∈ seeds,
    (∀ packId ∈ seed.approvedWorkflowPackIds, ∃ model ∈ approved,
      model.tuple.candidateIdV2 sha256 = seed.candidateIdV2 sha256 ∧
        packId ∈ model.workflowPackIds) ∧
    ∀ ref ∈ seed.approvalEvidenceRefs, ∃ model ∈ approved,
      model.tuple.candidateIdV2 sha256 = seed.candidateIdV2 sha256 ∧ model.approvalRef = ref

/-- The last row of the inventory under a key. -/
def lastUnder (approved : List ApprovedModel) (key : String) : Option ApprovedModel :=
  approved.reverse.find? (·.tuple.entryId = key)

/-- The last row under a key is of the same candidate as every other one under it, and repeats
its packs and its reference. -/
def LastRepeats (approved : List ApprovedModel) : Prop :=
  ∀ model ∈ approved, ∀ last, lastUnder approved model.tuple.entryId = some last →
    last.tuple = model.tuple ∧ model.workflowPackIds ⊆ last.workflowPackIds ∧
      model.approvalRef = last.approvalRef

section Approvals

variable {sha256 : String → String} {settings : SeedSettings} {approved : List ApprovedModel}
  {seed : ModelCatalogueEntry} {now : String}

/-- What is seeded under the key of an approved model is the last one under it. -/
theorem seed_of_approved {model : ApprovedModel} (h : model ∈ approved)
    {seeds : List ModelCatalogueEntry}
    (hseeds : (sortedEntries (collectRows (seedRows settings approved now))).map Prod.snd = seeds) :
    ∃ last, lastUnder approved model.tuple.entryId = some last ∧
      inventorySeedEntry last now ∈ seeds ∧
      ∀ seed ∈ seeds, seed.entryId = model.tuple.entryId → seed = inventorySeedEntry last now := by
  obtain ⟨last, hlast⟩ : ∃ last, lastUnder approved model.tuple.entryId = some last := by
    rw [← Option.isSome_iff_exists, lastUnder, find?_isSome]
    exact ⟨model, mem_reverse.mpr h, decide_eq_true rfl⟩
  have hrow : (collectRows (seedRows settings approved now)).get? model.tuple.entryId =
      some (inventorySeedEntry last now) := by
    rw [get?_collectRows, seedRows, reverse_append, find?_append, ← map_reverse,
      find?_map]
    change ((lastUnder approved model.tuple.entryId).map _).or _ = _
    rw [hlast]
    rfl
  have hkey : last.tuple.entryId = model.tuple.entryId := by simpa using find?_some hlast
  refine ⟨last, hlast, ?_, fun seed hseed hsame => ?_⟩
  · rw [← hseeds, mem_seeds]
    exact (congrArg _ hkey).trans hrow
  · rw [← hseeds, mem_seeds, hsame] at hseed
    exact Option.mem_unique hseed hrow

/-- A seeded row has approvals only as the row of a model in the inventory. -/
theorem approvals_of_mem (h : seed ∈ seedRows settings approved now) :
    seed.approvedWorkflowPackIds = [] ∧ seed.approvalEvidenceRefs = [] ∨
      ∃ model ∈ approved, seed = inventorySeedEntry model now := by
  have configured {providerId modelId modelVersion : Option String}
      (h : seed ∈ configuredRow settings.providerMode providerId modelId modelVersion now) :
      seed.approvedWorkflowPackIds = [] ∧ seed.approvalEvidenceRefs = [] := by
    unfold configuredRow at h
    split at h
    · split_ifs at h
      · rw [mem_singleton.mp h]
        exact ⟨rfl, rfl⟩
      · cases h
    · cases h
  rcases mem_append.mp h with hpair | hinventory
  · exact .inl ((mem_append.mp hpair).elim configured configured)
  · obtain ⟨model, hmodel, rfl⟩ := mem_map.mp hinventory
    exact .inr ⟨model, hmodel, rfl⟩

/-- No approval is lost exactly if the last row under each key repeats the others. -/
theorem approvalsKept_iff (hsha : Function.Injective sha256)
    (happroved : approvedModels settings = .ok approved) (now : String) :
    ∃ seeds, buildSeedModelCatalogueEntries settings now = .ok seeds ∧
      (ApprovalsKept sha256 approved seeds ↔ LastRepeats approved) := by
  refine ⟨_, buildSeed_eq_ok.mpr ⟨approved, happroved, rfl⟩, ?_⟩
  generalize hseeds : (sortedEntries (collectRows (seedRows settings approved now))).map Prod.snd =
    seeds
  constructor
  · intro h model hmodel last hlast
    obtain ⟨last', hlast', hmem, hsole⟩ := seed_of_approved hmodel hseeds
    obtain rfl := Option.mem_unique hlast hlast'
    -- the seed of the model has its key, so it is the one of the last row
    obtain ⟨seed, hseed, hid⟩ := h.seeded model hmodel
    have htuple := candidateIdV2_injective hsha hid
    obtain rfl := hsole seed hseed (congrArg _ htuple)
    obtain ⟨hpacks, href⟩ := h.kept model hmodel _ hmem hid
    exact ⟨htuple, hpacks, List.mem_singleton.mp href⟩
  · intro h
    refine ⟨fun model hmodel => ?_, fun model hmodel seed hseed hid => ?_, fun seed hseed => ?_⟩
    · obtain ⟨last, hlast, hmem, -⟩ := seed_of_approved hmodel hseeds
      exact ⟨_, hmem, congrArg _ (h model hmodel last hlast).1⟩
    · obtain ⟨last, hlast, -, hsole⟩ := seed_of_approved hmodel hseeds
      obtain ⟨-, hpacks, href⟩ := h model hmodel last hlast
      rw [hsole seed hseed (congrArg _ (candidateIdV2_injective hsha hid))]
      exact ⟨hpacks, List.mem_singleton.mpr href⟩
    · rw [← hseeds, mem_seeds, get?_collectRows] at hseed
      have hrow := List.mem_reverse.mp (List.mem_of_find?_eq_some hseed)
      rcases approvals_of_mem hrow with ⟨hpacks, hrefs⟩ | ⟨model, hmodel, rfl⟩
      · rw [hpacks, hrefs]
        exact ⟨nofun, nofun⟩
      · exact ⟨fun packId hpack => ⟨model, hmodel, rfl, hpack⟩,
          fun ref href => ⟨model, hmodel, rfl, (List.mem_singleton.mp href).symm⟩⟩

end Approvals

/-- The model under an approval of its own for a pack. -/
def approvedFor (packId approvalRef : String) : ApprovedModel :=
  ⟨"p", "openai", "m", "v", [packId], approvalRef, "t", none⟩

def inventorySettings (approved : List ApprovedModel) : SeedSettings :=
  { revisionSettings "m" with inventory := some approved }

theorem approvalsKept_single : ∃ seeds,
    buildSeedModelCatalogueEntries (inventorySettings [approvedFor "a" "r"]) "t" = .ok seeds ∧
      ApprovalsKept id [approvedFor "a" "r"] seeds := by
  have happroved : approvedModels (inventorySettings [approvedFor "a" "r"]) =
      .ok [approvedFor "a" "r"] := by rfl
  obtain ⟨seeds, hseeds, hiff⟩ := approvalsKept_iff Function.injective_id happroved "t"
  refine ⟨seeds, hseeds, hiff.mpr fun model hmodel last hlast => ?_⟩
  rw [List.mem_singleton.mp hmodel,
    List.mem_singleton.mp (List.mem_reverse.mp (List.mem_of_find?_eq_some hlast))]
  exact ⟨rfl, List.Subset.refl _, rfl⟩

/-- Two approvals of one model for two packs: the seeded row lists the second pack alone. -/
theorem approval_lost :
    approvedModels (inventorySettings [approvedFor "a" "r", approvedFor "b" "s"]) =
        .ok [approvedFor "a" "r", approvedFor "b" "s"] ∧
      ∀ seeds, buildSeedModelCatalogueEntries
          (inventorySettings [approvedFor "a" "r", approvedFor "b" "s"]) "t" = .ok seeds →
        ¬ ApprovalsKept id [approvedFor "a" "r", approvedFor "b" "s"] seeds := by
  have hbuilt : buildSeedModelCatalogueEntries
      (inventorySettings [approvedFor "a" "r", approvedFor "b" "s"]) "t" =
        .ok [inventorySeedEntry (approvedFor "b" "s") "t"] := by rfl
  refine ⟨by rfl, fun seeds hseeds h => ?_⟩
  obtain rfl := Except.ok.inj (hbuilt.symm.trans hseeds)
  have hlost := (h.kept _ (.head _) _ (.head _) rfl).1 (.head _)
  simp [inventorySeedEntry, approvedFor] at hlost

end LotusAI.Catalogue
