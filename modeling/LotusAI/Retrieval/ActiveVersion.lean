import LotusAI.Lib.Datetime
import Mathlib.Data.List.MinMax
import Mathlib.Data.List.Sort
import Mathlib.Data.List.TakeWhile
import Mathlib.Data.Prod.Lex
import Mathlib.Data.String.Basic

/-!
# The active version of a document

Whether a document may be searched is decided on its active version, and a hit in it cites its
active version. The two are chosen by two functions that sort by different keys: versions with
one time text stay in the order of the list for the first, and are ordered by their identifiers
for the second. Both compare the texts, whatever instants these stand for.
-/

namespace LotusAI.Retrieval

open Lib List Option

/-- `RetrievalDocumentVersionLifecycleStatus`. -/
inductive VersionLifecycleStatus
  | active | superseded | withdrawn
  deriving DecidableEq

/-- `RetrievalIngestionAction`. -/
inductive IngestionAction
  | onboard | refresh | withdraw
  deriving DecidableEq

/-- `RetrievalIngestionJobStatus`. -/
inductive IngestionJobStatus
  | staged | recorded | blocked | queued | running | failed | completed
  deriving DecidableEq

/-- `RetrievalIndexStatus`. -/
inductive IndexStatus
  | notIndexed | staged | indexed
  deriving DecidableEq

/-- `RetrievalDocumentVersionDescriptor`. -/
structure DocumentVersion where
  versionId : String
  lifecycleStatus : VersionLifecycleStatus
  refreshAction : IngestionAction
  createdAt : String
  deriving DecidableEq

/-- The key `(item.created_at, item.version_id)`. -/
def DocumentVersion.recency (version : DocumentVersion) : String ×ₗ String :=
  toLex (version.createdAt, version.versionId)

def DocumentVersion.isActive (version : DocumentVersion) : Bool :=
  version.lifecycleStatus = .active

/-- `next(version for version in sorted(versions, key=…, reverse=True) if … ACTIVE)`. -/
def newestActive {κ : Type} [LinearOrder κ] (key : DocumentVersion → κ)
    (versions : List DocumentVersion) : Option DocumentVersion :=
  (versions.insertionSort fun a b => key b ≤ key a).find? (·.isActive)

/-- `RetrievalDocumentEligibility`. -/
structure DocumentEligibility where
  governanceStatus : String
  searchEnabled : Bool
  activeVersionId : Option String
  activeVersionRefreshAction : Option IngestionAction
  activeVersionCreatedAt : Option String
  pendingIngestionJobCount : ℕ
  deriving DecidableEq

/-- An eligibility that tells of the active version, where there is one. -/
def DocumentEligibility.of (governanceStatus : String) (searchEnabled : Bool)
    (activeVersion : Option DocumentVersion) (pending : ℕ) : DocumentEligibility :=
  ⟨governanceStatus, searchEnabled, activeVersion.map (·.versionId),
    activeVersion.map (·.refreshAction), activeVersion.map (·.createdAt), pending⟩

/-- `build_document_eligibility`, for a source that is enabled or not, the index status of the
document and the statuses of its jobs. -/
def buildDocumentEligibility (sourceEnabled : Bool) (indexStatus : IndexStatus)
    (versions : List DocumentVersion) (jobs : List IngestionJobStatus) : DocumentEligibility :=
  let activeVersion := newestActive (·.createdAt) versions
  let pending := jobs.countP (· ∈ [.staged, .recorded, .queued, .running])
  let runtimePending := jobs.countP (· ∈ [.queued, .running])
  if (versions.argmax (·.recency)).any (·.lifecycleStatus = .withdrawn) then
    .of "WITHDRAWN" false none pending
  else if !sourceEnabled then .of "BLOCKED_BY_SOURCE" false activeVersion pending
  else if runtimePending > 0 then .of "REFRESH_PENDING" false activeVersion runtimePending
  else if activeVersion.isNone then .of "LINEAGE_INCOMPLETE" false none pending
  else if indexStatus = .indexed then .of "SEARCH_ENABLED" true activeVersion pending
  else .of "INDEX_PENDING" false activeVersion pending

/-- `select_active_document_version`. -/
def selectActiveDocumentVersion (versions : List DocumentVersion) : Option DocumentVersion :=
  newestActive (·.recency) versions

/-- What a hit says of the version of its document, and the reference that cites it. -/
structure SearchHit where
  activeVersionId : Option String
  activeVersionLifecycleStatus : Option VersionLifecycleStatus
  activeVersionCreatedAt : Option String
  citationRef : String
  deriving DecidableEq

/-- `build_citation_ref`. -/
def buildCitationRef (sourceId documentId : String) (activeVersionId : Option String)
    (chunkId : String) : String :=
  let versionRef := (activeVersionId.filter (· ≠ "")).getD "unversioned"
  s!"{sourceId}/{documentId}@{versionRef}#{chunkId}"

/-- `build_retrieval_search_hit`, for a chunk of a document of a source. -/
def buildRetrievalSearchHit (sourceId documentId chunkId : String)
    (versions : List DocumentVersion) : SearchHit :=
  let activeVersion := selectActiveDocumentVersion versions
  let activeVersionId := activeVersion.map (·.versionId)
  ⟨activeVersionId, activeVersion.map (·.lifecycleStatus), activeVersion.map (·.createdAt),
    buildCitationRef sourceId documentId activeVersionId chunkId⟩

/-- The second text stands for a later instant than the first. -/
def ReadsLater (iso : IsoFormat) (text later : String) : Prop :=
  ∃ parsed, iso.parseUtc later = .ok parsed ∧ iso.readsBefore text parsed.reading

/-- In whatever order the versions are listed, the active version of the document is the one its
hits cite; and no active version is later. -/
def AgreesOnActiveVersion (iso : IsoFormat) (versions : List DocumentVersion)
    (eligibility : DocumentEligibility) : Prop :=
  ∀ v createdAt, eligibility.activeVersionId = some v →
    eligibility.activeVersionCreatedAt = some createdAt →
    (∀ order : List DocumentVersion, order.Perm versions →
      (newestActive (·.createdAt) order).map (·.versionId) = some v ∧
      ∀ sourceId documentId chunkId,
        (buildRetrievalSearchHit sourceId documentId chunkId order).activeVersionId = some v) ∧
    ∀ other ∈ versions, other.isActive → ¬ ReadsLater iso createdAt other.createdAt

/-- Active versions with the greatest time text are one version, and none is later. -/
def OneNewest (iso : IsoFormat) (versions : List DocumentVersion) : Prop :=
  ∀ version ∈ versions, version.isActive →
    (∀ other ∈ versions, other.isActive → other.createdAt ≤ version.createdAt) →
    ∀ other ∈ versions, other.isActive →
      (other.createdAt = version.createdAt → other.versionId = version.versionId) ∧
      ¬ ReadsLater iso version.createdAt other.createdAt

/-! ### The two choices -/

section Choice

variable {κ : Type} [LinearOrder κ] {key : DocumentVersion → κ} {versions : List DocumentVersion}
  {version : DocumentVersion}

/-- The choice is an active version with the greatest key. -/
theorem newestActive_spec (h : newestActive key versions = some version) :
    version ∈ versions ∧ version.isActive ∧
      ∀ other ∈ versions, other.isActive → key other ≤ key version := by
  have : Std.Total fun a b : DocumentVersion => key b ≤ key a := ⟨fun _ _ => le_total ..⟩
  have : IsTrans DocumentVersion fun a b => key b ≤ key a := ⟨fun _ _ _ hab hbc => hbc.trans hab⟩
  obtain ⟨hactive, before, after, hsplit, hbefore⟩ := find?_eq_some_iff_append.mp h
  have hsorted := pairwise_insertionSort (fun a b => key b ≤ key a) versions
  rw [hsplit] at hsorted
  have hmem : ∀ other, other ∈ versions ↔ other ∈ before ++ version :: after := by
    intro other
    rw [← hsplit, mem_insertionSort]
  refine ⟨(hmem version).mpr (by simp), hactive, fun other hother hisActive => ?_⟩
  rcases mem_append.mp ((hmem other).mp hother) with hearly | hlate
  · exact absurd hisActive (by simpa using hbefore other hearly)
  · rcases mem_cons.mp hlate with rfl | hlate
    · exact le_rfl
    · exact rel_of_pairwise_cons (pairwise_append.mp hsorted).2.1 hlate

variable (key) in
theorem exists_newestActive (hmem : version ∈ versions) (hactive : version.isActive) :
    ∃ chosen ∈ versions, newestActive key versions = some chosen ∧ chosen.isActive ∧
      key version ≤ key chosen := by
  have hsome : (newestActive key versions).isSome :=
    find?_isSome.mpr ⟨version, (mem_insertionSort _).mpr hmem, hactive⟩
  obtain ⟨chosen, hchosen⟩ := isSome_iff_exists.mp hsome
  obtain ⟨hchosenMem, hisActive, hnewest⟩ := newestActive_spec hchosen
  exact ⟨chosen, hchosenMem, hchosen, hisActive, hnewest version hmem hactive⟩

/-- Of active versions with the greatest key, the one that is listed first is chosen. -/
theorem newestActive_cons (hactive : version.isActive)
    (hnewest : ∀ other ∈ versions, other.isActive → key other ≤ key version) :
    newestActive key (version :: versions) = some version := by
  rw [newestActive, insertionSort_cons_eq_take_drop, find?_append]
  have hnone : (((versions.insertionSort fun a b => key b ≤ key a).takeWhile
      fun other => ¬ key other ≤ key version).find? (·.isActive)) = none := by
    refine find?_eq_none.mpr fun other hother hisActive => ?_
    have hmem := (takeWhile_sublist _).subset hother
    rw [mem_insertionSort] at hmem
    have hlater := mem_takeWhile_imp hother
    simp [hnewest other hmem hisActive] at hlater
  rw [hnone, none_or, find?_cons_of_pos hactive]

end Choice

variable {sourceEnabled : Bool} {indexStatus : IndexStatus} {versions : List DocumentVersion}
  {jobs : List IngestionJobStatus}

/-- The document is found searchable with the version that is chosen by its time text. -/
theorem eligibility_of_searchEnabled
    (h : (buildDocumentEligibility sourceEnabled indexStatus versions jobs).searchEnabled) :
    ∃ version pending, newestActive (·.createdAt) versions = some version ∧
      buildDocumentEligibility sourceEnabled indexStatus versions jobs =
        .of "SEARCH_ENABLED" true (some version) pending := by
  simp only [buildDocumentEligibility] at h ⊢
  split_ifs at h ⊢ with _ _ _ hnone
  all_goals try cases h
  obtain ⟨version, hversion⟩ := ne_none_iff_exists'.mp (by simpa using hnone)
  exact ⟨version, _, hversion, by rw [hversion]⟩

/-- Two versions of one instant. -/
def tiedVersions : List DocumentVersion :=
  [⟨"a", .active, .onboard, "2026-01-01T00:00:00Z"⟩,
    ⟨"b", .active, .refresh, "2026-01-01T00:00:00Z"⟩]

end LotusAI.Retrieval
