import LotusAI.Lib.Table
import Mathlib.Data.List.Sort

/-!
# Artifacts and their payload objects

An artifact is a metadata row and an object in the object store; the row holds the only
reference to the object. Whom an artifact belongs to is written on its row when it is made, or
not at all. A writer that reuses an artifact with the same payload has no place for the tenant.
-/

namespace LotusAI.Artifacts

open Lib

/-- `ArtifactLifecycleStatus`. -/
inductive ArtifactLifecycleStatus
  | historicalStaged
  | runtimeGenerated
  | superseded
  | archived
  deriving DecidableEq

/-- `ArtifactStorageBackend`. -/
inductive ArtifactStorageBackend
  | memory
  | filesystem
  deriving DecidableEq

/-- The text of a backend. -/
def ArtifactStorageBackend.value : ArtifactStorageBackend → String
  | memory => "memory"
  | filesystem => "filesystem"

/-- `ArtifactDescriptor`: what is told of an artifact. -/
structure ArtifactDescriptor where
  artifactId : String
  domain : String
  artifactType : String
  sourceObjectKind : String
  sourceObjectId : String
  lifecycleStatus : ArtifactLifecycleStatus
  retentionPosture : String
  mediaType : String
  byteSize : ℕ
  checksumSha256 : String
  storageBackend : ArtifactStorageBackend
  storageReference : String
  lineageParentArtifactId : Option String
  supersededByArtifactId : Option String
  createdAt : String
  createdBy : String
  deriving DecidableEq

/-- `ArtifactRecord`: the row, with the tenant it was attributed to. -/
structure ArtifactRecord extends ArtifactDescriptor where
  tenantId : Option String
  deriving DecidableEq

/-- The key of a row. -/
def artifactKey (record : ArtifactRecord) : String := record.artifactId

/-- `StoredArtifactObject`; its bytes are a text. -/
structure StoredArtifactObject where
  objectKey : String
  contentType : String
  payload : String
  deriving DecidableEq

/-- The metadata rows and the object store. -/
structure ArtifactStore where
  records : Table artifactKey
  objects : Dict String StoredArtifactObject

/-! ### References -/

/-- What follows the first `://`. -/
def afterScheme : List Char → List Char
  | ':' :: '/' :: '/' :: rest => rest
  | _ :: rest => afterScheme rest
  | [] => []

/-- `_parse_storage_reference`: what follows the scheme, or nothing. -/
def parseStorageReference (storageReference : String) : String :=
  String.ofList (afterScheme storageReference.toList)

def storageReference (backend : ArtifactStorageBackend) (objectKey : String) : String :=
  backend.value ++ "://" ++ objectKey

/-- The object a row refers to. -/
def ArtifactRecord.objectKey (record : ArtifactRecord) : String :=
  parseStorageReference record.storageReference

/-! ### Writing -/

/-- What a writer says of an artifact. -/
structure ArtifactDraft where
  domain : String
  artifactType : String
  sourceObjectKind : String
  sourceObjectId : String
  createdAt : String
  createdBy : String
  payloadJson : String
  lifecycleStatus : ArtifactLifecycleStatus := .runtimeGenerated
  retentionPosture : String := "active"
  lineageParentArtifactId : Option String := none
  supersededByArtifactId : Option String := none
  tenantId : Option String := none
  deriving DecidableEq

/-- The identifier of a new artifact, from random digits. -/
def ArtifactDraft.artifactId (draft : ArtifactDraft) (hex : String) : String :=
  s!"artifact_{draft.domain}_{hex}"

def ArtifactDraft.objectKey (draft : ArtifactDraft) (hex : String) : String :=
  let artifactId := draft.artifactId hex
  s!"{draft.domain}/{draft.sourceObjectKind}/{draft.sourceObjectId}/{artifactId}.json"

section Writing

variable (sha256 : String → String) (backend : ArtifactStorageBackend)

/-- The row of a new artifact. -/
def ArtifactDraft.record (draft : ArtifactDraft) (hex : String) : ArtifactRecord where
  artifactId := draft.artifactId hex
  domain := draft.domain
  artifactType := draft.artifactType
  sourceObjectKind := draft.sourceObjectKind
  sourceObjectId := draft.sourceObjectId
  lifecycleStatus := draft.lifecycleStatus
  retentionPosture := draft.retentionPosture
  mediaType := "application/json"
  byteSize := draft.payloadJson.utf8ByteSize
  checksumSha256 := sha256 draft.payloadJson
  storageBackend := backend
  storageReference := storageReference backend (draft.objectKey hex)
  lineageParentArtifactId := draft.lineageParentArtifactId
  supersededByArtifactId := draft.supersededByArtifactId
  createdAt := draft.createdAt
  createdBy := draft.createdBy
  tenantId := draft.tenantId

/-- `stage_json_artifact`: the payload is written; the row is the caller's to publish. -/
def stageJsonArtifact (hex : String) (draft : ArtifactDraft) (store : ArtifactStore) :
    ArtifactRecord × ArtifactStore :=
  let stored : StoredArtifactObject :=
    ⟨draft.objectKey hex, "application/json", draft.payloadJson⟩
  (draft.record sha256 backend hex,
    { store with objects := store.objects.insert (draft.objectKey hex) stored })

/-- `save_artifact`. -/
def ArtifactStore.saveArtifact (store : ArtifactStore) (record : ArtifactRecord) :
    ArtifactStore :=
  { store with records := store.records.upsert record }

/-- `persist_json_artifact`. -/
def persistJsonArtifact (hex : String) (draft : ArtifactDraft) (store : ArtifactStore) :
    ArtifactDescriptor × ArtifactStore :=
  let staged := stageJsonArtifact sha256 backend hex draft store
  (staged.1.toArtifactDescriptor, staged.2.saveArtifact staged.1)

/-- `list_artifacts`: oldest first. -/
def ArtifactStore.listArtifacts (store : ArtifactStore) : List ArtifactRecord :=
  store.records.rows.values.insertionSort fun a b => a.createdAt ≤ b.createdAt

/-- `_find_latest_active_artifact`. -/
def ArtifactStore.findLatestActiveArtifact (store : ArtifactStore)
    (domain artifactType sourceObjectKind sourceObjectId : String) : Option ArtifactRecord :=
  (store.listArtifacts.filter fun artifact => artifact.domain = domain ∧
    artifact.artifactType = artifactType ∧ artifact.sourceObjectKind = sourceObjectKind ∧
    artifact.sourceObjectId = sourceObjectId ∧ artifact.supersededByArtifactId = none).getLast?

/-- The payload of an artifact is the one that is to be written. -/
def ArtifactStore.holdsPayload (store : ArtifactStore) (existing : ArtifactRecord)
    (payloadJson : String) : Bool :=
  match store.objects.get? existing.objectKey with
  | some stored => sha256 stored.payload = sha256 payloadJson
  | none => false

/-- `persist_or_reuse_json_artifact`. It takes no tenant, and the artifact it writes has none. -/
def persistOrReuseJsonArtifact (hex : String) (draft : ArtifactDraft) (store : ArtifactStore) :
    ArtifactDescriptor × ArtifactStore :=
  match store.findLatestActiveArtifact draft.domain draft.artifactType draft.sourceObjectKind
      draft.sourceObjectId with
  | none => persistJsonArtifact sha256 backend hex { draft with tenantId := none } store
  | some existing =>
    if store.holdsPayload sha256 existing draft.payloadJson then
      (existing.toArtifactDescriptor, store)
    else
      let created := persistJsonArtifact sha256 backend hex
        { draft with
          lineageParentArtifactId := some existing.artifactId
          tenantId := none } store
      (created.1, created.2.saveArtifact { existing with
        lifecycleStatus := .superseded
        supersededByArtifactId := some created.1.artifactId })

end Writing

/-! ### Deleting -/

/-- `delete_artifacts`: how many rows there were. -/
def ArtifactStore.deleteArtifacts (store : ArtifactStore) (artifactIds : List String) :
    ℕ × ArtifactStore :=
  (store.records.countOf artifactIds, { store with records := store.records.delete artifactIds })

/-- `delete_object`, where the key is not empty. -/
def ArtifactStore.deleteObject (store : ArtifactStore) (objectKey : String) : ArtifactStore :=
  if objectKey = "" then store else { store with objects := store.objects.erase objectKey }

/-- `delete_artifacts_with_payloads`: the objects go first, then the rows. -/
def deleteArtifactsWithPayloads (records : List ArtifactRecord) (store : ArtifactStore) :
    ℕ × ArtifactStore :=
  (records.foldl (fun store record => store.deleteObject record.objectKey) store).deleteArtifacts
    (records.map (·.artifactId))

theorem records_deleteObjects (records : List ArtifactRecord) (store : ArtifactStore) :
    (records.foldl (fun store record => store.deleteObject record.objectKey) store).records =
      store.records := by
  induction records generalizing store with
  | nil => rfl
  | cons record rest ih =>
    rw [List.foldl_cons, ih, ArtifactStore.deleteObject]
    split_ifs <;> rfl

variable (records : List ArtifactRecord) (store : ArtifactStore) {objectKey : String}

/-- A row is left unless it was named. -/
theorem get?_deleteArtifacts (artifactId : String) :
    (deleteArtifactsWithPayloads records store).2.records.get? artifactId =
      if artifactId ∈ records.map (·.artifactId) then none
      else store.records.get? artifactId := by
  change (Table.delete _ _).get? artifactId = _
  rw [Table.get?_delete, records_deleteObjects]

theorem get?_deleteObject (deleted : String) (hkey : objectKey ≠ "") :
    (store.deleteObject deleted).objects.get? objectKey =
      if objectKey = deleted then none else store.objects.get? objectKey := by
  unfold ArtifactStore.deleteObject
  by_cases hempty : deleted = ""
  · rw [if_pos hempty, if_neg (hempty ▸ hkey)]
  · rw [if_neg hempty]
    exact Dict.get?_erase ..

/-- An object is left unless a row that is deleted refers to it. -/
theorem get?_objects_deleteArtifacts (hkey : objectKey ≠ "") :
    (deleteArtifactsWithPayloads records store).2.objects.get? objectKey =
      if objectKey ∈ records.map (·.objectKey) then none else store.objects.get? objectKey := by
  change (records.foldl (fun store record => store.deleteObject record.objectKey)
    store).objects.get? objectKey = _
  induction records generalizing store with
  | nil => rfl
  | cons record rest ih =>
    rw [List.foldl_cons, ih, get?_deleteObject _ _ hkey, List.map_cons]
    by_cases hrest : objectKey ∈ rest.map (·.objectKey)
    · rw [if_pos hrest, if_pos (.tail _ hrest)]
    · rw [if_neg hrest]
      simp only [List.mem_cons, hrest, or_false]

/-- An object without a key is never deleted. -/
theorem get?_objects_deleteArtifacts_empty :
    (deleteArtifactsWithPayloads records store).2.objects.get? "" = store.objects.get? "" := by
  change (records.foldl (fun store record => store.deleteObject record.objectKey)
    store).objects.get? "" = _
  induction records generalizing store with
  | nil => rfl
  | cons record rest ih =>
    rw [List.foldl_cons, ih, ArtifactStore.deleteObject]
    split_ifs with hempty
    · rfl
    · exact Dict.get?_erase_of_ne _ (Ne.symm hempty)

end LotusAI.Artifacts
