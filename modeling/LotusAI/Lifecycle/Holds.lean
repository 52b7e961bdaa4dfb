import LotusAI.Lifecycle.WorkerLeases

/-!
# Legal holds and expiry

A legal hold on a family keeps the rows of a tenant beyond their retention. The policy says which
families support holds; each handler has to look for them itself. The handlers of audit evidence
and of workflow run records do, and so do the events and checkpoints that depend on their rows.
The others delete what is old.
-/

namespace LotusAI.Lifecycle

open Lib Artifacts Environment Scan Table

section Holds

variable (env : Environment) (run : Run) (policy : RetentionPolicy) (s : DataStores)

/-- The horizon of a handler whose family is enforced and supports holds. -/
def heldHorizon? (h : FamilyHandler) : Option Horizon :=
  (scheduled? h policy.families).bind fun found =>
    if found.1.legalHoldSupported then some (found.1.horizon found.2 run.now s) else none

/-- The run leaves every row of a tenant under a hold, what depends on it, and its payload. -/
structure HoldsOverrideExpiry : Prop where
  rows : ∀ (t : RetainedTable) (horizon : Horizon),
    heldHorizon? run policy s t.handler = some horizon →
    ∀ row ∈ s.tables t, horizon.isHeld (t.tenant? row) →
      row ∈ (env.runDataLifecycle run policy s).2.tables t
  runEvents : ∀ horizon, heldHorizon? run policy s .workflowRunRecords = some horizon →
    ∀ packRun ∈ s.tables .runs, horizon.isHeld packRun.tenantId →
      ∀ event ∈ s.runEvents, event.runId = packRun.runId →
        event ∈ (env.runDataLifecycle run policy s).2.runEvents
  checkpoints : ∀ horizon, heldHorizon? run policy s .workflowRunRecords = some horizon →
    ∀ flow ∈ s.tables .taskFlows, horizon.isHeld flow.tenantId →
      ∀ checkpoint ∈ s.checkpoints, checkpoint.taskFlowId = flow.taskFlowId →
        checkpoint ∈ (env.runDataLifecycle run policy s).2.checkpoints
  jobs : ∀ horizon, heldHorizon? run policy s .asyncRuntimeContent = some horizon →
    ∀ job ∈ s.asyncRuntime.jobs, horizon.isHeld job.tenantId →
      job ∈ (env.runDataLifecycle run policy s).2.asyncRuntime.jobs ∧
        (env.runDataLifecycle run policy s).2.asyncRuntime.store.attempts.get? job.jobId =
          s.asyncRuntime.store.attempts.get? job.jobId
  artifacts : ∀ horizon, heldHorizon? run policy s .artifactContent = some horizon →
    ∀ record ∈ s.artifacts.records, horizon.isHeld record.tenantId →
      record ∈ (env.runDataLifecycle run policy s).2.artifacts.records ∧
        (env.runDataLifecycle run policy s).2.artifacts.objects.get? record.objectKey =
          s.artifacts.objects.get? record.objectKey

/-- In the tables whose handler does not look for holds, nothing of a tenant under a hold is past
retention, nor does an artifact that is share a payload with one under a hold. -/
structure NoHeldRowDue : Prop where
  confirmations : ∀ horizon, heldHorizon? run policy s .controlPlaneEvidence = some horizon →
    ∀ row ∈ listed env s .confirmations, row.tenantId ∈ horizon.held →
      env.iso.readsBefore row.issuedAtUtc horizon.cutoff = false
  /-- The shipped policy has no holds on leases. -/
  admissionLeases : ∀ horizon,
    heldHorizon? run policy s .transientOperationalLeases = some horizon →
    ∀ row ∈ s.tables .admissionLeases, horizon.isHeld row.tenantId →
      env.iso.readsBefore row.admittedAt horizon.cutoff = false
  jobs : ∀ horizon, heldHorizon? run policy s .asyncRuntimeContent = some horizon →
    ∀ job ∈ s.asyncRuntime.jobs, horizon.isHeld job.tenantId → jobIsDue env.iso horizon job = false
  artifacts : ∀ horizon, heldHorizon? run policy s .artifactContent = some horizon →
    ∀ record ∈ s.artifacts.records, horizon.isHeld record.tenantId →
      artifactIsDue env.iso horizon record = false ∧
        ∀ other ∈ s.artifacts.records, artifactIsDue env.iso horizon other →
          other.objectKey = record.objectKey → record.objectKey ≠ "" →
            s.artifacts.objects.get? record.objectKey = none

variable {run policy s} {horizon : Horizon}

theorem horizon?_of_heldHorizon? {h : FamilyHandler}
    (hheld : heldHorizon? run policy s h = some horizon) :
    horizon? run policy s h = some horizon := by
  obtain ⟨found, hfound, hsupported⟩ := Option.bind_eq_some_iff.mp hheld
  split_ifs at hsupported
  simp [horizon?, hfound, ← hsupported]

variable {env}

/-! ### Dependents -/

variable (env run policy s) in
/-- The events of deleted runs go with them, -/
theorem runEvents_run :
    (env.runDataLifecycle run policy s).2.runEvents =
      match horizon? run policy s .workflowRunRecords with
      | some horizon => s.runEvents.deleteWhere fun event =>
          event.runId ∈ env.expired horizon .runs s
      | none => s.runEvents :=
  dependents_run (t := .runs) (by decide) (fun _ _ => rfl) (fun _ _ => (env.runEvents_expire ..).1)
    fun _ _ _ hne => (env.runEvents_expire_of_ne _ _ hne).1

variable (env run policy s) in
/-- and so do the checkpoints of deleted task flows. -/
theorem checkpoints_run :
    (env.runDataLifecycle run policy s).2.checkpoints =
      match horizon? run policy s .workflowRunRecords with
      | some horizon => s.checkpoints.deleteWhere fun checkpoint =>
          checkpoint.taskFlowId ∈ env.expired horizon .taskFlows s
      | none => s.checkpoints :=
  dependents_run (t := .taskFlows) (by decide) (fun _ _ => rfl) (fun _ _ => (env.runEvents_expire ..).2)
    fun _ _ _ hne => (env.runEvents_expire_of_ne _ _ hne).2

/-! ### Jobs and artifacts -/

variable (env run policy s) in
/-- The attempts of deleted jobs go with them. -/
theorem attempts_run (jobId : String) :
    (env.runDataLifecycle run policy s).2.asyncRuntime.store.attempts.get? jobId =
      match horizon? run policy s .asyncRuntimeContent with
      | some horizon =>
        if jobId ∈ (all.due (jobIsDue env.iso horizon) s.asyncRuntime.jobs).map (·.jobId) then
          none
        else s.asyncRuntime.store.attempts.get? jobId
      | none => s.asyncRuntime.store.attempts.get? jobId := by
  have hview := env.view_run run policy s
    (π := fun s => (s.asyncRuntime.jobs, s.asyncRuntime.store.attempts.get? jobId))
    .asyncRuntimeContent
    (fun horizon s => (s.asyncRuntime.jobs.sweep all (jobIsDue env.iso horizon),
      if jobId ∈ (all.due (jobIsDue env.iso horizon) s.asyncRuntime.jobs).map (·.jobId) then none
      else s.asyncRuntime.store.attempts.get? jobId)) (fun _ _ => rfl) ?_ ?_ ?_
  · apply (congrArg Prod.snd hview).trans
    cases horizon? run policy s .asyncRuntimeContent <;> rfl
  · intro horizon s
    simp only [env.jobs_expire, env.attempts_expire, if_true, true_and]
  · intro horizon handler s hne
    simp only [env.jobs_expire, env.attempts_expire, hne, if_false, false_and]
  · intro horizon s s' hview
    obtain ⟨hjobs, hattempts⟩ := Prod.mk.inj hview
    rw [hjobs, hattempts]

variable (env run policy s) in
/-- The artifacts that are past retention are deleted with their payloads, if their family is
enforced. -/
theorem artifacts_run :
    (env.runDataLifecycle run policy s).2.artifacts =
      match horizon? run policy s .artifactContent with
      | some horizon => (deleteArtifactsWithPayloads
          (all.due (artifactIsDue env.iso horizon) s.artifacts.records) s.artifacts).2
      | none => s.artifacts := by
  refine env.view_run run policy s .artifactContent
    (fun horizon s => (deleteArtifactsWithPayloads
      (all.due (artifactIsDue env.iso horizon) s.artifacts.records) s.artifacts).2)
    (fun _ _ => rfl) ?_ ?_ ?_
  · intro horizon s
    simp only [env.artifacts_expire, if_true]
  · intro horizon handler s hne
    simp only [env.artifacts_expire, hne, if_false]
  · intro horizon s s' hartifacts
    rw [hartifacts]

/-- The rows of artifacts are swept. -/
theorem records_deleteArtifacts (store : ArtifactStore) (isDue : Artifacts.ArtifactRecord → Bool) :
    (deleteArtifactsWithPayloads (all.due isDue store.records) store).2.records =
      store.records.sweep all isDue := by
  change delete _ _ = _
  rw [records_deleteObjects]
  rfl

/-- An artifact and its payload are left by a deletion exactly when the artifact is not past
retention and shares its payload with none that is. -/
theorem deleteArtifacts_keeps_iff {store : ArtifactStore}
    {isDue : Artifacts.ArtifactRecord → Bool} {record : Artifacts.ArtifactRecord}
    (hrecord : record ∈ store.records) :
    (record ∈ (deleteArtifactsWithPayloads (all.due isDue store.records) store).2.records ∧
        (deleteArtifactsWithPayloads (all.due isDue store.records) store).2.objects.get?
          record.objectKey = store.objects.get? record.objectKey) ↔
      isDue record = false ∧ ∀ other ∈ store.records, isDue other →
        other.objectKey = record.objectKey → record.objectKey ≠ "" →
          store.objects.get? record.objectKey = none := by
  rw [records_deleteArtifacts, mem_sweep]
  constructor
  · rintro ⟨⟨-, hspared⟩, hobject⟩
    refine ⟨hspared (mem_list.mpr hrecord), fun other hother hdue hshared hkey => ?_⟩
    rw [get?_objects_deleteArtifacts _ _ hkey, if_pos] at hobject
    · exact hobject.symm
    · exact List.mem_map.mpr ⟨other, mem_due_all.mpr ⟨hother, hdue⟩, hshared⟩
  · rintro ⟨hspared, hshared⟩
    refine ⟨⟨hrecord, fun _ => hspared⟩, ?_⟩
    by_cases hkey : record.objectKey = ""
    · rw [hkey]
      exact get?_objects_deleteArtifacts_empty ..
    · rw [get?_objects_deleteArtifacts _ _ hkey]
      split_ifs with hdeleted
      · obtain ⟨other, hother, hsame⟩ := List.mem_map.mp hdeleted
        obtain ⟨hmem, hdue⟩ := mem_due_all.mp hother
        exact (hshared other hmem hdue hsame hkey).symm
      · rfl

/-! ### Holds -/

/-- A table whose rows have a tenant is written to by one handler. -/
theorem RetainedTable.isPrivate_of_tenant? {t : RetainedTable} {row : t.Row}
    (h : horizon.isHeld (t.tenant? row)) : t.IsPrivate := by
  constructor
  · rintro rfl
    cases h
  · rintro rfl
    cases h

variable (env run policy s)

/-- Legal holds override expiry exactly when nothing under a hold is past retention in the tables
whose handler does not look for holds. -/
theorem holdsOverrideExpiry_iff :
    HoldsOverrideExpiry env run policy s ↔ NoHeldRowDue env run policy s := by
  constructor
  · intro hoverride
    constructor
    · intro horizon hhorizon row hlisted hheld
      have hleft := hoverride.rows .confirmations horizon hhorizon row (mem_of_mem_listed hlisted)
        (decide_eq_true hheld)
      exact not_due_of_mem_tables_run (by decide) hleft
        (horizon?_of_heldHorizon? hhorizon) hlisted
    · intro horizon hhorizon row hrow hheld
      have hleft := hoverride.rows .admissionLeases horizon hhorizon row hrow hheld
      exact not_due_of_mem_tables_run (by decide) hleft
        (horizon?_of_heldHorizon? hhorizon) ((mem_listed_of_limit_eq_none rfl).mpr hrow)
    · intro horizon hhorizon job hjob hheld
      have hleft := (hoverride.jobs horizon hhorizon job hjob hheld).1
      rw [jobs_run, horizon?_of_heldHorizon? hhorizon] at hleft
      exact (Table.mem_sweep.mp hleft).2 (Table.mem_list.mpr hjob)
    · intro horizon hhorizon record hrecord hheld
      have hleft := hoverride.artifacts horizon hhorizon record hrecord hheld
      rw [artifacts_run, horizon?_of_heldHorizon? hhorizon] at hleft
      exact (deleteArtifacts_keeps_iff hrecord).mp hleft
  · intro hdue
    -- the horizon of a family under holds is the one its handler works with
    have hunique : ∀ {h horizon horizon'}, heldHorizon? run policy s h = some horizon →
        Environment.horizon? run policy s h = some horizon' → horizon' = horizon := by
      intro h horizon horizon' hheld hused
      exact Option.mem_unique hused (horizon?_of_heldHorizon? hheld)
    constructor
    · intro t horizon hhorizon row hrow hheld
      refine mem_tables_run_of_not_due (RetainedTable.isPrivate_of_tenant? hheld) hrow
        fun used hused hlisted => ?_
      obtain rfl := hunique hhorizon hused
      cases t with
      | confirmations => exact hdue.confirmations _ hhorizon row hlisted (of_decide_eq_true hheld)
      | admissionLeases => exact hdue.admissionLeases _ hhorizon row hrow hheld
      | auditRecords | runs | taskFlows | queueEvents | idempotencyRecords =>
        simp only [RetainedTable.tenant?] at hheld
        simp [RetainedTable.isDue, hheld]
      | _ => cases hheld
    · intro horizon hhorizon packRun hrun hheld event hevent hof
      have hspared : RetainedTable.isDue env.iso horizon .runs packRun = false := by
        simp [RetainedTable.isDue, hheld]
      rw [runEvents_run, horizon?_of_heldHorizon? hhorizon]
      refine Table.mem_deleteWhere.mpr ⟨hevent, ?_⟩
      simpa [hof, RetainedTable.key] using not_mem_expired hrun hspared
    · intro horizon hhorizon flow hflow hheld checkpoint hcheckpoint hof
      have hspared : RetainedTable.isDue env.iso horizon .taskFlows flow = false := by
        simp [RetainedTable.isDue, hheld]
      rw [checkpoints_run, horizon?_of_heldHorizon? hhorizon]
      refine Table.mem_deleteWhere.mpr ⟨hcheckpoint, ?_⟩
      simpa [hof, RetainedTable.key] using not_mem_expired hflow hspared
    · intro horizon hhorizon job hjob hheld
      have hspared := hdue.jobs horizon hhorizon job hjob hheld
      rw [jobs_run, attempts_run, horizon?_of_heldHorizon? hhorizon]
      refine ⟨Table.mem_sweep.mpr ⟨hjob, fun _ => hspared⟩, if_neg fun hexpired => ?_⟩
      obtain ⟨other, hother, hkey⟩ := List.mem_map.mp hexpired
      obtain rfl := Table.eq_of_key_eq (Table.mem_of_mem_due hother) hjob hkey
      rw [(Table.mem_due_all.mp hother).2] at hspared
      cases hspared
    · intro horizon hhorizon record hrecord hheld
      rw [artifacts_run, horizon?_of_heldHorizon? hhorizon]
      exact (deleteArtifacts_keeps_iff hrecord).mpr (hdue.artifacts horizon hhorizon record hrecord
        hheld)

end Holds

/-! ### An artifact under a hold -/

/-- A report of 2015 for a tenant. -/
def heldReport : Artifacts.ArtifactRecord where
  artifactId := "artifact_1"
  domain := "workflow"
  artifactType := "report"
  sourceObjectKind := "job"
  sourceObjectId := "job_1"
  lifecycleStatus := .runtimeGenerated
  retentionPosture := "active"
  mediaType := "application/json"
  byteSize := 2
  checksumSha256 := "digest"
  storageBackend := .memory
  storageReference := "memory://report"
  lineageParentArtifactId := none
  supersededByArtifactId := none
  createdAt := "2015-01-01T00:00:00+00:00"
  createdBy := "worker_1"
  tenantId := some "acme"

/-- The stores with this report, and a hold on the artifacts of its tenant. -/
def heldStores : DataStores :=
  { DataStores.empty with
    legalHolds := [⟨"hold_1", "artifact_content", "tenant", "acme", none⟩]
    artifacts := ⟨Table.ofList [heldReport],
      Dict.empty.insert "report" ⟨"report", "application/json", "report"⟩⟩ }

/-- The policy says that holds on artifacts are supported; the report is deleted all the same. -/
theorem held_artifact_expires :
    ¬ HoldsOverrideExpiry calendar newYearRun retentionPolicy heldStores := by
  intro hoverride
  have hleft := hoverride.artifacts ⟨1546473600000000, 1546473600000000, ["acme"]⟩ rfl heldReport
    rfl rfl
  have hspared := ((deleteArtifacts_keeps_iff rfl).mp hleft).1
  revert hspared
  decide +kernel

end LotusAI.Lifecycle
