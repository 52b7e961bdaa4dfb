import LotusAI.Lifecycle.Holds

/-!
# What the lifecycle engine reports

A handler reports the ids of the rows it has deleted, and the event of its family has their
number. Rows that go with others are not among them.
-/

namespace LotusAI.Lifecycle

open Lib List FamilyHandler Table

namespace Environment

variable (env : Environment) (horizon : Horizon) (s : DataStores) {ts : List RetainedTable}
  {h : FamilyHandler}

instance (t t' : RetainedTable) : Decidable (Apart t t') := inferInstanceAs (Decidable (_ ∧ _))

/-- No table of a family depends on one before it. -/
theorem pairwise_apart_tables (h : FamilyHandler) : h.tables.Pairwise Apart := by
  cases h <;> decide

/-! ### The ids -/

theorem length_deletedIds_foldl (note : RetainedTable → ℕ → ℕ → String) (hts : ts.Pairwise Apart) (batch : Batch) :
    (ts.foldl (env.expireTable horizon note) batch).deletedIds.length =
      batch.deletedIds.length + (ts.map fun t => (env.expired horizon t batch.stores).length).sum := by
  induction ts generalizing batch with
  | nil => simp
  | cons t rest ih =>
    obtain ⟨hapart, hrest⟩ := pairwise_cons.mp hts
    -- the other tables are as they were before this one was swept
    have hothers : ∀ t' ∈ rest, (env.expired horizon t'
        (env.expireTable horizon note batch t).stores).length =
          (env.expired horizon t' batch.stores).length := by
      intro t' ht'
      exact congrArg length (env.expired_congr horizon
        (env.tables_sweepTable_of_apart horizon batch.stores (hapart t' ht')))
    rw [foldl_cons, ih hrest, map_congr_left hothers]
    simp [expireTable, Nat.add_assoc]

/-- The number of rows a handler picks outside the plain tables. -/
def contentDue : FamilyHandler → ℕ
  | .artifactContent =>
    (Scan.all.due (artifactIsDue env.iso horizon) s.artifacts.records).length
  | .asyncRuntimeContent => (Scan.all.due (jobIsDue env.iso horizon) s.asyncRuntime.jobs).length
  | .transientOperationalLeases =>
    (Scan.all.due (leaseIsDue env.iso horizon) s.asyncRuntime.leases).length
  | _ => 0

/-- A handler reports the rows it has picked. -/
theorem length_deletedIds (h : FamilyHandler) :
    (env.expire horizon h s).deletedIds.length =
      (h.tables.map fun t => (env.expired horizon t s).length).sum +
        env.contentDue horizon s h := by
  have hfold : ∀ note h, (env.expireTables horizon note h s).deletedIds.length =
      (h.tables.map fun t => (env.expired horizon t s).length).sum := by
    intro note h
    have hlength := env.length_deletedIds_foldl horizon note (pairwise_apart_tables h) ⟨[], [], s⟩
    simpa [expireTables] using hlength
  cases h with
  | controlPlaneEvidence =>
    simp only [expire, expireControlPlaneEvidence, hfold, contentDue, Nat.add_zero]
  | workflowRunRecords =>
    simp only [expire, expireWorkflowRunRecords, hfold, contentDue, Nat.add_zero]
  | retrievalSharedReference =>
    have hjobs : env.expired horizon .ingestionJobs (env.sweepTable horizon .documentVersions s) =
        env.expired horizon .ingestionJobs s :=
      env.expired_congr horizon (env.tables_sweepTable_of_apart horizon s (by decide))
    simp [expire, expireRetrievalReferenceHistory, tables, contentDue, hjobs]
  | transientOperationalLeases =>
    have hnodup : ((Scan.all.due (leaseIsDue env.iso horizon) s.asyncRuntime.leases).map
        (·.jobId)).Nodup := nodup_due
    have hids := (RuntimeContent.leases_deleteLeases hnodup fun _ => mem_of_mem_due).1
    simp [expire, expireTransientLeases, tables, contentDue, hids, Nat.add_comm]
  | _ => simp [expire, expireAuditEvidence, expireArtifactContent, expireEvaluationApprovalEvidence,
      expireEvaluationCaseContent, expireAsyncRuntimeContent, tables, contentDue]

/-! ### The rows -/

/-- The number of rows outside the plain tables. -/
def contentRows (s : DataStores) : FamilyHandler → ℕ
  | .artifactContent => s.artifacts.records.list.length
  | .asyncRuntimeContent => s.asyncRuntime.jobs.list.length
  | .transientOperationalLeases => s.asyncRuntime.leases.list.length
  | _ => 0

/-- The number of rows in the tables that a handler lists. -/
def rowsOf (s : DataStores) (h : FamilyHandler) : ℕ :=
  (h.tables.map fun t => (s.tables t).list.length).sum + contentRows s h

theorem contentRows_expire (h : FamilyHandler) :
    contentRows (env.expire horizon h s).stores h + env.contentDue horizon s h =
      contentRows s h := by
  cases h with
  | artifactContent =>
    simp only [contentRows, env.artifacts_expire, if_true, records_deleteArtifacts]
    exact length_sweep
  | asyncRuntimeContent =>
    simp only [contentRows, env.jobs_expire, if_true]
    exact length_sweep
  | transientOperationalLeases =>
    simp only [contentRows, env.leases_expire]
    exact length_sweep
  | _ => rfl

/-- The rows that are left and those that are reported make up what there was. -/
theorem rowsOf_expire (h : FamilyHandler) :
    rowsOf (env.expire horizon h s).stores h + (env.expire horizon h s).deletedIds.length =
      rowsOf s h := by
  have htables : ∀ t ∈ h.tables,
      ((env.expire horizon h s).stores.tables t).list.length + (env.expired horizon t s).length =
        (s.tables t).list.length := by
    intro t ht
    obtain rfl := mem_tables.mp ht
    rw [env.tables_expire, expired, length_map]
    exact length_sweep
  have hcontent := env.contentRows_expire horizon s h
  have hsum := congrArg sum (map_congr_left htables)
  rw [sum_map_add] at hsum
  rw [env.length_deletedIds]
  unfold rowsOf
  omega

/-! ### Nothing to do -/

theorem sweepTables_of_nothing_due
    (h : ∀ t ∈ ts, env.expired horizon t s = []) : env.sweepTables horizon ts s = s := by
  induction ts with
  | nil => rfl
  | cons t rest ih =>
    have hfirst : env.sweepTable horizon t s = s := by
      rw [sweepTable, h t mem_cons_self, DataStores.removeRows_nil]
    change env.sweepTables horizon rest (env.sweepTable horizon t s) = s
    rw [hfirst]
    exact ih fun t' ht' => h t' (.tail _ ht')

theorem sweepContent_of_nothing_due (hcontent : env.contentDue horizon s h = 0) :
    env.sweepContent horizon s h = s := by
  cases h with
  | artifactContent =>
    have hnone := eq_nil_of_length_eq_zero hcontent
    simp [sweepContent, hnone, Artifacts.deleteArtifactsWithPayloads,
      Artifacts.ArtifactStore.deleteArtifacts]
  | asyncRuntimeContent =>
    have hnone := eq_nil_of_length_eq_zero hcontent
    simp [sweepContent, hnone, RuntimeContent.deleteJobRecords]
  | transientOperationalLeases =>
    have hnone := eq_nil_of_length_eq_zero hcontent
    simp [sweepContent, hnone, RuntimeContent.deleteLeases]
  | _ => rfl

/-- A handler that finds nothing reports nothing and changes nothing. -/
theorem expire_of_nothing_due
    (htables : ∀ t ∈ h.tables, env.expired horizon t s = [])
    (hcontent : env.contentDue horizon s h = 0) :
    (env.expire horizon h s).deletedIds = [] ∧ (env.expire horizon h s).stores = s := by
  constructor
  · apply eq_nil_of_length_eq_zero
    have hnone : ∀ t ∈ h.tables, (env.expired horizon t s).length = 0 := by
      intro t ht
      rw [htables t ht, length_nil]
    rw [env.length_deletedIds, hcontent, map_congr_left hnone]
    simp
  · rw [env.stores_expire, env.sweepContent_of_nothing_due horizon s hcontent,
      env.sweepTables_of_nothing_due horizon s htables]

end Environment

end LotusAI.Lifecycle
