import LotusAI.Lifecycle.Purge

/-!
# Erasure takes what is the tenant's, and nothing else

An approved erasure is to leave no row of the tenant in a family that is not held, to leave every
other row, and to report the number of rows that are gone.

Three things stand in the way. The idempotency table has no empty tenant: it writes a marker, and
a tenant with the name of the marker owns the rows of everybody without a tenant. Artifacts may
share a payload, which goes with the first of them. And the count of a round is the larger of what
it has deleted and of what an event under its identifier says, which the database then refuses to
write a second time.
-/

namespace LotusAI.Lifecycle

open Lib Artifacts Stepwise Environment ErasureExecutor Table RetainedTable

/-- Whom a row belongs to. The idempotency table writes a marker where there is no tenant. -/
def RetainedTable.attributedTo : (t : RetainedTable) → t.Row → Option String
  | .idempotencyRecords, row =>
    if row.tenantScope = Idempotency.noTenantScope then none else some row.tenantScope
  | t, row => t.tenant? row

/-! ### The specification -/

/-- The family of an executor is under a hold for a tenant. -/
def IsHeld (s : DataStores) (tenantId : String) (executor : ErasureExecutor) : Prop :=
  tenantId ∈ s.heldTenants executor.familyId

instance (s : DataStores) (tenantId : String) (executor : ErasureExecutor) :
    Decidable (IsHeld s tenantId executor) := inferInstanceAs (Decidable (_ ∈ _))

section Specification

variable (tenantId : String) (before after : DataStores)

/-- Nothing of the tenant is left in a family that is not held. -/
structure Exhaustive : Prop where
  rows : ∀ executor, ¬ IsHeld before tenantId executor → ∀ t ∈ executor.handler.tables,
    ∀ row ∈ after.tables t, t.attributedTo row ≠ some tenantId
  runEvents : ¬ IsHeld before tenantId .workflowRunRecords →
    ∀ run ∈ before.tables .runs, run.tenantId = some tenantId →
      ∀ event ∈ after.runEvents, event.runId ≠ run.runId
  checkpoints : ¬ IsHeld before tenantId .workflowRunRecords →
    ∀ flow ∈ before.tables .taskFlows, flow.tenantId = some tenantId →
      ∀ checkpoint ∈ after.checkpoints, checkpoint.taskFlowId ≠ flow.taskFlowId
  jobs : ¬ IsHeld before tenantId .asyncRuntimeContent →
    ∀ job ∈ after.asyncRuntime.jobs, job.tenantId ≠ some tenantId
  jobRecords : ¬ IsHeld before tenantId .asyncRuntimeContent →
    ∀ job ∈ before.asyncRuntime.jobs, job.tenantId = some tenantId →
      after.asyncRuntime.store.attempts.get? job.jobId = none ∧
        after.asyncRuntime.leases.get? job.jobId = none
  artifacts : ¬ IsHeld before tenantId .artifactContent →
    ∀ record ∈ after.artifacts.records, record.tenantId ≠ some tenantId
  payloads : ¬ IsHeld before tenantId .artifactContent →
    ∀ record ∈ before.artifacts.records, record.tenantId = some tenantId →
      after.artifacts.objects.get? record.objectKey = none

/-- Rows of held families, of other tenants and of nobody are left, and none are new. Only the
lifecycle events of the erasure itself are written. -/
structure Exact : Prop where
  rows : ∀ t, t ≠ .lifecycleEvents → ∀ row ∈ before.tables t,
    (t.attributedTo row ≠ some tenantId ∨ tenantId ∈ before.heldTenants t.handler.familyId) →
      row ∈ after.tables t
  noNewRows : ∀ t, t ≠ .lifecycleEvents → ∀ row ∈ after.tables t, row ∈ before.tables t
  runEvents : ∀ event ∈ before.runEvents,
    (IsHeld before tenantId .workflowRunRecords ∨ ∀ run ∈ before.tables .runs,
      run.runId = event.runId → run.tenantId ≠ some tenantId) → event ∈ after.runEvents
  checkpoints : ∀ checkpoint ∈ before.checkpoints,
    (IsHeld before tenantId .workflowRunRecords ∨ ∀ flow ∈ before.tables .taskFlows,
      flow.taskFlowId = checkpoint.taskFlowId → flow.tenantId ≠ some tenantId) →
        checkpoint ∈ after.checkpoints
  noNewDependents : (∀ event ∈ after.runEvents, event ∈ before.runEvents) ∧
    ∀ checkpoint ∈ after.checkpoints, checkpoint ∈ before.checkpoints
  jobs : ∀ jobId, (IsHeld before tenantId .asyncRuntimeContent ∨
      ∀ job ∈ before.asyncRuntime.jobs, job.jobId = jobId → job.tenantId ≠ some tenantId) →
    after.asyncRuntime.jobs.get? jobId = before.asyncRuntime.jobs.get? jobId ∧
      after.asyncRuntime.store.attempts.get? jobId =
        before.asyncRuntime.store.attempts.get? jobId ∧
      after.asyncRuntime.leases.get? jobId = before.asyncRuntime.leases.get? jobId
  artifacts : ∀ record ∈ before.artifacts.records,
    (IsHeld before tenantId .artifactContent ∨ record.tenantId ≠ some tenantId) →
      record ∈ after.artifacts.records ∧
        after.artifacts.objects.get? record.objectKey =
          before.artifacts.objects.get? record.objectKey
  noNewArtifacts : ∀ record ∈ after.artifacts.records, record ∈ before.artifacts.records
  others : after.legalHolds = before.legalHolds ∧
    after.evaluationAttempts = before.evaluationAttempts

/-- The result of a family tells whether it is held, and how many of its rows are gone. -/
def Tells (executor : ErasureExecutor) (result : DataErasureFamilyResult) : Prop :=
  result.familyId = executor.familyId ∧ result.held = decide (IsHeld before tenantId executor) ∧
    familyRows after executor + result.erasedCount = familyRows before executor

end Specification

section Erasure

variable (env : Environment) (adapter : Budget.Adapter) (pass : ErasurePass) (s : DataStores)

/-- The erasure takes all that is the tenant's, and nothing else, and its receipt tells of every
family how many rows are gone. -/
structure ErasureSound : Prop where
  exhaustive : Exhaustive pass.tenantId s (env.approveDataErasure adapter pass s).final
  exact : Exact pass.tenantId s (env.approveDataErasure adapter pass s).final
  receipt : ∃ receipt, (env.approveDataErasure adapter pass s).result = .ok receipt ∧
    List.Forall₂ (Tells pass.tenantId s (env.approveDataErasure adapter pass s).final)
      ErasureExecutor.all receipt.families

/-- Each round that is not passed over finds no event with a larger count under its identifier, and
is not refused by the database. -/
def RoundsClear : List ErasureExecutor → DataStores → Prop
  | [], _ => True
  | executor :: rest, s =>
    (¬ IsHeld s pass.tenantId executor →
      Environment.eventCount (env.priorEvent pass.record.actionId executor.familyId s) ≤
          erasedRows pass.tenantId executor s ∧
        ¬ env.Refused adapter pass executor s) ∧
    RoundsClear rest (env.eraseFamily adapter retentionPolicy.policyVersion pass
      executor.familyId s).final

/-- Nobody's rows stand under the tenant's name, no payload of the tenant's artifacts is shared with
another's or without a key, and the rounds are clear. -/
structure ErasureClear : Prop where
  marker : ¬ IsHeld s pass.tenantId .workflowRunRecords →
    pass.tenantId = Idempotency.noTenantScope →
      ∀ row ∈ s.tables .idempotencyRecords, row.tenantScope ≠ Idempotency.noTenantScope
  payloads : ¬ IsHeld s pass.tenantId .artifactContent →
    ∀ record ∈ s.artifacts.records, record.tenantId = some pass.tenantId →
      (s.artifacts.objects.get? record.objectKey).isSome → record.objectKey ≠ "" ∧
        ∀ other ∈ s.artifacts.records, other.objectKey = record.objectKey →
          other.tenantId = some pass.tenantId
  rounds : RoundsClear env adapter pass ErasureExecutor.all s

/-! ### The counts -/

variable {env adapter pass} (executor : ErasureExecutor)

theorem isHeld_congr {s s' : DataStores} (h : s'.legalHolds = s.legalHolds) (tenantId : String)
    (executor : ErasureExecutor) : IsHeld s' tenantId executor ↔ IsHeld s tenantId executor := by
  rw [IsHeld, IsHeld, held_of_heldTenants_eq s h]

/-- A round leaves the holds, and the rows of other families. -/
theorem legalHolds_eraseFamily :
    (env.eraseFamily adapter retentionPolicy.policyVersion pass executor.familyId
      s).final.legalHolds = s.legalHolds :=
  ((unseen_legalHolds executor).keeps_eraseFamily fun _ _ _ => rfl).final s

theorem familyRows_saveLifecycleEvent (event : DataLifecycleEvent) (executor : ErasureExecutor) :
    familyRows (s.saveLifecycleEvent event) executor = familyRows s executor := by
  cases executor <;> rfl

theorem familyRows_eraseFamily_of_ne {executor other : ErasureExecutor} (hne : executor ≠ other) :
    familyRows (env.eraseFamily adapter retentionPolicy.policyVersion pass executor.familyId
      s).final other = familyRows s other :=
  ((unseen_familyRows hne).keeps_eraseFamily fun s event _ =>
    familyRows_saveLifecycleEvent s event other).final s

/-- What a round tells of its family is right exactly when the round is clear. -/
theorem tells_eraseFamily_iff :
    (∃ result, (env.eraseFamily adapter retentionPolicy.policyVersion pass executor.familyId
        s).result = .ok result ∧ Tells pass.tenantId s
          (env.eraseFamily adapter retentionPolicy.policyVersion pass executor.familyId s).final
          executor result) ↔
      (¬ IsHeld s pass.tenantId executor →
        eventCount (env.priorEvent pass.record.actionId executor.familyId s) ≤
            erasedRows pass.tenantId executor s ∧
          ¬ env.Refused adapter pass executor s) := by
  by_cases hheld : IsHeld s pass.tenantId executor
  · -- passed over: nothing is gone, and nothing is told
    rw [eraseFamily_of_held _ _ _ _ _ _ hheld]
    exact ⟨fun _ h => absurd hheld h, fun _ => ⟨_, rfl, rfl, by simp [hheld], rfl⟩⟩
  have hrows := env.familyRows_purge pass.tenantId executor s
  have hafter : familyRows (env.afterRound retentionPolicy.policyVersion pass executor s) executor =
      familyRows (purge pass.tenantId executor s) executor := by
    unfold afterRound
    split_ifs
    · rfl
    · exact familyRows_saveLifecycleEvent ..
  constructor
  · rintro ⟨result, hok, -, -, hcount⟩ -
    obtain ⟨hrefused, hfinal⟩ := final_eraseFamily_of_ok hheld hok
    rw [(eraseFamily_of_free _ hheld hrefused).1] at hok
    cases hok
    rw [hfinal, hafter] at hcount
    simp only [reported] at hcount
    exact ⟨by omega, hrefused⟩
  · intro hclear
    obtain ⟨hprior, hrefused⟩ := hclear hheld
    obtain ⟨hresult, hfinal⟩ := eraseFamily_of_free retentionPolicy.policyVersion hheld
      hrefused
    refine ⟨_, hresult, rfl, by simp [hheld], ?_⟩
    rw [hfinal, hafter]
    simp only [reported, max_eq_left hprior]
    exact hrows

/-- The rows before may be counted in any stores that agree with those at the start of the loop. -/
theorem tells_eraseFamilies_iff {es : List ErasureExecutor} (hnodup : es.Nodup) {before : DataStores}
    (hholds : before.legalHolds = s.legalHolds)
    (hbefore : ∀ executor ∈ es, familyRows before executor = familyRows s executor) :
    (∃ results, (env.eraseFamilies adapter retentionPolicy.policyVersion pass
        (es.map (·.familyId)) s).result = .ok results ∧
          List.Forall₂ (Tells pass.tenantId before (env.eraseFamilies adapter
            retentionPolicy.policyVersion pass (es.map (·.familyId)) s).final) es results) ↔
      RoundsClear env adapter pass es s := by
  induction es generalizing s with
  | nil => exact ⟨fun _ => trivial, fun _ => ⟨[], rfl, .nil⟩⟩
  | cons executor rest ih =>
    obtain ⟨hnot, hrest⟩ := List.nodup_cons.mp hnodup
    set next := (env.eraseFamily adapter retentionPolicy.policyVersion pass executor.familyId
      s).final with hnext
    have hother : ∀ other ∈ rest, executor ≠ other := fun other h hsame => hnot (hsame ▸ h)
    have hagree : ∀ other ∈ rest, familyRows before other = familyRows next other := by
      intro other h
      rw [hbefore other (.tail _ h)]
      exact (familyRows_eraseFamily_of_ne s (hother other h)).symm
    have hlater := ih next hrest (hholds.trans (legalHolds_eraseFamily s executor).symm) hagree
    -- the rounds after this one do not touch its family
    have hkept : familyRows (env.eraseFamilies adapter retentionPolicy.policyVersion pass
        (rest.map (·.familyId)) next).final executor = familyRows next executor :=
      (keeps_eraseFamilies (fun other h => unseen_familyRows (Ne.symm (hother other h)))
        fun s event => familyRows_saveLifecycleEvent s event executor).final next
    have htells : ∀ result, Tells pass.tenantId before (env.eraseFamilies adapter
        retentionPolicy.policyVersion pass (rest.map (·.familyId)) next).final executor result ↔
          Tells pass.tenantId s next executor result := by
      intro result
      simp only [Tells, hkept, hbefore executor List.mem_cons_self,
        isHeld_congr hholds pass.tenantId executor]
    rw [RoundsClear, ← tells_eraseFamily_iff, ← hlater]
    constructor
    · rintro ⟨results, hok, hall⟩
      obtain ⟨first, others, hfirst, hothers, rfl, hfinal⟩ := eraseFamilies_cons_eq_ok hok
      rw [List.map_cons, hfinal] at hall
      obtain ⟨htold, hall⟩ := List.forall₂_cons.mp hall
      exact ⟨⟨first, hfirst, (htells first).mp htold⟩, others, hothers, hall⟩
    · rintro ⟨⟨first, hfirst, htold⟩, others, hothers, hall⟩
      have hok := eraseFamilies_cons_of_ok hfirst hothers
      obtain ⟨-, -, -, -, -, hfinal⟩ := eraseFamilies_cons_eq_ok hok
      refine ⟨first :: others, hok, ?_⟩
      rw [List.map_cons, hfinal]
      exact .cons ((htells first).mpr htold) hall

end Erasure

/-! ### What is left -/

section Left

variable (tenantId : String) {t : RetainedTable}

/-- A table of some that are purged loses the rows of the tenant; other tables lose nothing. -/
theorem tables_purgeTables {ts : List RetainedTable} (hnodup : ts.Nodup)
    (hts : .evaluationRuns ∉ ts) (t : RetainedTable) (s : DataStores) :
    (ts.foldl (fun s t => purgeTable tenantId t s) s).tables t =
      if t ∈ ts then (s.tables t).deleteWhere fun row => t.tenant? row = some tenantId
      else s.tables t := by
  induction ts generalizing s with
  | nil => rfl
  | cons first rest ih =>
    obtain ⟨hnot, hrest⟩ := List.nodup_cons.mp hnodup
    simp only [List.mem_cons, not_or] at hts
    rw [List.foldl_cons, ih hrest hts.2]
    by_cases hsame : t = first
    · subst hsame
      rw [if_neg hnot, if_pos List.mem_cons_self]
      exact s.tables_removeRows t _
    · have hkept : (purgeTable tenantId first s).tables t = s.tables t :=
        s.tables_removeRows_of_ne _ hsame fun h => absurd h.symm hts.1
      simp only [hkept, List.mem_cons, hsame, false_or]

theorem tables_purge (executor : ErasureExecutor)
    (ht : t ∈ executor.handler.tables) (s : DataStores) :
    (purge tenantId executor s).tables t =
      (s.tables t).deleteWhere fun row => t.tenant? row = some tenantId := by
  cases executor with
  | auditEvidence | workflowRunRecords =>
    exact (tables_purgeTables tenantId (FamilyHandler.nodup_tables _) (by decide) t s).trans
      (if_pos ht)
  | asyncRuntimeContent | artifactContent => cases ht

/-- The events of the tenant's runs and the checkpoints of its task flows go with them. -/
theorem dependents_purge (s : DataStores) :
    (purge tenantId .workflowRunRecords s).runEvents =
        (s.runEvents.deleteWhere fun event => event.runId ∈ tenantRows tenantId .runs s) ∧
      (purge tenantId .workflowRunRecords s).checkpoints =
        s.checkpoints.deleteWhere fun row => row.taskFlowId ∈ tenantRows tenantId .taskFlows s := by
  have hflows : tenantRows tenantId .taskFlows (purgeTable tenantId .runs s) =
      tenantRows tenantId .taskFlows s := by
    have htable : (purgeTable tenantId .runs s).tables .taskFlows = s.tables .taskFlows :=
      s.tables_removeRows_of_ne _ nofun nofun
    rw [tenantRows, htable, tenantRows]
  constructor
  · rfl
  · rw [← hflows]
    rfl

/-! ### Views of one family -/

variable {executor : ErasureExecutor}

/-- A table of one family is not seen from another. -/
theorem unseen_tables_of_mem {other : ErasureExecutor}
    (ht : t ∈ executor.handler.tables) (hne : other ≠ executor) :
    Unseen other fun s => s.tables t := by
  refine unseen_tables other fun hother => hne (handler_injective ?_)
  exact (FamilyHandler.mem_tables.mp hother).symm.trans (FamilyHandler.mem_tables.mp ht)

theorem unseen_dependents (hne : executor ≠ .workflowRunRecords) :
    (Unseen executor fun s => s.runEvents) ∧ Unseen executor fun s => s.checkpoints := by
  have hparents : ∀ t ∈ executor.handler.tables, t ≠ .runs ∧ t ≠ .taskFlows := by
    intro t ht
    constructor <;>
    · rintro rfl
      have hhandler := FamilyHandler.mem_tables.mp ht
      exact hne (handler_injective hhandler.symm)
  refine ⟨⟨fun t ht s ids => ?_, fun _ _ _ => rfl, fun _ _ _ => rfl⟩,
    ⟨fun t ht s ids => ?_, fun _ _ _ => rfl, fun _ _ _ => rfl⟩⟩
  · rw [s.runEvents_removeRows, if_neg (hparents t ht).1]
  · rw [s.checkpoints_removeRows, if_neg (hparents t ht).2]

theorem unseen_asyncRuntime (hne : executor ≠ .asyncRuntimeContent) :
    Unseen executor DataStores.asyncRuntime where
  tables t _ s ids := s.asyncRuntime_removeRows t ids
  runtime h := absurd h hne
  artifacts _ _ _ := rfl

theorem unseen_artifacts (hne : executor ≠ .artifactContent) :
    Unseen executor DataStores.artifacts where
  tables t _ s ids := s.artifacts_removeRows t ids
  runtime _ _ _ := rfl
  artifacts h := absurd h hne

theorem unseen_evaluationAttempts (executor : ErasureExecutor) :
    Unseen executor DataStores.evaluationAttempts where
  tables t ht s ids := by
    rw [s.evaluationAttempts_removeRows, if_neg (not_erased executor t ht).2]
  runtime _ _ _ := rfl
  artifacts _ _ _ := rfl

end Left

section Returned

variable {env : Environment} {adapter : Budget.Adapter} {pass : ErasurePass} {s : DataStores}
  {results : List DataErasureFamilyResult} {t : RetainedTable} {γ : Type}

theorem view_executeErasure {π : DataStores → γ} (executor : ErasureExecutor)
    (hok : (env.executeErasure adapter pass s).result = .ok results)
    (hother : ∀ other, other ≠ executor → Unseen other π)
    (hevents : ∀ s event, π (DataStores.saveLifecycleEvent s event) = π s)
    (hcongr : ∀ s s', π s = π s' →
      π (purge pass.tenantId executor s) = π (purge pass.tenantId executor s')) :
    π (env.executeErasure adapter pass s).final =
      if IsHeld s pass.tenantId executor then π s else π (purge pass.tenantId executor s) := by
  rw [executeErasure, tenantErasableFamilyIds_retentionPolicy] at hok ⊢
  rw [view_eraseFamilies (by decide) (fun other _ => hother other) hevents hcongr hok]
  by_cases hheld : IsHeld s pass.tenantId executor
  · rw [if_pos hheld, if_neg fun h => h.2 hheld]
  · rw [if_neg hheld, if_pos ⟨mem_all executor, hheld⟩]

/-- A view that shows nothing of any family stays. -/
theorem view_executeErasure_of_unseen {π : DataStores → γ}
    (h : ∀ executor, Unseen executor π)
    (hevents : ∀ s event, π (DataStores.saveLifecycleEvent s event) = π s) :
    π (env.executeErasure adapter pass s).final = π s := by
  rw [executeErasure, tenantErasableFamilyIds_retentionPolicy]
  exact (keeps_eraseFamilies (fun executor _ => h executor) hevents).final s

/-- Tables of no erasable family are left. -/
theorem tables_executeErasure_of_notMem (hevents : t ≠ .lifecycleEvents)
    (ht : ∀ executor : ErasureExecutor, t ∉ executor.handler.tables) :
    (env.executeErasure adapter pass s).final.tables t = s.tables t :=
  view_executeErasure_of_unseen (fun executor => unseen_tables executor (ht executor))
    fun s _ => s.tables_put_of_ne hevents _

theorem others_executeErasure :
    (env.executeErasure adapter pass s).final.legalHolds = s.legalHolds ∧
      (env.executeErasure adapter pass s).final.evaluationAttempts = s.evaluationAttempts :=
  Prod.mk.inj (view_executeErasure_of_unseen (fun executor =>
    (unseen_legalHolds executor).prod (unseen_evaluationAttempts executor))
    fun _ _ => rfl)

variable (hok : (env.executeErasure adapter pass s).result = .ok results)

include hok

/-- The tables of a family that is not held lose the rows of the tenant. -/
theorem tables_executeErasure (executor : ErasureExecutor)
    (ht : t ∈ executor.handler.tables) :
    (env.executeErasure adapter pass s).final.tables t =
      if IsHeld s pass.tenantId executor then s.tables t
      else (s.tables t).deleteWhere fun row => t.tenant? row = some pass.tenantId := by
  have hevents := (not_erased executor t ht).1
  rw [view_executeErasure (π := fun s => s.tables t) executor hok, tables_purge _ _ ht]
  · exact fun other hne => unseen_tables_of_mem ht hne
  · exact fun s event => s.tables_put_of_ne hevents _
  · intro s s' hsame
    rw [tables_purge _ _ ht, tables_purge _ _ ht, hsame]

/-- A row that goes with the rows of a table is left where its parent is not the tenant's, or the
family is held. -/
theorem mem_dependents_executeErasure {κ ν : Type} [DecidableEq κ] {key : ν → κ}
    {π : DataStores → Table key} {parent : ν → String}
    (ht : t ∈ workflowRunRecords.handler.tables)
    (hother : ∀ other, other ≠ .workflowRunRecords → Unseen other π)
    (hevents : ∀ s event, π (DataStores.saveLifecycleEvent s event) = π s)
    (hpurge : ∀ s, π (purge pass.tenantId .workflowRunRecords s) =
      (π s).deleteWhere fun child => parent child ∈ tenantRows pass.tenantId t s) {child : ν} :
    child ∈ π (env.executeErasure adapter pass s).final ↔
      child ∈ π s ∧ (IsHeld s pass.tenantId .workflowRunRecords ∨
        ∀ row ∈ s.tables t, t.key row = parent child → t.tenant? row ≠ some pass.tenantId) := by
  have htable := (not_erased _ t ht).1
  -- the parents are part of the view, since it depends on them which rows go
  have hview := view_executeErasure (π := fun s => (s.tables t, π s)) .workflowRunRecords hok ?_ ?_ ?_
  · have hdependents := congrArg Prod.snd hview
    rw [apply_ite Prod.snd, hpurge] at hdependents
    dsimp only at hdependents
    rw [hdependents]
    split_ifs with hheld
    · simp [hheld]
    · rw [mem_deleteWhere, decide_eq_false_iff_not, mem_tenantRows]
      simp only [hheld, false_or, not_exists, not_and]
      exact and_congr_right fun _ => forall_congr' fun row => imp_congr_right fun _ => imp_not_comm
  · exact fun other hne =>
      (unseen_tables_of_mem ht hne : Unseen other fun s => s.tables t).prod (hother other hne)
  · exact fun s event => Prod.ext (s.tables_put_of_ne htable _) (hevents s event)
  · intro s s' hsame
    obtain ⟨hrows, hdependents⟩ := Prod.mk.inj hsame
    have hparents : tenantRows pass.tenantId t s = tenantRows pass.tenantId t s' := by
      rw [tenantRows, hrows, tenantRows]
    rw [tables_purge _ .workflowRunRecords ht, tables_purge _ .workflowRunRecords ht, hpurge, hpurge,
      hrows, hdependents, hparents]

theorem mem_runEvents_executeErasure {event : WorkflowPackRunEvent} :
    event ∈ (env.executeErasure adapter pass s).final.runEvents ↔
      event ∈ s.runEvents ∧ (IsHeld s pass.tenantId .workflowRunRecords ∨
        ∀ run ∈ s.tables .runs, run.runId = event.runId → run.tenantId ≠ some pass.tenantId) :=
  mem_dependents_executeErasure hok (by decide)
    (fun _ hne => (unseen_dependents hne).1) (fun _ _ => rfl) fun s => (dependents_purge _ s).1

theorem mem_checkpoints_executeErasure {checkpoint : TaskFlowCheckpoint} :
    checkpoint ∈ (env.executeErasure adapter pass s).final.checkpoints ↔
      checkpoint ∈ s.checkpoints ∧ (IsHeld s pass.tenantId .workflowRunRecords ∨
        ∀ flow ∈ s.tables .taskFlows, flow.taskFlowId = checkpoint.taskFlowId →
          flow.tenantId ≠ some pass.tenantId) :=
  mem_dependents_executeErasure hok (by decide)
    (fun _ hne => (unseen_dependents hne).2) (fun _ _ => rfl) fun s => (dependents_purge _ s).2

theorem asyncRuntime_executeErasure :
    (env.executeErasure adapter pass s).final.asyncRuntime =
      if IsHeld s pass.tenantId .asyncRuntimeContent then s.asyncRuntime
      else (s.asyncRuntime.deleteJobRecords (tenantJobs pass.tenantId s)).2 := by
  refine (view_executeErasure .asyncRuntimeContent hok (fun _ hne => unseen_asyncRuntime hne)
    (fun _ _ => rfl) fun s s' hsame => ?_).trans rfl
  simp only [purge, tenantJobs, hsame]

theorem artifacts_executeErasure :
    (env.executeErasure adapter pass s).final.artifacts =
      if IsHeld s pass.tenantId .artifactContent then s.artifacts
      else (deleteArtifactsWithPayloads (tenantArtifacts pass.tenantId s) s.artifacts).2 := by
  refine (view_executeErasure .artifactContent hok (fun _ hne => unseen_artifacts hne)
    (fun _ _ => rfl) fun s s' hsame => ?_).trans rfl
  simp only [purge, tenantArtifacts, hsame]

end Returned

/-! ### Taking and leaving -/

variable {tenantId : String} {s : DataStores} {record : ArtifactRecord} {t : RetainedTable}
  {row : t.Row}

theorem RetainedTable.tenant?_of_attributedTo
    (h : t.attributedTo row = some tenantId) : t.tenant? row = some tenantId := by
  cases t with
  | idempotencyRecords =>
    simp only [attributedTo] at h
    split_ifs at h
    exact h
  | _ => exact h

theorem mem_tenantArtifacts :
    record ∈ tenantArtifacts tenantId s ↔
      record ∈ s.artifacts.records ∧ record.tenantId = some tenantId := by
  have hlisted : record ∈ s.artifacts.listArtifacts ↔ record ∈ s.artifacts.records :=
    (List.perm_insertionSort _ _).mem_iff.trans mem_list
  rw [tenantArtifacts, List.mem_filter, hlisted, decide_eq_true_eq]

theorem mem_tenantJobs {jobId : String} :
    jobId ∈ tenantJobs tenantId s ↔
      ∃ job ∈ s.asyncRuntime.jobs, job.tenantId = some tenantId ∧ job.jobId = jobId := by
  simp [tenantJobs, mem_list, and_assoc]

/-- An artifact of another tenant is left, and its payload unless it is shared. -/
theorem artifact_left
    (hrecord : record ∈ s.artifacts.records) (hother : record.tenantId ≠ some tenantId)
    (hshared : ∀ mine ∈ s.artifacts.records, mine.tenantId = some tenantId →
      (s.artifacts.objects.get? mine.objectKey).isSome → mine.objectKey ≠ "" →
        ∀ other ∈ s.artifacts.records, other.objectKey = mine.objectKey →
          other.tenantId = some tenantId) :
    record ∈ (deleteArtifactsWithPayloads (tenantArtifacts tenantId s) s.artifacts).2.records ∧
      (deleteArtifactsWithPayloads (tenantArtifacts tenantId s) s.artifacts).2.objects.get?
        record.objectKey = s.artifacts.objects.get? record.objectKey := by
  constructor
  · rw [mem_iff, get?_deleteArtifacts, if_neg]
    · exact hrecord
    · intro hnamed
      obtain ⟨mine, hmine, hid⟩ := List.mem_map.mp hnamed
      obtain ⟨hmem, htenant⟩ := mem_tenantArtifacts.mp hmine
      obtain rfl := eq_of_key_eq hmem hrecord hid
      exact hother htenant
  · by_cases hkey : record.objectKey = ""
    · rw [hkey, get?_objects_deleteArtifacts_empty]
    · rw [get?_objects_deleteArtifacts _ _ hkey]
      split_ifs with hnamed
      · -- a payload that goes with one of the tenant's artifacts was not there
        obtain ⟨mine, hmine, hsame⟩ := List.mem_map.mp hnamed
        obtain ⟨hmem, htenant⟩ := mem_tenantArtifacts.mp hmine
        by_contra hobject
        have hpresent : (s.artifacts.objects.get? mine.objectKey).isSome := by
          rw [hsame]
          exact Option.isSome_iff_ne_none.mpr (Ne.symm hobject)
        exact hother (hshared mine hmem htenant hpresent (hsame ▸ hkey) record hrecord hsame.symm)
      · rfl

/-- Where nobody's rows are under the tenant's name, what an executor picks is the tenant's. -/
theorem attributedTo_of_tenant? (hmarker : t = .idempotencyRecords → tenantId = Idempotency.noTenantScope →
      ∀ row ∈ s.tables .idempotencyRecords, row.tenantScope ≠ Idempotency.noTenantScope)
    (hrow : row ∈ s.tables t) (h : t.tenant? row = some tenantId) :
    t.attributedTo row = some tenantId := by
  cases t with
  | idempotencyRecords =>
    have hscope : row.tenantScope = tenantId := Option.some.inj h
    have hname : tenantId ≠ Idempotency.noTenantScope := fun hsame =>
      hmarker rfl hsame row hrow (hscope.trans hsame)
    simp only [attributedTo, hscope, if_neg hname]
  | _ => exact h

section Sound

variable {env : Environment} {adapter : Budget.Adapter} {pass : ErasurePass} {s : DataStores}
  {results : List DataErasureFamilyResult}
  (hok : (env.executeErasure adapter pass s).result = .ok results)

include hok

/-- An erasure that returns has taken all that is the tenant's, but for payloads without a key. -/
theorem exhaustive_iff :
    Exhaustive pass.tenantId s (env.executeErasure adapter pass s).final ↔
      (¬ IsHeld s pass.tenantId .artifactContent →
        ∀ record ∈ s.artifacts.records, record.tenantId = some pass.tenantId →
          (s.artifacts.objects.get? record.objectKey).isSome → record.objectKey ≠ "") := by
  constructor
  · intro hexhaustive hheld record hrecord htenant hobject hkey
    have hgone := hexhaustive.payloads hheld record hrecord htenant
    rw [artifacts_executeErasure hok, if_neg hheld, hkey, get?_objects_deleteArtifacts_empty] at hgone
    rw [hkey, hgone] at hobject
    cases hobject
  · intro hkeys
    constructor
    · intro executor hheld t ht row hrow hattributed
      rw [tables_executeErasure hok executor ht, if_neg hheld] at hrow
      have hother := (mem_deleteWhere.mp hrow).2
      simp [tenant?_of_attributedTo hattributed] at hother
    · intro hheld run hrun htenant event hevent hof
      have hothers := ((mem_runEvents_executeErasure hok).mp hevent).2.resolve_left hheld
      exact hothers run hrun hof.symm htenant
    · intro hheld flow hflow htenant checkpoint hcheckpoint hof
      have hothers := ((mem_checkpoints_executeErasure hok).mp hcheckpoint).2.resolve_left hheld
      exact hothers flow hflow hof.symm htenant
    · intro hheld job hjob htenant
      rw [asyncRuntime_executeErasure hok, if_neg hheld, RuntimeContent.jobs_deleteJobRecords,
        mem_delete] at hjob
      exact hjob.2 (mem_tenantJobs.mpr ⟨job, hjob.1, htenant, rfl⟩)
    · intro hheld job hjob htenant
      have hmine : job.jobId ∈ tenantJobs pass.tenantId s :=
        mem_tenantJobs.mpr ⟨job, hjob, htenant, rfl⟩
      rw [asyncRuntime_executeErasure hok, if_neg hheld, RuntimeContent.attempts_deleteJobRecords,
        RuntimeContent.leases_deleteJobRecords, get?_delete]
      exact ⟨if_pos hmine, if_pos hmine⟩
    · intro hheld record hrecord htenant
      rw [artifacts_executeErasure hok, if_neg hheld, mem_iff, get?_deleteArtifacts] at hrecord
      split_ifs at hrecord with hnamed
      exact hnamed (List.mem_map.mpr ⟨record, mem_tenantArtifacts.mpr ⟨hrecord, htenant⟩, rfl⟩)
    · intro hheld record hrecord htenant
      rw [artifacts_executeErasure hok, if_neg hheld]
      by_cases hkey : record.objectKey = ""
      · rw [hkey, get?_objects_deleteArtifacts_empty, ← hkey]
        by_contra hobject
        exact hkeys hheld record hrecord htenant (Option.isSome_iff_ne_none.mpr hobject) hkey
      · rw [get?_objects_deleteArtifacts _ _ hkey, if_pos]
        exact List.mem_map.mpr ⟨record, mem_tenantArtifacts.mpr ⟨hrecord, htenant⟩, rfl⟩

/-- An erasure that returns has left all that is not the tenant's, but for rows under the marker and
shared payloads. -/
theorem exact_iff :
    Exact pass.tenantId s (env.executeErasure adapter pass s).final ↔
      (¬ IsHeld s pass.tenantId .workflowRunRecords → pass.tenantId = Idempotency.noTenantScope →
          ∀ row ∈ s.tables .idempotencyRecords, row.tenantScope ≠ Idempotency.noTenantScope) ∧
      (¬ IsHeld s pass.tenantId .artifactContent →
        ∀ record ∈ s.artifacts.records, record.tenantId = some pass.tenantId →
          (s.artifacts.objects.get? record.objectKey).isSome → record.objectKey ≠ "" →
            ∀ other ∈ s.artifacts.records, other.objectKey = record.objectKey →
              other.tenantId = some pass.tenantId) := by
  constructor
  · intro hexact
    constructor
    · intro hheld hmarker row hrow hscope
      have hleft := hexact.rows .idempotencyRecords nofun row hrow
        (.inl (by simp [attributedTo, hscope]))
      rw [tables_executeErasure hok .workflowRunRecords (by decide), if_neg hheld]
        at hleft
      simp [mem_deleteWhere, tenant?, hscope, hmarker] at hleft
    · intro hheld record hrecord htenant hobject hkey other hother hshared
      by_contra hne
      have hleft := (hexact.artifacts other hother (.inr hne)).2
      rw [artifacts_executeErasure hok, if_neg hheld, hshared,
        get?_objects_deleteArtifacts _ _ hkey, if_pos] at hleft
      · rw [← hleft] at hobject
        cases hobject
      · exact List.mem_map.mpr ⟨record, mem_tenantArtifacts.mpr ⟨hrecord, htenant⟩, rfl⟩
  · rintro ⟨hmarker, hshared⟩
    constructor
    · intro t hevents row hrow hspared
      by_cases hfamily : ∃ executor : ErasureExecutor, t ∈ executor.handler.tables
      · obtain ⟨executor, ht⟩ := hfamily
        have hhandler : t.handler = executor.handler := FamilyHandler.mem_tables.mp ht
        rw [tables_executeErasure hok executor ht]
        split_ifs with hheld
        · exact hrow
        · refine mem_deleteWhere.mpr ⟨hrow, decide_eq_false fun htenant => ?_⟩
          rcases hspared with hattributed | hhold
          · refine hattributed (attributedTo_of_tenant? (fun hsame hname => ?_) hrow htenant)
            subst hsame
            have hworkflow : executor = .workflowRunRecords :=
              handler_injective hhandler.symm
            exact hmarker (hworkflow ▸ hheld) hname
          · rw [hhandler] at hhold
            exact hheld hhold
      · rw [tables_executeErasure_of_notMem hevents fun executor ht => hfamily ⟨executor, ht⟩]
        exact hrow
    · intro t hevents row hrow
      by_cases hfamily : ∃ executor : ErasureExecutor, t ∈ executor.handler.tables
      · obtain ⟨executor, ht⟩ := hfamily
        rw [tables_executeErasure hok executor ht] at hrow
        split_ifs at hrow
        · exact hrow
        · exact (mem_deleteWhere.mp hrow).1
      · rwa [tables_executeErasure_of_notMem hevents fun executor ht =>
          hfamily ⟨executor, ht⟩] at hrow
    · exact fun event hevent hspared => (mem_runEvents_executeErasure hok).mpr ⟨hevent, hspared⟩
    · exact fun row hrow hspared => (mem_checkpoints_executeErasure hok).mpr ⟨hrow, hspared⟩
    · exact ⟨fun event hevent => ((mem_runEvents_executeErasure hok).mp hevent).1,
        fun row hrow => ((mem_checkpoints_executeErasure hok).mp hrow).1⟩
    · intro jobId hspared
      rw [asyncRuntime_executeErasure hok]
      split_ifs with hheld
      · exact ⟨rfl, rfl, rfl⟩
      · have hother : jobId ∉ tenantJobs pass.tenantId s := by
          intro hmine
          obtain ⟨job, hjob, htenant, hid⟩ := mem_tenantJobs.mp hmine
          exact hspared.resolve_left hheld job hjob hid htenant
        rw [RuntimeContent.jobs_deleteJobRecords, RuntimeContent.attempts_deleteJobRecords,
          RuntimeContent.leases_deleteJobRecords, get?_delete, get?_delete]
        exact ⟨if_neg hother, if_neg hother, if_neg hother⟩
    · intro record hrecord hspared
      rw [artifacts_executeErasure hok]
      split_ifs with hheld
      · exact ⟨hrecord, rfl⟩
      · exact artifact_left hrecord (hspared.resolve_left hheld) (hshared hheld)
    · intro record hrecord
      rw [artifacts_executeErasure hok] at hrecord
      split_ifs at hrecord
      · exact hrecord
      · rw [mem_iff, get?_deleteArtifacts] at hrecord
        split_ifs at hrecord
        exact hrecord
    · exact others_executeErasure

end Sound

/-- The receipt is made of what the callback returns. -/
theorem approveDataErasure_apply (env : Environment) (adapter : Budget.Adapter) (pass : ErasurePass)
    (s : DataStores) :
    env.approveDataErasure adapter pass s =
      ⟨(env.executeErasure adapter pass s).visited, (env.executeErasure adapter pass s).final,
        (env.executeErasure adapter pass s).result.map (env.issueReceipt pass)⟩ :=
  bind_pure_apply _

section Main

variable {env : Environment} {adapter : Budget.Adapter} {pass : ErasurePass} {s : DataStores}

theorem exists_ok_of_receipt {receipt : DataErasureReceiptClaims}
    (h : (env.approveDataErasure adapter pass s).result = .ok receipt) :
    ∃ results, (env.executeErasure adapter pass s).result = .ok results ∧
      receipt = env.issueReceipt pass results := by
  rw [approveDataErasure_apply] at h
  cases hresult : (env.executeErasure adapter pass s).result with
  | error e =>
    rw [hresult] at h
    cases h
  | ok results =>
    rw [hresult] at h
    exact ⟨results, rfl, (Except.ok.inj h).symm⟩

theorem tells_executeErasure_iff :
    (∃ results, (env.executeErasure adapter pass s).result = .ok results ∧
        List.Forall₂ (Tells pass.tenantId s (env.executeErasure adapter pass s).final)
          all results) ↔
      RoundsClear env adapter pass all s := by
  rw [executeErasure, tenantErasableFamilyIds_retentionPolicy]
  exact tells_eraseFamilies_iff s (by decide) rfl fun _ _ => rfl

variable (env adapter pass s)

/-- An erasure takes all that is the tenant's and nothing else, and its receipt has the counts,
exactly when the tenant does not have the name of the marker while there are rows of nobody, no
payload of its artifacts is shared or without a key, and no round finds an event of a larger count
or is refused. -/
theorem erasureSound_iff :
    ErasureSound env adapter pass s ↔ ErasureClear env adapter pass s := by
  constructor
  · rintro ⟨hexhaustive, hexact, receipt, hreceipt, htells⟩
    obtain ⟨results, hok, rfl⟩ := exists_ok_of_receipt hreceipt
    rw [approveDataErasure_apply] at hexhaustive hexact htells
    obtain ⟨hmarker, hshared⟩ := (exact_iff hok).mp hexact
    refine ⟨hmarker, ?_, tells_executeErasure_iff.mp ⟨results, hok, htells⟩⟩
    intro hheld record hrecord htenant hobject
    have hkey := (exhaustive_iff hok).mp hexhaustive hheld record hrecord htenant hobject
    exact ⟨hkey, hshared hheld record hrecord htenant hobject hkey⟩
  · rintro ⟨hmarker, hpayloads, hrounds⟩
    obtain ⟨results, hok, htells⟩ := tells_executeErasure_iff.mpr hrounds
    constructor
    · rw [approveDataErasure_apply]
      exact (exhaustive_iff hok).mpr fun hheld record hrecord htenant hobject =>
        (hpayloads hheld record hrecord htenant hobject).1
    · rw [approveDataErasure_apply]
      exact (exact_iff hok).mpr ⟨hmarker, fun hheld record hrecord htenant hobject _ =>
        (hpayloads hheld record hrecord htenant hobject).2⟩
    · rw [approveDataErasure_apply, hok]
      exact ⟨_, rfl, htells⟩

end Main

/-! ### A tenant with the name of the marker -/

/-- An approved erasure of a tenant. -/
def claimedErasure (tenantId : String) : Governance.GovernedActionRecord where
  actionId := "gact_1"
  actionType := .dataErasure
  actorClass := .humanApproved
  target := tenantId
  actionHash := "hash"
  actionPayload := (Dict.empty.insert "tenant_id" (some tenantId)).insert "reason" (some "contract")
  requesterCallerApp := "lotus-ops"
  requesterTrustSource := "trusted_caller"
  requesterKeyId := some "key_1"
  requesterAttribution := none
  requestedAt := "2026-01-01T00:00:00+00:00"
  status := .claimed
  approverKeyId := some "key_2"

def newYearPass (tenantId : String) : ErasurePass where
  caller := ⟨"lotus-ops", "trusted_caller", some "key_2"⟩
  record := claimedErasure tenantId
  now := newYear2026
  hex := "0123456789abcdef"

/-- The record of an execution for a caller without a tenant. -/
def unattributedRecord : IdempotencyRecord where
  recordId := "record_1"
  callerApp := "lotus-advise"
  tenantScope := Idempotency.tenantScopeOf none
  idempotencyKey := "key"
  requestFingerprint := "fingerprint"
  state := .completed
  ownerToken := "owner"
  responsePayload := none
  responseChecksumSha256 := none
  failureCode := none
  createdAt := "2026-01-01T00:00:00+00:00"
  updatedAt := "2026-01-01T00:00:00+00:00"

/-- The stores with this record. -/
def unattributedStores : DataStores :=
  DataStores.empty.put .idempotencyRecords (Table.ofList [unattributedRecord])

/-- The erasure of a tenant named as the marker deletes the record, which is nobody's. -/
theorem erasure_of_marker_takes_unattributed :
    RetainedTable.attributedTo .idempotencyRecords unattributedRecord = none ∧
      unattributedRecord ∈ unattributedStores.tables .idempotencyRecords ∧
      ((calendar.approveDataErasure .memory (newYearPass "__NO_TENANT__")
        unattributedStores).final.tables .idempotencyRecords).list = [] ∧
      ¬ ErasureSound calendar .memory (newYearPass "__NO_TENANT__") unattributedStores := by
  have hrow : unattributedRecord ∈ unattributedStores.tables .idempotencyRecords := by
    rw [← Table.mem_list]
    decide +kernel
  have hgone : ((calendar.approveDataErasure .memory (newYearPass "__NO_TENANT__")
      unattributedStores).final.tables .idempotencyRecords).list = [] := by
    decide +kernel
  refine ⟨by decide +kernel, hrow, hgone, fun hsound => ?_⟩
  have hleft := hsound.exact.rows .idempotencyRecords (by decide) unattributedRecord hrow
    (.inl (by decide +kernel))
  cases hleft

end LotusAI.Lifecycle
