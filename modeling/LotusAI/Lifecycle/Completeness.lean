import LotusAI.Lifecycle.Counts
import Mathlib.Data.List.TakeWhile

/-!
# Completeness and idempotence of retention

A run is complete when it leaves nothing that is overdue, and idempotent when a second run at the
same instant finds nothing to do. Most listings stop after a number of rows, and come newest
first, while the rows to be deleted are the oldest: rows beyond the limit are left, and a second
run may or may not reach them.
-/

namespace LotusAI.Lifecycle

open Lib Environment Table List DataStores RetentionFamily

/-- Past retention, neither protected nor of a tenant under a hold. -/
def RetainedTable.IsOverdue (iso : IsoFormat) (horizon : Horizon) (t : RetainedTable)
    (row : t.Row) : Prop :=
  t.isDue iso horizon row ∧ horizon.isHeld (t.tenant? row) = false

def Run.eventId (run : Run) (familyId : String) : String := "dle_" ++ run.hex familyId

section Completeness

variable (env : Environment) (run : Run) (policy : RetentionPolicy) (s : DataStores)

/-- The stores when the turn of a handler comes. Only the lifecycle events and the case results
can differ from what there was at the start, as far as the handler is concerned. -/
def storesBefore (h : FamilyHandler) : DataStores :=
  (env.runFamilies policy.policyVersion run
    (policy.families.takeWhile fun family => family.familyId ≠ h.familyId) s).2

/-- Nothing that is overdue is left in an enforced family, and nothing that depends on it. -/
structure RetentionComplete : Prop where
  rows : ∀ (t : RetainedTable) (horizon : Horizon),
    Environment.horizon? run policy s t.handler = some horizon →
    ∀ row ∈ (env.runDataLifecycle run policy s).2.tables t, ¬ t.IsOverdue env.iso horizon row
  jobs : ∀ horizon, Environment.horizon? run policy s .asyncRuntimeContent = some horizon →
    ∀ job ∈ (env.runDataLifecycle run policy s).2.asyncRuntime.jobs,
      jobIsDue env.iso horizon job → horizon.isHeld job.tenantId
  leases : ∀ horizon, Environment.horizon? run policy s .transientOperationalLeases = some horizon →
    ∀ lease ∈ (env.runDataLifecycle run policy s).2.asyncRuntime.leases,
      leaseIsDue env.iso horizon lease = false
  artifacts : ∀ horizon, Environment.horizon? run policy s .artifactContent = some horizon →
    ∀ record ∈ (env.runDataLifecycle run policy s).2.artifacts.records,
      artifactIsDue env.iso horizon record → horizon.isHeld record.tenantId
  runEvents : ∀ horizon, Environment.horizon? run policy s .workflowRunRecords = some horizon →
    ∀ packRun ∈ s.tables .runs, RetainedTable.IsOverdue env.iso horizon .runs packRun →
      ∀ event ∈ (env.runDataLifecycle run policy s).2.runEvents, event.runId ≠ packRun.runId
  checkpoints : ∀ horizon, Environment.horizon? run policy s .workflowRunRecords = some horizon →
    ∀ flow ∈ s.tables .taskFlows, RetainedTable.IsOverdue env.iso horizon .taskFlows flow →
      ∀ checkpoint ∈ (env.runDataLifecycle run policy s).2.checkpoints,
        checkpoint.taskFlowId ≠ flow.taskFlowId
  evaluationAttempts : ∀ horizon,
    Environment.horizon? run policy s .evaluationApprovalEvidence = some horizon →
    ∀ record ∈ s.tables .evaluationRuns,
      RetainedTable.IsOverdue env.iso horizon .evaluationRuns record →
      ∀ attempt ∈ (env.runDataLifecycle run policy s).2.evaluationAttempts,
        attempt.runId ≠ record.runId
  attempts : ∀ horizon, Environment.horizon? run policy s .asyncRuntimeContent = some horizon →
    ∀ job ∈ s.asyncRuntime.jobs, jobIsDue env.iso horizon job →
      horizon.isHeld job.tenantId = false →
      (env.runDataLifecycle run policy s).2.asyncRuntime.store.attempts.get? job.jobId = none

/-- What there is no more to do at the same instant, whatever random digits are drawn. -/
def NothingToDo (after : DataStores) : Prop :=
  ∀ hex, (env.runDataLifecycle { run with hex } policy after).2 = after ∧
    ∀ result ∈ (env.runDataLifecycle { run with hex } policy after).1.results,
      result.deletedCount = 0 ∧ result.eventId = none

/-- The event of a family has the number of listed rows that its handler has deleted. -/
def CountsRows : Prop :=
  ∀ family ∈ policy.families, ∀ h period, family.schedule? = some (h, period) →
    let found := storesBefore env run policy s h
    let outcome := env.expire (family.horizon period run.now found) h found
    outcome.deletedIds ≠ [] →
      ∃ event, ((env.runDataLifecycle run policy s).2.tables .lifecycleEvents).get?
          (run.eventId family.familyId) = some event ∧ event.familyId = family.familyId ∧
        Environment.rowsOf outcome.stores h + event.rowCount = Environment.rowsOf found h

/-- Retention is complete, idempotent and counted. -/
structure RetentionSound : Prop where
  complete : RetentionComplete env run policy s
  idempotent : NothingToDo env run policy (env.runDataLifecycle run policy s).2
  counts : CountsRows env run policy s

/-- A case result whose evaluation run is deleted goes with it, listed or not. -/
def RetainedTable.GoesWithParent : (t : RetainedTable) → t.Row → Prop
  | caseResults, row => ∃ horizon,
      Environment.horizon? run policy s .evaluationApprovalEvidence = some horizon ∧
        row.runId ∈ env.expired horizon .evaluationRuns s
  | _, _ => False

/-- Every overdue row is listed when the turn of its handler comes; and no confirmation that is
past retention, and under a hold that its handler does not look for, moves up into the listing
when the rows before it are gone. -/
structure ListsAllOverdue : Prop where
  rows : ∀ (t : RetainedTable) (horizon : Horizon),
    Environment.horizon? run policy s t.handler = some horizon →
    ∀ row ∈ (storesBefore env run policy s t.handler).tables t, t.IsOverdue env.iso horizon row →
      row ∈ listed env (storesBefore env run policy s t.handler) t ∨
        t.GoesWithParent env run policy s row
  confirmations : ∀ horizon,
    Environment.horizon? run policy s .controlPlaneEvidence = some horizon →
    ∀ row ∈ (env.scan .confirmations).window ((s.tables .confirmations).sweep
        (env.scan .confirmations) (RetainedTable.isDue env.iso horizon .confirmations)).list,
      RetainedTable.isDue env.iso horizon .confirmations row = false

end Completeness

/-! ### The turn of a handler -/

/-- A list up to an entry, the entry, and what follows. -/
theorem exists_takeWhile_append {α κ : Type} [DecidableEq κ] {key : α → κ} {l : List α} {x : α}
    (hnodup : (l.map key).Nodup) (hmem : x ∈ l) :
    ∃ rest, l = l.takeWhile (fun y => key y ≠ key x) ++ x :: rest ∧
      ∀ y ∈ rest, key y ≠ key x := by
  induction l with
  | nil => cases hmem
  | cons first others ih =>
    rw [map_cons, nodup_cons] at hnodup
    rcases mem_cons.mp hmem with rfl | hothers
    · refine ⟨others, by simp, fun y hy hsame => hnodup.1 ?_⟩
      exact hsame ▸ mem_map_of_mem hy
    · obtain ⟨rest, hsplit, hrest⟩ := ih hnodup.2 hothers
      have hfirst : key first ≠ key x := fun hsame =>
        hnodup.1 (hsame ▸ mem_map_of_mem hothers)
      refine ⟨rest, ?_, hrest⟩
      rw [takeWhile_cons_of_pos (by simpa using hfirst), cons_append, ← hsplit]

section Turns

variable {env : Environment} {run : Run} {policy : RetentionPolicy} {s : DataStores}
  {h : FamilyHandler} {period : ℕ}

variable (env run s) in
/-- A run up to the turn of a handler, the turn, and what follows. -/
theorem exists_turn {family : RetentionFamily}
    (hfamily : family ∈ policy.families) (hschedule : family.schedule? = some (h, period)) :
    ∃ rest, (∀ other ∈ rest, other ∈ policy.families ∧ other.familyId ≠ family.familyId) ∧
      (env.runDataLifecycle run policy s).2 = (env.runFamilies policy.policyVersion run rest
          (env.recordDeletionEvidence policy.policyVersion run family.familyId
            (env.expire (family.horizon period run.now s) h
              (storesBefore env run policy s h)))).2 := by
  obtain ⟨rest, hsplit, hrest⟩ := exists_takeWhile_append policy.nodup hfamily
  refine ⟨rest, fun other hother => ⟨?_, hrest other hother⟩, ?_⟩
  · rw [hsplit]
    exact mem_append_right _ (.tail _ hother)
  · have hid := familyId_of_schedule? hschedule
    have hholds : (storesBefore env run policy s h).legalHolds = s.legalHolds :=
      env.legalHolds_runFamilies ..
    change (env.runFamilies policy.policyVersion run policy.families s).2 = _
    rw [hsplit, env.runFamilies_append, hid]
    change (env.runFamilies policy.policyVersion run rest (env.runFamily policy.policyVersion run
      family (storesBefore env run policy s h)).2).2 = _
    rw [env.runFamily_of_some _ _ _ hschedule, family.horizon_congr period run.now hholds, hid]

/-- A family of another id does not bring the handler. -/
theorem schedule?_ne_of_familyId_ne {family other : RetentionFamily} (hschedule : family.schedule? = some (h, period))
    (hne : other.familyId ≠ family.familyId) (period' : ℕ) :
    other.schedule? ≠ some (h, period') := by
  intro hagain
  exact hne ((familyId_of_schedule? hagain).trans
    (familyId_of_schedule? hschedule).symm)

variable {t : RetainedTable} {event : DataLifecycleEvent} {families : List RetentionFamily}
  {horizon : Horizon} {row : EvaluationCaseResult} {familyId : String} {outcome : Outcome}

/-- Before the turn of a handler, its own tables are as they were. -/
theorem tables_storesBefore (ht : t.IsPrivate) :
    (storesBefore env run policy s t.handler).tables t = s.tables t := by
  refine env.runFamilies_preserves policy.policyVersion run _ (I := fun s' => s'.tables t = s.tables t)
    (fun family hfamily s' hs' => ?_) rfl
  have hne : family.familyId ≠ t.handler.familyId := by
    simpa using mem_takeWhile_imp hfamily
  refine Eq.trans ?_ hs'
  rw [env.view_runFamily _ _ (π := fun s => s.tables t) fun s _ => s.tables_put_of_ne ht.1 _]
  cases hschedule : family.schedule? with
  | none => rfl
  | some found =>
    refine env.tables_expire_of_ne _ _ (fun hhandler => hne ?_) fun _ => ht.2
    rw [familyId_of_schedule? hschedule, hhandler]

/-- In its turn a handler leaves, of what is past retention, what it does not list. -/
theorem mem_expire_of_due {row : t.Row} (hold : t.isDue env.iso horizon row) :
    row ∈ (env.expire horizon t.handler s).stores.tables t ↔
      row ∈ s.tables t ∧ row ∉ listed env s t := by
  rw [env.tables_expire, mem_sweep_of_due hold, listed]

/-! ### Lifecycle events -/

/-- An event of the run itself is not past retention. -/
theorem readsBefore_isoformat (family : RetentionFamily) (period : ℕ) (found : DataStores) :
    env.iso.readsBefore (env.isoformat run.now) (family.horizon period run.now found).cutoff =
      false := by
  refine IsoFormat.readsBefore_mono ?_ (env.notBefore run.now)
  have hdays : 0 ≤ days period := by
    unfold days
    positivity
  change run.now - days period ≤ run.now
  omega

theorem mem_of_mem_recordDeletionEvidence
    (h : event ∈ (env.recordDeletionEvidence policy.policyVersion run familyId outcome).tables
      .lifecycleEvents) :
    event ∈ outcome.stores.tables .lifecycleEvents ∨ event.recordedAt = env.isoformat run.now := by
  unfold recordDeletionEvidence at h
  split_ifs at h
  · exact .inl h
  · rw [DataStores.saveLifecycleEvent, tables_put, mem_upsert] at h
    rcases h with rfl | ⟨h, -⟩
    · exact .inr rfl
    · exact .inl h

/-- A family adds no event but its own. -/
theorem mem_of_mem_lifecycleEvents_runFamily (family : RetentionFamily)
    (h : event ∈ (env.runFamily policy.policyVersion run family s).2.tables .lifecycleEvents) :
    event ∈ s.tables .lifecycleEvents ∨ event.recordedAt = env.isoformat run.now := by
  cases hschedule : family.schedule? with
  | none =>
    rw [env.runFamily_of_none _ _ _ hschedule] at h
    exact .inl h
  | some found =>
    rw [env.runFamily_of_some _ _ _ hschedule] at h
    exact (mem_of_mem_recordDeletionEvidence h).imp_left (env.mem_of_mem_expire _ _)

theorem mem_of_mem_lifecycleEvents_runFamilies (families : List RetentionFamily)
    (h : event ∈ (env.runFamilies policy.policyVersion run families s).2.tables .lifecycleEvents) :
    event ∈ s.tables .lifecycleEvents ∨ event.recordedAt = env.isoformat run.now :=
  env.runFamilies_preserves policy.policyVersion run families
    (I := fun s' => ∀ event ∈ s'.tables .lifecycleEvents,
      event ∈ s.tables .lifecycleEvents ∨ event.recordedAt = env.isoformat run.now)
    (fun family _ _ hs' _ hevent =>
      (mem_of_mem_lifecycleEvents_runFamily family hevent).elim (hs' _) .inr)
    (fun _ => .inl) event h

/-- An event that is not swept stays, unless it is written over. -/
theorem mem_lifecycleEvents_recordDeletionEvidence
    (h : event ∈ outcome.stores.tables .lifecycleEvents)
    (hid : event.eventId ≠ run.eventId familyId) :
    event ∈ (env.recordDeletionEvidence policy.policyVersion run familyId outcome).tables
      .lifecycleEvents := by
  unfold recordDeletionEvidence
  split_ifs
  · exact h
  · rw [DataStores.saveLifecycleEvent, tables_put, mem_upsert]
    exact .inr ⟨h, hid⟩

/-- An event stays through families that do not sweep it or write over it. -/
theorem mem_lifecycleEvents_runFamilies (h : event ∈ s.tables .lifecycleEvents)
    (hid : ∀ family ∈ families, event.eventId ≠ run.eventId family.familyId)
    (hspared : ∀ family ∈ families, ∀ period,
      family.schedule? = some (.controlPlaneEvidence, period) →
        ∀ found, RetainedTable.isDue env.iso (family.horizon period run.now found) .lifecycleEvents
          event = false) :
    event ∈ (env.runFamilies policy.policyVersion run families s).2.tables .lifecycleEvents := by
  refine env.runFamilies_preserves policy.policyVersion run families
    (I := fun s' => event ∈ s'.tables .lifecycleEvents) (fun family hfamily s' hs' => ?_) h
  cases hschedule : family.schedule? with
  | none => rwa [env.runFamily_of_none _ _ _ hschedule]
  | some found =>
    obtain ⟨handler, period⟩ := found
    rw [env.runFamily_of_some _ _ _ hschedule]
    refine mem_lifecycleEvents_recordDeletionEvidence ?_ (hid family hfamily)
    by_cases hhandler : RetainedTable.handler .lifecycleEvents = handler
    · subst hhandler
      exact mem_sweep.mpr ⟨hs', fun _ => hspared family hfamily period hschedule s'⟩
    · rwa [env.tables_expire_of_ne _ _ hhandler fun _ => nofun]

/-- No lifecycle event has an id that the run is going to give. -/
def Run.Fresh (run : Run) (s : DataStores) : Prop :=
  ∀ familyId, (s.tables .lifecycleEvents).get? (run.eventId familyId) = none

/-- The lifecycle events that are old enough are left exactly when they are not listed. -/
theorem mem_lifecycleEvents_run
    (hhorizon : horizon? run policy s .controlPlaneEvidence = some horizon)
    (hfresh : run.Fresh s)
    (hold : RetainedTable.isDue env.iso horizon .lifecycleEvents event) :
    event ∈ (env.runDataLifecycle run policy s).2.tables .lifecycleEvents ↔
      event ∈ (storesBefore env run policy s .controlPlaneEvidence).tables .lifecycleEvents ∧
        event ∉ listed env (storesBefore env run policy s .controlPlaneEvidence) .lifecycleEvents := by
  obtain ⟨⟨family, period⟩, hscheduled, rfl⟩ := Option.map_eq_some_iff.mp hhorizon
  obtain ⟨hfamily, hschedule⟩ := schedule?_of_scheduled? hscheduled
  obtain ⟨rest, hrest, hrun⟩ := exists_turn env run s hfamily hschedule
  have hnew : event.recordedAt ≠ env.isoformat run.now := by
    intro hnow
    rw [RetainedTable.isDue, hnow, readsBefore_isoformat] at hold
    cases hold
  have hswept : event ∈ (env.expire (family.horizon period run.now s) .controlPlaneEvidence
      (storesBefore env run policy s .controlPlaneEvidence)).stores.tables .lifecycleEvents ↔ _ :=
    mem_expire_of_due hold
  rw [hrun]
  constructor
  · intro hleft
    have hturn := (mem_of_mem_lifecycleEvents_runFamilies rest hleft).resolve_right hnew
    exact hswept.mp ((mem_of_mem_recordDeletionEvidence hturn).resolve_right hnew)
  · intro hspared
    -- it was there from the start, so no id of this run is its own
    have hstart := (mem_of_mem_lifecycleEvents_runFamilies _ hspared.1).resolve_right hnew
    have hid : ∀ familyId, event.eventId ≠ run.eventId familyId := by
      intro familyId hsame
      have hget : (s.tables .lifecycleEvents).get? event.eventId = some event := hstart
      rw [hsame, hfresh] at hget
      cases hget
    refine mem_lifecycleEvents_runFamilies ?_ (fun other _ => hid _) ?_
    · exact mem_lifecycleEvents_recordDeletionEvidence (hswept.mpr hspared) (hid _)
    · intro other hother period' hagain
      exact absurd hagain (schedule?_ne_of_familyId_ne hschedule (hrest other hother).2 period')

/-! ### Case results -/

/-- In a table without limit, the deleted rows are those that are past retention. -/
theorem mem_expired_of_limit_eq_none (hlimit : t.limit = none) {id : String} :
    id ∈ env.expired horizon t s ↔ ∃ row ∈ s.tables t, t.isDue env.iso horizon row ∧
      t.key row = id := by
  simp only [expired, mem_map, mem_due, and_assoc]
  refine exists_congr fun row => and_congr_left fun _ => ?_
  exact mem_listed_of_limit_eq_none hlimit

/-- A run adds no row to a table other than its events. -/
theorem tables_runFamilies_subset (ht : t ≠ .lifecycleEvents) (families : List RetentionFamily)
    {row : t.Row} (h : row ∈ (env.runFamilies policy.policyVersion run families s).2.tables t) :
    row ∈ s.tables t := by
  refine env.runFamilies_preserves policy.policyVersion run families
    (I := fun s' => row ∈ s'.tables t → row ∈ s.tables t) (fun family _ s' hs' hrow => hs' ?_) id h
  rw [env.view_runFamily _ _ (π := fun s => s.tables t) fun s _ => s.tables_put_of_ne ht _] at hrow
  cases hschedule : family.schedule? with
  | none => simpa [hschedule] using hrow
  | some found =>
    simp only [hschedule] at hrow
    exact env.mem_of_mem_expire _ _ hrow

/-- No case is left whose run is deleted. -/
theorem not_goesWithParent_of_mem_run
    (h : row ∈ (env.runDataLifecycle run policy s).2.tables .caseResults) :
    ¬ RetainedTable.GoesWithParent env run policy s .caseResults row := by
  rintro ⟨horizon, hhorizon, hexpired⟩
  obtain ⟨⟨family, period⟩, hscheduled, rfl⟩ := Option.map_eq_some_iff.mp hhorizon
  obtain ⟨hfamily, hschedule⟩ := schedule?_of_scheduled? hscheduled
  obtain ⟨rest, -, hrun⟩ := exists_turn env run s hfamily hschedule
  rw [hrun] at h
  have hturn := tables_runFamilies_subset (by decide) rest h
  rw [env.tables_recordDeletionEvidence _ _ _ _ (by decide), env.caseResults_expire] at hturn
  have hspared := (mem_deleteWhere.mp hturn).2
  have hruns : (storesBefore env run policy s .evaluationApprovalEvidence).tables .evaluationRuns =
      s.tables .evaluationRuns := tables_storesBefore (t := .evaluationRuns) (by decide)
  rw [env.expired_congr _ hruns] at hspared
  simp [hexpired] at hspared

/-- A case whose run is not deleted stays once the cases have had their turn. -/
theorem mem_caseResults_runFamilies {found : DataStores} (hholds : found.legalHolds = s.legalHolds)
    (hruns : ∀ record ∈ found.tables .evaluationRuns, record ∈ s.tables .evaluationRuns)
    (hrow : row ∈ found.tables .caseResults)
    (hfamilies : ∀ family ∈ families, family ∈ policy.families ∧
      ∀ period, family.schedule? ≠ some (.evaluationCaseContent, period))
    (hparent : ¬ RetainedTable.GoesWithParent env run policy s .caseResults row) :
    row ∈ (env.runFamilies policy.policyVersion run families found).2.tables .caseResults := by
  have hstays := env.runFamilies_preserves policy.policyVersion run families
    (I := fun s' => s'.legalHolds = s.legalHolds ∧
      (∀ record ∈ s'.tables .evaluationRuns, record ∈ s.tables .evaluationRuns) ∧
      row ∈ s'.tables .caseResults) ?_ ⟨hholds, hruns, hrow⟩
  · exact hstays.2.2
  rintro family hfamily s' ⟨hholds', hruns', hrow'⟩
  refine ⟨(env.legalHolds_runFamily ..).trans hholds', ?_⟩
  rw [env.view_runFamily _ _ (π := fun s => s.tables .caseResults)
      fun s _ => s.tables_put_of_ne (by decide) _,
    env.view_runFamily _ _ (π := fun s => s.tables .evaluationRuns)
      fun s _ => s.tables_put_of_ne (by decide) _]
  cases hschedule : family.schedule? with
  | none => exact ⟨hruns', hrow'⟩
  | some turn =>
    obtain ⟨handler, period⟩ := turn
    dsimp only
    by_cases happroval : handler = RetainedTable.handler .evaluationRuns
    · subst happroval
      refine ⟨fun record hrecord => hruns' record (mem_sweep.mp hrecord).1, ?_⟩
      change row ∈ (env.expire _ .evaluationApprovalEvidence s').stores.tables .caseResults
      refine mem_deleteWhere.mpr ⟨hrow', ?_⟩
      by_contra hdeleted
      -- the run would be deleted from the stores at the start as well
      obtain ⟨record, hrecord, hdue, hkey⟩ := (mem_expired_of_limit_eq_none rfl).mp
        (by simpa using hdeleted)
      exact hparent ⟨_, horizon?_of_schedule? run s (hfamilies family hfamily).1
        hschedule, (mem_expired_of_limit_eq_none rfl).mpr ⟨record, hruns' record hrecord, hdue, hkey⟩⟩
    · have hcases : handler ≠ RetainedTable.handler .caseResults := by
        rintro rfl
        exact (hfamilies family hfamily).2 period hschedule
      rw [env.tables_expire_of_ne _ _ (Ne.symm happroval) fun _ => by decide,
        env.tables_expire_of_ne _ _ (Ne.symm hcases) fun h => absurd h happroval]
      exact ⟨hruns', hrow'⟩

/-! ### Completeness -/

/-- A case that is past retention is left exactly when it is not listed and its run is left. -/
theorem mem_caseResults_run
    (hhorizon : horizon? run policy s .evaluationCaseContent = some horizon)
    (hold : RetainedTable.isDue env.iso horizon .caseResults row) :
    row ∈ (env.runDataLifecycle run policy s).2.tables .caseResults ↔
      (row ∈ (storesBefore env run policy s .evaluationCaseContent).tables .caseResults ∧
        row ∉ listed env (storesBefore env run policy s .evaluationCaseContent) .caseResults) ∧
      ¬ RetainedTable.GoesWithParent env run policy s .caseResults row := by
  obtain ⟨⟨family, period⟩, hscheduled, rfl⟩ := Option.map_eq_some_iff.mp hhorizon
  obtain ⟨hfamily, hschedule⟩ := schedule?_of_scheduled? hscheduled
  obtain ⟨rest, hrest, hrun⟩ := exists_turn env run s hfamily hschedule
  have hswept := mem_expire_of_due
    (s := storesBefore env run policy s .evaluationCaseContent) hold
  rw [← env.tables_recordDeletionEvidence policy.policyVersion run family.familyId _ (by decide)]
    at hswept
  constructor
  · intro hleft
    refine ⟨?_, not_goesWithParent_of_mem_run hleft⟩
    rw [hrun] at hleft
    exact hswept.mp (tables_runFamilies_subset (by decide) rest hleft)
  · rintro ⟨hspared, hparent⟩
    rw [hrun]
    refine mem_caseResults_runFamilies ?_ ?_ (hswept.mpr hspared) (fun other hother =>
      ⟨(hrest other hother).1, schedule?_ne_of_familyId_ne hschedule (hrest other hother).2⟩) hparent
    · rw [env.recordDeletionEvidence_keeps _ _ (π := legalHolds) _ _ fun _ _ => rfl,
        env.legalHolds_expire]
      exact env.legalHolds_runFamilies ..
    · intro record hrecord
      rw [env.tables_recordDeletionEvidence _ _ _ _ (by decide)] at hrecord
      exact tables_runFamilies_subset (by decide) _
        (env.mem_of_mem_expire _ _ hrecord)

/-- A row that is past retention is left exactly when it is not listed, and does not go with
another. -/
theorem mem_tables_run_of_due
    (hhorizon : horizon? run policy s t.handler = some horizon) (hfresh : run.Fresh s)
    {row : t.Row} (hold : t.isDue env.iso horizon row) :
    row ∈ (env.runDataLifecycle run policy s).2.tables t ↔
      (row ∈ (storesBefore env run policy s t.handler).tables t ∧
        row ∉ listed env (storesBefore env run policy s t.handler) t) ∧
      ¬ t.GoesWithParent env run policy s row := by
  by_cases ht : t.IsPrivate
  · have halone : ¬ t.GoesWithParent env run policy s row := by
      have hcases := ht.2
      cases t <;> first | exact id | exact absurd rfl hcases
    rw [env.tables_run run policy s ht, hhorizon, listed, tables_storesBefore ht,
      and_iff_left halone]
    exact mem_sweep_of_due hold
  · rcases Classical.not_and_iff_not_or_not.mp ht with hevents | hcases
    · obtain rfl := not_not.mp hevents
      rw [mem_lifecycleEvents_run hhorizon hfresh hold]
      exact (and_iff_left id).symm
    · obtain rfl := not_not.mp hcases
      exact mem_caseResults_run hhorizon hold

/-- Nothing overdue is left in the tables exactly when everything overdue is listed. -/
theorem rows_complete_iff (hfresh : run.Fresh s) :
    (∀ (t : RetainedTable) (horizon : Horizon),
        horizon? run policy s t.handler = some horizon →
        ∀ row ∈ (env.runDataLifecycle run policy s).2.tables t, ¬ t.IsOverdue env.iso horizon row) ↔
      ∀ (t : RetainedTable) (horizon : Horizon),
        horizon? run policy s t.handler = some horizon →
        ∀ row ∈ (storesBefore env run policy s t.handler).tables t,
          t.IsOverdue env.iso horizon row →
          row ∈ listed env (storesBefore env run policy s t.handler) t ∨
            t.GoesWithParent env run policy s row := by
  constructor
  · intro hcomplete t horizon hhorizon row hfound hoverdue
    by_contra hmissed
    rw [not_or] at hmissed
    refine hcomplete t horizon hhorizon row ?_ hoverdue
    exact (mem_tables_run_of_due hhorizon hfresh hoverdue.1).mpr ⟨⟨hfound, hmissed.1⟩, hmissed.2⟩
  · intro hlists t horizon hhorizon row hleft hoverdue
    obtain ⟨⟨hfound, hlisted⟩, hparent⟩ :=
      (mem_tables_run_of_due hhorizon hfresh hoverdue.1).mp hleft
    exact (hlists t horizon hhorizon row hfound hoverdue).elim hlisted hparent

/-! ### Idempotence -/

/-- Families that find nothing change nothing. -/
theorem runFamilies_of_nothing_due
    (h : ∀ family ∈ families, ∀ handler period, family.schedule? = some (handler, period) →
      (env.expire (family.horizon period run.now s) handler s).deletedIds = [] ∧
        (env.expire (family.horizon period run.now s) handler s).stores = s) :
    (env.runFamilies policy.policyVersion run families s).2 = s ∧
      ∀ result ∈ (env.runFamilies policy.policyVersion run families s).1,
        result.deletedCount = 0 ∧ result.eventId = none := by
  induction families with
  | nil => exact ⟨rfl, by simp [runFamilies]⟩
  | cons family rest ih =>
    have hfirst : (env.runFamily policy.policyVersion run family s).2 = s ∧
        (env.runFamily policy.policyVersion run family s).1.deletedCount = 0 ∧
        (env.runFamily policy.policyVersion run family s).1.eventId = none := by
      cases hschedule : family.schedule? with
      | none => simp [runFamily, hschedule]
      | some found =>
        obtain ⟨hids, hstores⟩ := h family (.head _) found.1 found.2 hschedule
        simp [runFamily, recordDeletionEvidence, hschedule, hids, hstores]
    obtain ⟨hstores, hresults⟩ := ih fun other hother => h other (.tail _ hother)
    simp only [runFamilies, hfirst.1]
    refine ⟨hstores, fun result hresult => ?_⟩
    rcases mem_cons.mp hresult with rfl | hothers
    · exact hfirst.2
    · exact hresults result hothers

/-- Rows past retention are overdue, where their handler looks for holds or their table has no
tenants. -/
theorem RetainedTable.isOverdue_of_isDue {iso : IsoFormat} {row : t.Row}
    (hconfirmations : t ≠ .confirmations) (hleases : t ≠ .admissionLeases)
    (h : t.isDue iso horizon row) : t.IsOverdue iso horizon row := by
  refine ⟨h, ?_⟩
  cases t with
  | confirmations => exact absurd rfl hconfirmations
  | admissionLeases => exact absurd rfl hleases
  | auditRecords | runs | taskFlows | queueEvents | idempotencyRecords =>
    simp only [RetainedTable.isDue, Bool.and_eq_true, Bool.not_eq_true'] at h
    exact h.2
  | _ => rfl

/-- What a run that lists all that is overdue leaves in a table, it does not pick again. -/
theorem expired_run_eq_nil (hlists : ListsAllOverdue env run policy s) (hfresh : run.Fresh s)
    (hhorizon : horizon? run policy s t.handler = some horizon) :
    env.expired horizon t (env.runDataLifecycle run policy s).2 = [] := by
  have hnone : ∀ row ∈ listed env (env.runDataLifecycle run policy s).2 t,
      t.isDue env.iso horizon row = false := by
    intro row hlisted
    by_cases hconfirmations : t = .confirmations
    · subst hconfirmations
      rw [listed, env.tables_run run policy s (by decide), hhorizon] at hlisted
      exact hlists.confirmations horizon hhorizon row hlisted
    have hleft := mem_of_mem_listed hlisted
    by_cases hleases : t = .admissionLeases
    · subst hleases
      apply not_due_of_mem_tables_run (by decide) hleft hhorizon
      exact (mem_listed_of_limit_eq_none rfl).mpr
        (tables_runFamilies_subset (by decide) _ hleft)
    by_contra hdue
    have hoverdue := RetainedTable.isOverdue_of_isDue hconfirmations hleases (by simpa using hdue)
    exact (rows_complete_iff hfresh).mpr hlists.rows t horizon hhorizon row hleft hoverdue
  unfold expired
  rw [map_eq_nil_iff, Scan.due, filter_eq_nil_iff]
  intro row hlisted
  simp [hnone row hlisted]

/-- The unlimited stores have nothing left to pick. -/
theorem contentDue_run
    (hhorizon : horizon? run policy s h = some horizon) :
    env.contentDue horizon (env.runDataLifecycle run policy s).2 h = 0 := by
  cases h with
  | artifactContent =>
    rw [contentDue, artifacts_run, hhorizon]
    simp only [records_deleteArtifacts, due_all_sweep, length_nil]
  | asyncRuntimeContent =>
    rw [contentDue, jobs_run, hhorizon]
    simp only [due_all_sweep, length_nil]
  | transientOperationalLeases =>
    rw [contentDue, length_eq_zero_iff]
    refine due_eq_nil_of_complete fun lease hlease => ?_
    by_contra hold
    exact not_mem_leases_run_of_old hhorizon (by simpa using hold) hlease
  | _ => rfl

/-- A run that lists all that is overdue leaves nothing to do. -/
theorem nothingToDo_run (hlists : ListsAllOverdue env run policy s) (hfresh : run.Fresh s) :
    NothingToDo env run policy (env.runDataLifecycle run policy s).2 := by
  intro hex
  refine runFamilies_of_nothing_due fun family hfamily handler period hschedule => ?_
  have hhorizon := horizon?_of_schedule? run s hfamily hschedule
  have hholds : (env.runDataLifecycle run policy s).2.legalHolds = s.legalHolds :=
    env.legalHolds_runFamilies ..
  rw [family.horizon_congr period _ hholds]
  refine env.expire_of_nothing_due _ _ (fun t ht => ?_) (contentDue_run hhorizon)
  obtain rfl := FamilyHandler.mem_tables.mp ht
  exact expired_run_eq_nil hlists hfresh hhorizon

/-! ### Counts -/

theorem Run.eventId_injective (hhex : Function.Injective run.hex) :
    Function.Injective run.eventId := by
  intro familyId familyId' hsame
  apply hhex
  simpa [Run.eventId] using hsame

/-- The event of a family has the number of rows its handler has taken. -/
theorem countsRows_run (hhex : Function.Injective run.hex) : CountsRows env run policy s := by
  intro family hfamily h period hschedule found outcome hids
  have hholds : found.legalHolds = s.legalHolds := env.legalHolds_runFamilies ..
  have houtcome : outcome = env.expire (family.horizon period run.now s) h found := by
    rw [← family.horizon_congr period run.now hholds]
  obtain ⟨rest, hrest, hrun⟩ := exists_turn env run s hfamily hschedule
  have hstored : env.deletionEvidence policy.policyVersion run family.familyId outcome.deletedIds ∈
      (env.runDataLifecycle run policy s).2.tables .lifecycleEvents := by
    rw [hrun, ← houtcome]
    refine mem_lifecycleEvents_runFamilies ?_ ?_ ?_
    · rw [recordDeletionEvidence, if_neg hids, DataStores.saveLifecycleEvent,
        tables_put, mem_upsert]
      exact .inl rfl
    · intro other hother hsame
      exact (hrest other hother).2 (Run.eventId_injective hhex hsame).symm
    · intro other _ period' _ found'
      exact readsBefore_isoformat other period' found'
  exact ⟨_, hstored, rfl, env.rowsOf_expire _ found h⟩

end Turns

section Soundness

variable (env : Environment) (run : Run) (policy : RetentionPolicy) (s : DataStores)

/-- The attempts of deleted evaluation runs go with them. -/
theorem evaluationAttempts_run :
    (env.runDataLifecycle run policy s).2.evaluationAttempts =
      match horizon? run policy s .evaluationApprovalEvidence with
      | some horizon => s.evaluationAttempts.deleteWhere fun attempt =>
          attempt.runId ∈ env.expired horizon .evaluationRuns s
      | none => s.evaluationAttempts :=
  dependents_run (t := .evaluationRuns) (by decide) (fun _ _ => rfl)
    (fun _ _ => env.evaluationAttempts_expire ..)
    fun _ _ _ hne => env.evaluationAttempts_expire_of_ne _ _ hne

variable {env run policy s} in
/-- Where all that is overdue is listed, an overdue row of a private table is deleted. -/
theorem mem_expired_of_isOverdue (hlists : ListsAllOverdue env run policy s) {t : RetainedTable}
    (ht : t.IsPrivate) {horizon : Horizon}
    (hhorizon : horizon? run policy s t.handler = some horizon) {row : t.Row}
    (hrow : row ∈ s.tables t) (hoverdue : t.IsOverdue env.iso horizon row) :
    t.key row ∈ env.expired horizon t s := by
  have hfound : row ∈ (storesBefore env run policy s t.handler).tables t := by
    rwa [tables_storesBefore ht]
  rcases hlists.rows t horizon hhorizon row hfound hoverdue with hlisted | hparent
  · rw [listed, tables_storesBefore ht] at hlisted
    exact mem_map.mpr ⟨row, mem_due.mpr ⟨hlisted, hoverdue.1⟩, rfl⟩
  · have hcases := ht.2
    cases t <;> first | exact hparent.elim | exact absurd rfl hcases

/-- Retention is complete, idempotent and counted exactly when all that is overdue is listed. The
random digits of a run are taken to be new and different from each other. -/
theorem retentionSound_iff (hhex : Function.Injective run.hex)
    (hfresh : ∀ familyId, (s.tables .lifecycleEvents).get? (run.eventId familyId) = none) :
    RetentionSound env run policy s ↔ ListsAllOverdue env run policy s := by
  constructor
  · intro hsound
    refine ⟨(rows_complete_iff hfresh).mp hsound.complete.rows, fun horizon hhorizon row hlisted => ?_⟩
    -- a second sweep of the confirmations changes nothing, so it picks nothing
    have hholds : (env.runDataLifecycle run policy s).2.legalHolds = s.legalHolds :=
      env.legalHolds_runFamilies ..
    have hleft := env.tables_run_of_horizon? run policy s (t := .confirmations) (by decide) hhorizon
    have hagain := env.tables_run_of_horizon? run policy (env.runDataLifecycle run policy s).2
      (t := .confirmations) (by decide) ((Environment.horizon?_congr run policy _ hholds).trans hhorizon)
    rw [(hsound.idempotent run.hex).1, hleft] at hagain
    have hnone := Table.due_eq_nil_of_sweep_eq hagain.symm
    rw [Scan.due, List.filter_eq_nil_iff] at hnone
    simpa using hnone row hlisted
  · intro hlists
    refine ⟨?_, nothingToDo_run hlists hfresh, countsRows_run hhex⟩
    constructor
    · exact (rows_complete_iff hfresh).mpr hlists.rows
    · intro horizon hhorizon job hjob hdue
      rw [jobs_run, hhorizon] at hjob
      cases hdue.symm.trans (Table.not_due_of_mem_sweep_all hjob)
    · intro horizon hhorizon lease hlease
      by_contra hold
      exact not_mem_leases_run_of_old hhorizon (by simpa using hold) hlease
    · intro horizon hhorizon record hrecord hdue
      rw [artifacts_run, hhorizon, records_deleteArtifacts] at hrecord
      cases hdue.symm.trans (Table.not_due_of_mem_sweep_all hrecord)
    · intro horizon hhorizon packRun hrun hoverdue event hevent hof
      have hexpired := mem_expired_of_isOverdue hlists (t := .runs) (by decide) hhorizon hrun hoverdue
      rw [runEvents_run, hhorizon] at hevent
      exact Table.not_of_mem_deleteWhere hevent (hof ▸ hexpired)
    · intro horizon hhorizon flow hflow hoverdue checkpoint hcheckpoint hof
      have hexpired := mem_expired_of_isOverdue hlists (t := .taskFlows) (by decide) hhorizon hflow
        hoverdue
      rw [checkpoints_run, hhorizon] at hcheckpoint
      exact Table.not_of_mem_deleteWhere hcheckpoint (hof ▸ hexpired)
    · intro horizon hhorizon record hrecord hoverdue attempt hattempt hof
      have hexpired := mem_expired_of_isOverdue hlists (t := .evaluationRuns) (by decide) hhorizon
        hrecord hoverdue
      rw [evaluationAttempts_run, hhorizon] at hattempt
      exact Table.not_of_mem_deleteWhere hattempt (hof ▸ hexpired)
    · intro horizon hhorizon job hjob hdue _
      rw [attempts_run, hhorizon]
      exact if_pos (List.mem_map_of_mem (Table.mem_due_all.mpr ⟨hjob, hdue⟩))

/-! ### Stores within the limit -/

/-- A family adds one row at most to a table: its event. -/
theorem length_tables_runFamily (t : RetainedTable) (family : RetentionFamily) :
    ((env.runFamily policy.policyVersion run family s).2.tables t).list.length ≤
      (s.tables t).list.length + 1 := by
  cases hschedule : family.schedule? with
  | none => rw [env.runFamily_of_none _ _ _ hschedule]; omega
  | some found =>
    obtain ⟨h, period⟩ := found
    rw [env.runFamily_of_some _ _ _ hschedule]
    have hexpire := (env.sublist_expire (family.horizon period run.now s) s h t).length_le
    by_cases hevents : t = .lifecycleEvents
    · subst hevents
      unfold recordDeletionEvidence
      split_ifs
      · omega
      · rw [DataStores.saveLifecycleEvent, tables_put]
        exact (length_upsert_le ..).trans (by omega)
    · rw [env.tables_recordDeletionEvidence _ _ _ _ hevents]
      omega

theorem length_tables_runFamilies (t : RetainedTable) (families : List RetentionFamily) :
    ((env.runFamilies policy.policyVersion run families s).2.tables t).list.length ≤
      (s.tables t).list.length + families.length := by
  induction families generalizing s with
  | nil => rfl
  | cons family rest ih =>
    have hfirst := length_tables_runFamily env run policy s t family
    have hrest := ih (env.runFamily policy.policyVersion run family s).2
    rw [length_cons]
    exact hrest.trans (by omega)

variable {env run policy s} in
/-- Where no table comes near the limit, all that is overdue is listed. -/
theorem listsAllOverdue_of_few
    (hfew : ∀ t, (s.tables t).list.length + policy.families.length ≤ candidateBatchLimit) :
    ListsAllOverdue env run policy s := by
  have hlimit : ∀ t limit, (env.scan t).limit = some limit → limit = candidateBatchLimit := by
    intro t limit hscan
    cases t <;> simp_all [scan, RetainedTable.limit]
  constructor
  · intro t horizon _ row hrow _
    refine .inl ((env.scan t).mem_window_of_length_le (fun limit hscan => ?_)
      (mem_list.mpr hrow))
    rw [hlimit t limit hscan]
    have hbefore := length_tables_runFamilies env run policy s t
      (policy.families.takeWhile fun family => family.familyId ≠ t.handler.familyId)
    have htake := (takeWhile_sublist (l := policy.families)
      fun family => decide (family.familyId ≠ t.handler.familyId)).length_le
    exact hbefore.trans ((by omega : _ ≤ _).trans (hfew t))
  · intro horizon _ row hlisted
    have hleft := mem_list.mp ((env.scan .confirmations).mem_of_mem_window hlisted)
    refine sweep_complete_iff.mpr (fun row hrow _ => ?_) row hleft
    refine (env.scan .confirmations).mem_window_of_length_le (fun limit hscan => ?_)
      (mem_list.mpr hrow)
    rw [hlimit _ limit hscan]
    have := hfew .confirmations
    omega

end Soundness

/-! ### One row more than the limit -/

/-- The name of the `n`-th event. -/
def rolloutName (n : ℕ) : String := String.ofList (List.replicate n 'e')

theorem rolloutName_injective : Function.Injective rolloutName := by
  intro m n hsame
  have hlength := congrArg (fun name => name.toList.length) hsame
  simpa [rolloutName] using hlength

/-- A number of rollout events of 2015. -/
def rolloutEvents (n : ℕ) : Table (RetainedTable.key (.evidence .promptRolloutEvents)) where
  rows := {
    entries := (List.range n).map fun k =>
      (rolloutName k, ⟨rolloutName k, "2015-01-01T00:00:00+00:00"⟩)
    nodup_keys := by
      rw [List.map_map]
      exact List.nodup_range.map rolloutName_injective }
  keyed := by
    intro name row hget
    obtain ⟨k, -, hentry⟩ := List.mem_map.mp (Dict.get?_eq_some_iff.mp hget)
    cases hentry
    rfl

/-- The stores with these events. -/
def rolloutStores (n : ℕ) : DataStores :=
  DataStores.empty.put (.evidence .promptRolloutEvents) (rolloutEvents n)

theorem instant_of_mem_rolloutEvents {n : ℕ} {row : EvidenceRow} (h : row ∈ rolloutEvents n) :
    row.instant = "2015-01-01T00:00:00+00:00" := by
  obtain ⟨k, -, hentry⟩ := mem_map.mp (Dict.get?_eq_some_iff.mp h)
  exact (congrArg (fun entry => entry.2.instant) hentry).symm

/-- Of 5001 events past retention a run takes 5000. -/
theorem surplus_is_left :
    ¬ RetentionSound calendar newYearRun retentionPolicy (rolloutStores 5001) := by
  intro hsound
  have hhorizon : Environment.horizon? newYearRun retentionPolicy (rolloutStores 5001)
      .controlPlaneEvidence = some ⟨1546473600000000, 1546473600000000, []⟩ := rfl
  have hswept := calendar.tables_run_of_horizon? newYearRun retentionPolicy (rolloutStores 5001)
    (t := .evidence .promptRolloutEvents) (by decide) hhorizon
  have htable : (rolloutStores 5001).tables (.evidence .promptRolloutEvents) =
      rolloutEvents 5001 := DataStores.tables_put ..
  have hcount : 5000 < (rolloutEvents 5001).list.length := by
    simp [rolloutEvents, Table.list, Dict.values]
  have hlimit : (calendar.scan (.evidence .promptRolloutEvents)).limit = some 5000 := rfl
  obtain ⟨row, hrow⟩ := Table.exists_mem_sweep_of_limit_lt hlimit hcount
  refine hsound.complete.rows (.evidence .promptRolloutEvents) _ hhorizon row ?_ ⟨?_, rfl⟩
  · rw [hswept]
    exact hrow
  · change calendar.iso.readsBefore row.instant 1546473600000000
    rw [instant_of_mem_rolloutEvents (Table.mem_sweep.mp hrow).1]
    decide +kernel

/-- A dozen of them are deleted in one run. -/
theorem retentionSound_dozen :
    RetentionSound calendar newYearRun retentionPolicy (rolloutStores 12) := by
  refine (retentionSound_iff calendar newYearRun retentionPolicy (rolloutStores 12) (fun _ _ => id)
    fun _ => rfl).mpr (listsAllOverdue_of_few fun t => ?_)
  by_cases ht : t = .evidence .promptRolloutEvents
  · subst ht
    rw [rolloutStores, DataStores.tables_put]
    simp [rolloutEvents, Table.list, Dict.values, candidateBatchLimit, retentionPolicy,
      shippedFamilies]
  · rw [rolloutStores, DataStores.tables_put_of_ne _ ht]
    change 0 + retentionPolicy.families.length ≤ candidateBatchLimit
    decide

end LotusAI.Lifecycle
