import LotusAI.Lifecycle.Runs

/-!
# Retention and live rows

Some rows are more than evidence: somebody is still at work on what they stand for. A governed
action may be claimed, a debit reserved, a reservation in progress, a job not yet done. Whether
the engine spares such rows depends on the protective predicate of their table, if it has one.
-/

namespace LotusAI.Lifecycle

open Lib

/-- The rows that stand for something under way at an instant. -/
def RetainedTable.IsLive (iso : IsoFormat) (now : String) : (t : RetainedTable) → t.Row → Prop
  | governedActions, row => row.status = .pending ∨ row.status = .claimed
  | attemptDebits, row => row.basis = .reservedMax ∨ row.basis = .unresolvedMax
  | idempotencyRecords, row => row.state = .inProgress
  | evaluationRuns, row => row.lifecycleStatus.isTerminal = false
  | ingestionJobs, row => row.status.isTerminal = false
  | taskFlows, row => row.flowStatus.isTerminal = false
  | killSwitches, row => KillSwitch.isEnforcing iso row now = .ok true
  | auditRecords, _ | evidence _, _ | lifecycleEvents, _ | confirmations, _ | runs, _
  | queueEvents, _ | caseResults, _ | documentVersions, _ | admissionLeases, _ => False

variable {iso : IsoFormat} {now : String}

/-- The tables of live rows are written to by one handler each. -/
theorem RetainedTable.isPrivate_of_isLive {t : RetainedTable}
    {row : t.Row} (h : t.IsLive iso now row) : t.IsPrivate := by
  constructor
  · rintro rfl
    exact h
  · rintro rfl
    exact h

section LiveRows

variable (env : Environment) (run : Run) (policy : RetentionPolicy) (s : DataStores)

/-- The run leaves every live row where it is. -/
def KeepsLiveRows : Prop :=
  ∀ t : RetainedTable, ∀ row ∈ s.tables t, t.IsLive env.iso (env.isoformat run.now) row →
    row ∈ (env.runDataLifecycle run policy s).2.tables t

/-- A live row is lost exactly when its handler lists and picks it. -/
theorem keepsLiveRows_iff_not_due :
    KeepsLiveRows env run policy s ↔
      ∀ t horizon, Environment.horizon? run policy s t.handler = some horizon →
        ∀ row ∈ listed env s t, t.IsLive env.iso (env.isoformat run.now) row →
          t.isDue env.iso horizon row = false := by
  constructor
  · intro hkeeps t horizon hhorizon row hlisted hlive
    have hleft := hkeeps t row (mem_of_mem_listed hlisted) hlive
    exact not_due_of_mem_tables_run (RetainedTable.isPrivate_of_isLive hlive) hleft hhorizon hlisted
  · intro hspared t row hrow hlive
    exact mem_tables_run_of_not_due (RetainedTable.isPrivate_of_isLive hlive) hrow
      fun horizon hhorizon hlisted => hspared t horizon hhorizon row hlisted hlive

/-- No live row is old enough, but for the pending actions and uncleared switches that their
handler passes over, and for the reservations and task flows of held tenants. -/
structure NoLiveRowDue : Prop where
  claimedActions : ∀ horizon,
    Environment.horizon? run policy s .controlPlaneEvidence = some horizon →
    ∀ action ∈ listed env s .governedActions, action.status = .claimed →
      env.iso.readsBefore action.requestedAt horizon.cutoff = false
  openDebits : ∀ horizon,
    Environment.horizon? run policy s .controlPlaneEvidence = some horizon →
    ∀ debit ∈ listed env s .attemptDebits,
      debit.basis = .reservedMax ∨ debit.basis = .unresolvedMax →
      env.iso.readsBefore debit.recordedAt horizon.cutoff = false
  /-- Of the switches that enforce, one whose expiry has been recorded is not passed over. -/
  enforcingSwitches : ∀ horizon,
    Environment.horizon? run policy s .controlPlaneEvidence = some horizon →
    ∀ switch ∈ s.tables .killSwitches,
      KillSwitch.isEnforcing env.iso switch (env.isoformat run.now) = .ok true →
      switch.expiryRecordedAt.isSome → env.iso.readsBefore switch.activatedAt horizon.cutoff = false
  reservations : ∀ horizon,
    Environment.horizon? run policy s .workflowRunRecords = some horizon →
    ∀ record ∈ listed env s .idempotencyRecords, record.state = .inProgress →
      record.tenantScope ∉ horizon.held →
      env.iso.readsBefore record.createdAt horizon.cutoff = false
  taskFlows : ∀ horizon,
    Environment.horizon? run policy s .workflowRunRecords = some horizon →
    ∀ flow ∈ s.tables .taskFlows, flow.flowStatus.isTerminal = false →
      horizon.isHeld flow.tenantId = false →
      env.iso.readsBefore flow.createdAt horizon.cutoff = false
  evaluationRuns : ∀ horizon,
    Environment.horizon? run policy s .evaluationApprovalEvidence = some horizon →
    ∀ record ∈ s.tables .evaluationRuns, record.lifecycleStatus.isTerminal = false →
      env.iso.readsBefore record.submittedAt horizon.cutoff = false
  ingestionJobs : ∀ horizon,
    Environment.horizon? run policy s .retrievalSharedReference = some horizon →
    ∀ job ∈ s.tables .ingestionJobs, job.status.isTerminal = false →
      env.iso.readsBefore job.requestedAt horizon.cutoff = false

/-- An enforcing switch has not been cleared. -/
theorem clearedAt_of_isEnforcing {switch : KillSwitch.KillSwitchActivation} (h : KillSwitch.isEnforcing iso switch now = .ok true) :
    switch.clearedAt = none := by
  by_contra hcleared
  simp [KillSwitch.isEnforcing, hcleared] at h

/-- A run keeps all live rows exactly when none is due. -/
theorem keepsLiveRows_iff : KeepsLiveRows env run policy s ↔ NoLiveRowDue env run policy s := by
  rw [keepsLiveRows_iff_not_due]
  constructor
  · intro hspared
    constructor
    · intro horizon hhorizon action hlisted hclaimed
      simpa [RetainedTable.isDue, hclaimed] using
        hspared .governedActions horizon hhorizon action hlisted (.inr hclaimed)
    · intro horizon hhorizon debit hlisted hbasis
      exact hspared .attemptDebits horizon hhorizon debit hlisted hbasis
    · intro horizon hhorizon switch hswitch henforcing hrecorded
      simpa [RetainedTable.isDue, hrecorded] using hspared .killSwitches horizon hhorizon switch
        ((mem_listed_of_limit_eq_none rfl).mpr hswitch) henforcing
    · intro horizon hhorizon record hlisted hstate hheld
      simpa [RetainedTable.isDue, Horizon.isHeld, hheld] using
        hspared .idempotencyRecords horizon hhorizon record hlisted hstate
    · intro horizon hhorizon flow hflow hstatus hheld
      simpa [RetainedTable.isDue, hheld] using hspared .taskFlows horizon hhorizon flow
        ((mem_listed_of_limit_eq_none rfl).mpr hflow) hstatus
    · intro horizon hhorizon record hrecord hstatus
      exact hspared .evaluationRuns horizon hhorizon record
        ((mem_listed_of_limit_eq_none rfl).mpr hrecord) hstatus
    · intro horizon hhorizon job hjob hstatus
      exact hspared .ingestionJobs horizon hhorizon job
        ((mem_listed_of_limit_eq_none rfl).mpr hjob) hstatus
  · intro hdue t horizon hhorizon row hlisted hlive
    have hrow := mem_of_mem_listed hlisted
    cases t with
    | governedActions =>
      rcases hlive with hpending | hclaimed
      · simp [RetainedTable.isDue, hpending]
      · simp [RetainedTable.isDue, hdue.claimedActions horizon hhorizon row hlisted hclaimed]
    | attemptDebits => exact hdue.openDebits horizon hhorizon row hlisted hlive
    | killSwitches =>
      have hcleared := clearedAt_of_isEnforcing hlive
      cases hrecorded : row.expiryRecordedAt with
      | none => simp [RetainedTable.isDue, hcleared, hrecorded]
      | some recordedAt =>
        have hyoung := hdue.enforcingSwitches horizon hhorizon row hrow hlive (by simp [hrecorded])
        simp [RetainedTable.isDue, hyoung]
    | idempotencyRecords =>
      by_cases hheld : row.tenantScope ∈ horizon.held
      · simp [RetainedTable.isDue, Horizon.isHeld, hheld]
      · simp [RetainedTable.isDue, hdue.reservations horizon hhorizon row hlisted hlive hheld]
    | taskFlows =>
      cases hheld : horizon.isHeld row.tenantId with
      | true => simp [RetainedTable.isDue, hheld]
      | false => simp [RetainedTable.isDue, hdue.taskFlows horizon hhorizon row hrow hlive hheld]
    | evaluationRuns => exact hdue.evaluationRuns horizon hhorizon row hrow hlive
    | ingestionJobs => exact hdue.ingestionJobs horizon hhorizon row hrow hlive
    | _ => exact hlive.elim

end LiveRows

/-! ### A claimed action -/

/-- An approval of 2015 that was claimed, and whose execution has not been confirmed. -/
def claimedAction : Governance.GovernedActionRecord where
  actionId := "gov_1"
  actionType := .killSwitchClear
  actorClass := .humanApproved
  target := "switch_1"
  actionHash := "hash"
  actionPayload := .empty
  requesterCallerApp := "lotus-ops"
  requesterTrustSource := "credential"
  requesterKeyId := some "key_1"
  requesterAttribution := none
  requestedAt := "2015-01-01T00:00:00+00:00"
  status := .claimed

/-- The stores that hold it. -/
def claimedStores : DataStores := DataStores.empty.put .governedActions (Table.ofList [claimedAction])

/-- Only pending actions are passed over: the claimed one is deleted, and with it what a resumed
execution would have to read. -/
theorem claimed_action_expires : ¬ KeepsLiveRows calendar newYearRun retentionPolicy claimedStores := by
  rw [keepsLiveRows_iff_not_due]
  intro hspared
  have hdue := hspared .governedActions ⟨1546473600000000, 1546473600000000, []⟩ (by rfl)
    claimedAction (by decide +kernel) (.inr rfl)
  revert hdue
  decide +kernel

end LotusAI.Lifecycle
