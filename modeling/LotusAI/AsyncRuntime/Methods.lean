import LotusAI.AsyncRuntime.Coherence

/-!
# The store methods keep coherence

Claims, transitions of a current claim and recoveries each rewrite one job, its
current attempt and its lease together, so each takes a coherent store to a
coherent store.
-/

namespace LotusAI.AsyncRuntime

open Store Prod

variable {s s' : Store} {j : String} {job : JobRecord} {current : AttemptRecord}

theorem runnable_eq_some (hrun : s.runnable j = some (job, current)) :
    s.jobs.get? j = some job ∧ job.lifecycleStatus = .queued ∧ s.leasesByJob.get? j = none ∧
      latestAttemptOf (s.attemptsOf j) = some current := by
  unfold Store.runnable at hrun
  split at hrun
  · cases hrun
  · rename_i found hfound
    split_ifs at hrun with hstatus hlease
    obtain ⟨latest, hlatest, heq⟩ := Option.map_eq_some_iff.mp hrun
    cases heq
    exact ⟨hfound, not_not.mp hstatus, by simpa using hlease, hlatest⟩

variable {lease : LeaseRecord} {args : TransitionArgs} {extendLease : String → ℕ → String}
  {now : String}

/-! ### Fenced leases -/

/-- Leases belong to active jobs, under ids of that job. -/
structure Fenced (s : Store) : Prop where
  jobId : ∀ j job, s.jobs.get? j = some job → job.jobId = j
  lease : ∀ j lease, s.leasesByJob.get? j = some lease →
    lease.jobId = j ∧ ∃ n, lease.leaseId = leaseIdOf j n
  active : ∀ j lease, s.leasesByJob.get? j = some lease →
    ∃ job, s.jobs.get? j = some job ∧ job.lifecycleStatus.isActive
  inverse : LeasesInverse s

theorem Coherent.fenced (h : Coherent s) : Fenced s where
  jobId j job hjob := (h.present j job hjob).jobId
  lease j lease hlease := by
    obtain ⟨job, hjob⟩ := h.exists_job hlease
    obtain ⟨hj, -, hid⟩ := (h.present j job hjob).lease lease hlease
    exact ⟨hj, _, hid⟩
  active j lease hlease := by
    obtain ⟨job, hjob⟩ := h.exists_job hlease
    exact ⟨job, hjob, (h.present j job hjob).leased.mp (by simp [hlease])⟩
  inverse := h.inverse

/-- A lease of one job cannot be taken for the lease of another. -/
theorem Fenced.grantable (h : Fenced s) {n : ℕ} (hjob : lease.jobId = j)
    (hid : lease.leaseId = leaseIdOf j n)
    (hown : ∀ held, s.leasesByJob.get? j = some held → held.leaseId = lease.leaseId) :
    Grantable s lease := by
  refine ⟨fun k held hheld heq => ?_, fun held hheld => hown held (hjob ▸ hheld)⟩
  obtain ⟨-, m, hcanon⟩ := h.lease k held hheld
  rw [hjob]
  exact (leaseIdOf_inj (hcanon.symm.trans (heq.trans hid))).1

/-! ### Claims -/

theorem rewrites_claim (h : Fenced s) (hrun : s.runnable j = some (job, current))
    (args : ClaimArgs) :
    Rewrites s (s.recordClaim (claimRecord args job current)) j (claimRecord args job current).job
      (some (claimRecord args job current).lease) := by
  obtain ⟨hjob, -, hfree, -⟩ := runnable_eq_some hrun
  have hid := h.jobId j job hjob
  refine .saveLease h.inverse rfl rfl (fun k => ?_)
    (h.grantable hid (congrArg (leaseIdOf · _) hid) (by simp [hfree])) hid
  simp [claimRecord, hid]

theorem touches_claim (h : Coherent s) (hrun : s.runnable j = some (job, current))
    (args : ClaimArgs) :
    Touches s (s.recordClaim (claimRecord args job current)) j (claimRecord args job current).job
      (upsertAttempt (claimRecord args job current).attempt (s.attemptsOf j))
      (some (claimRecord args job current).lease) := by
  obtain ⟨hjob, -, -, hlatest⟩ := runnable_eq_some hrun
  have haj := ((h.present j job hjob).attempt current (mem_of_latestAttemptOf hlatest)).1
  refine (rewrites_claim h.fenced hrun args).touches fun k => ?_
  by_cases hk : k = j <;> simp [Store.recordClaim, claimRecord, haj, hk]

theorem Coherent.recordClaim (h : Coherent s) (hrun : s.runnable j = some (job, current))
    (args : ClaimArgs) : Coherent (s.recordClaim (claimRecord args job current)) := by
  obtain ⟨hjob, hstatus, hlease, hlatest⟩ := runnable_eq_some hrun
  have hc := h.present j job hjob
  obtain ⟨haj, haid⟩ := hc.attempt current (mem_of_latestAttemptOf hlatest)
  have hnum := hc.attemptNumber_latest hlatest
  refine h.of_touches (touches_claim h hrun args) (hc.upsertCurrent hc.jobId rfl haj haid hnum
    (by simp [claimRecord]) (by simp [claimRecord]) ?_)
  rintro l hl
  cases hl
  exact ⟨hc.jobId, hnum ▸ haid, by simp [claimRecord, hc.jobId, hnum]⟩

theorem Coherent.claimRunnableJobById (h : Coherent s) (jobId : String) (args : ClaimArgs) :
    Coherent (s.claimRunnableJobById jobId args).2 := by
  unfold Store.claimRunnableJobById
  split
  · exact h
  · rename_i hrun
    exact h.recordClaim hrun args

theorem Coherent.claimNextRunnableJob (h : Coherent s) (jobTypes : Option (List String))
    (args : ClaimArgs) : Coherent (s.claimNextRunnableJob jobTypes args).2 := by
  unfold Store.claimNextRunnableJob
  split
  · exact h
  · exact h.claimRunnableJobById _ args

/-! ### The end of a claim -/

/-- The attempt a lease names is the job's current one. -/
theorem Coherent.leasedAttempt (h : Coherent s) (hlease : s.leasesByJob.get? j = some lease)
    (hjob : s.jobs.get? j = some job) (hget : s.getAttempt lease.attemptId = some current) :
    current ∈ s.attemptsOf j ∧ current.attemptNumber = job.attemptCount := by
  rw [((h.present j job hjob).lease lease hlease).2.1] at hget
  exact h.mem_of_getAttempt hget

/-- A job's attempts when its current one is rewritten and another may be added. -/
def withNext (a : AttemptRecord) (next? : Option AttemptRecord) (attempts : List AttemptRecord) :
    List AttemptRecord :=
  next?.elim (upsertAttempt a attempts) (upsertAttempt · (upsertAttempt a attempts))

/-- The current attempt and the job leave the active statuses and the lease goes, with or without
a successor attempt. -/
theorem CoherentJob.endClaim {attempts : List AttemptRecord} {lease? : Option LeaseRecord}
    (h : CoherentJob j job attempts lease?) (hcurrent : current ∈ attempts)
    (hnum : current.attemptNumber = job.attemptCount) (a' : AttemptRecord)
    (hsame : a'.jobId = current.jobId ∧ a'.attemptId = current.attemptId ∧
      a'.attemptNumber = current.attemptNumber)
    (hastatus : a'.lifecycleStatus.isActive = false) (job' : JobRecord) (hjobId : job'.jobId = j)
    (hstatus : job'.lifecycleStatus.isActive = false) (next? : Option AttemptRecord)
    (hnext : match next? with
      | none => job'.attemptCount = job.attemptCount
      | some next => job'.attemptCount = job.attemptCount + 1 ∧
          ∃ message, next = queuedAttempt j (job.attemptCount + 1) message) :
    CoherentJob j job' (withNext a' next? attempts) none := by
  obtain ⟨haj, haid⟩ := h.attempt current hcurrent
  rw [← hsame.1] at haj
  rw [← hsame.2.1, ← hsame.2.2] at haid
  rw [← hsame.2.2] at hnum
  cases next? with
  | none =>
    exact h.upsertCurrent hjobId hnext haj haid hnum (by simp [hstatus]) (by simp [hastatus])
      (fun l hl => by cases hl)
  | some next =>
    obtain ⟨hcount, message, rfl⟩ := hnext
    -- the job as it would be without a successor
    have hdone : CoherentJob j { job with lifecycleStatus := job'.lifecycleStatus }
        (upsertAttempt a' attempts) none :=
      h.upsertCurrent h.jobId rfl haj haid hnum (by simp [hstatus]) (by simp [hastatus])
        (fun l hl => by cases hl)
    exact hdone.pushNext hjobId hcount hstatus rfl rfl rfl rfl

/-! ### Transitions of a current claim -/

/-- The worker goes on: the lease is renewed and nothing leaves the active statuses. -/
structure Store.TransitionArgs.Renews (args : TransitionArgs) : Prop where
  lease : args.leaseExtensionSeconds.isSome ∨ args.leaseExpiresAt.isSome
  job : ∀ status, args.jobStatus = some status → status.isActive
  attempt : ∀ status, args.attemptStatus = some status → status.isActive
  successor : args.nextAttemptMessage = none
  artifact : args.terminalArtifact = none

/-- The worker is done: the lease ends, and job and attempt leave the active statuses. The
job is either queued again, under a successor attempt, or finished. -/
structure Store.TransitionArgs.Ends (args : TransitionArgs) : Prop where
  lease : args.leaseExtensionSeconds = none ∧ args.leaseExpiresAt = none
  job : ∃ status, args.jobStatus = some status ∧ status.isActive = false ∧
    (args.nextAttemptMessage.isSome ∨ args.nextAttemptMessage = none ∧ status.isTerminal)
  attempt : ∃ status, args.attemptStatus = some status ∧ status.isActive = false

theorem Store.TransitionArgs.Renews.isActive_transitionedJob (h : args.Renews)
    (hactive : job.lifecycleStatus.isActive) : (transitionedJob args job).lifecycleStatus.isActive := by
  cases hstatus : args.jobStatus with
  | none => simpa [transitionedJob, hstatus] using hactive
  | some status => simpa [transitionedJob, hstatus] using h.job status hstatus

theorem currentClaim_eq_some
    (hclaim : s.currentClaim args now = some (lease, current, job)) :
    s.leasesByJob.get? args.jobId = some lease ∧ s.getAttempt args.attemptId = some current ∧
      s.jobs.get? args.jobId = some job ∧ lease.workerId = args.workerId ∧
      lease.attemptId = args.attemptId ∧ ¬ lease.leaseExpiresAt ≤ now ∧
      job.lifecycleStatus.isActive := by
  unfold Store.currentClaim at hclaim
  split at hclaim
  · rename_i found attempt owner hlease hattempt hjob
    split_ifs at hclaim with hguard
    obtain ⟨rfl, rest⟩ := mk.inj (Option.some.inj hclaim)
    cases rest
    simp only [not_or, not_not, Bool.not_eq_false] at hguard
    obtain ⟨hworker, hid, hexpiry, hactive⟩ := hguard
    exact ⟨hlease, hattempt, hjob, hworker, hid, hexpiry, hactive⟩
  · cases hclaim

theorem transitionedLease_of_renews (extendLease : String → ℕ → String) (hargs : args.Renews)
    (now : String) (lease : LeaseRecord) :
    ∃ expiry, transitionedLease extendLease args now lease =
      some { lease with heartbeatAt := now, leaseExpiresAt := expiry } := by
  unfold transitionedLease
  cases hseconds : args.leaseExtensionSeconds with
  | some seconds => exact ⟨_, rfl⟩
  | none =>
    cases hexpiry : args.leaseExpiresAt with
    | some expiry => exact ⟨_, rfl⟩
    | none => simpa [hseconds, hexpiry] using hargs.lease

theorem transitionedLease_eq_some {renewed : LeaseRecord}
    (h : transitionedLease extendLease args now lease = some renewed) :
    ∃ expiry, renewed = { lease with heartbeatAt := now, leaseExpiresAt := expiry } := by
  unfold transitionedLease at h
  split at h <;> cases h <;> exact ⟨_, rfl⟩

/-- What a performed transition writes. -/
def Store.recordTransition (s : Store) (leaseId : String) (transition : ClaimTransition) : Store :=
  let saved := (s.saveAttempt transition.attempt).saveJob transition.job
  let queued := match transition.nextAttempt with
    | some next => saved.saveAttempt next
    | none => saved
  match transition.lease with
  | none => (queued.deleteLease leaseId).2
  | some renewed => queued.saveLease renewed

/-- A transition finds nothing, or moves the current claim. -/
theorem transitionCurrentClaim_cases {answer : Except String (Option ClaimTransition)}
    (h : s.transitionCurrentClaim extendLease args = (answer, s')) :
    (s' = s ∧ ∀ transition, answer ≠ .ok (some transition)) ∨
    ∃ now lease attempt job transition, s.currentClaim args now = some (lease, attempt, job) ∧
      transition = ⟨transitionedJob args job, transitionedAttempt args now attempt,
        transitionedLease extendLease args now lease, successorAttempt args job⟩ ∧
      answer = .ok (some transition) ∧ s' = s.recordTransition lease.leaseId transition := by
  unfold Store.transitionCurrentClaim at h
  split at h
  · cases h
    exact .inl ⟨rfl, by simp⟩
  split at h
  · cases h
    exact .inl ⟨rfl, by simp⟩
  cases h
  exact .inr ⟨_, _, _, _, _, by assumption, rfl, rfl, rfl⟩

theorem attemptsOf_recordTransition (leaseId : String) (transition : ClaimTransition) (k : String) :
    (s.recordTransition leaseId transition).attemptsOf k =
      (match transition.nextAttempt with
        | some next => (s.saveAttempt transition.attempt).saveAttempt next
        | none => s.saveAttempt transition.attempt).attemptsOf k := by
  unfold Store.recordTransition
  cases transition.nextAttempt <;> cases transition.lease <;> simp

/-- Whether or not there is a successor, the lease is replaced last. -/
theorem rewrites_transition (h : Fenced s) (extendLease : String → ℕ → String)
    (hclaim : s.currentClaim args now = some (lease, current, job)) :
    Rewrites s (s.recordTransition lease.leaseId ⟨transitionedJob args job,
        transitionedAttempt args now current, transitionedLease extendLease args now lease,
        successorAttempt args job⟩) args.jobId (transitionedJob args job)
      (transitionedLease extendLease args now lease) := by
  obtain ⟨hlease, -, hjob, -⟩ := currentClaim_eq_some hclaim
  have hid : (transitionedJob args job).jobId = args.jobId := h.jobId _ job hjob
  cases hrenewed : transitionedLease extendLease args now lease with
  | none =>
    cases successorAttempt args job with
    | none | some next => exact .deleteLease h.inverse rfl rfl (by simp [hid]) hlease
  | some renewed =>
    obtain ⟨expiry, rfl⟩ := transitionedLease_eq_some hrenewed
    obtain ⟨howner, n, hcanon⟩ := h.lease _ lease hlease
    have hgrant : Grantable s { lease with heartbeatAt := now, leaseExpiresAt := expiry } :=
      h.grantable howner hcanon fun held hheld => by rw [Option.mem_unique hheld hlease]
    cases successorAttempt args job with
    | none | some next => exact .saveLease h.inverse rfl rfl (by simp [hid]) hgrant howner

/-- A performed transition: the job was active, and is left as the transition says. -/
theorem touches_transition (h : Coherent s) {transition : ClaimTransition}
    (hperformed : s.transitionCurrentClaim extendLease args = (.ok (some transition), s')) :
    ∃ now lease attempt job, s.leasesByJob.get? args.jobId = some lease ∧
      s.jobs.get? args.jobId = some job ∧ job.lifecycleStatus.isActive ∧
      attempt ∈ s.attemptsOf args.jobId ∧ attempt.attemptNumber = job.attemptCount ∧
      transition = ⟨transitionedJob args job, transitionedAttempt args now attempt,
        transitionedLease extendLease args now lease, successorAttempt args job⟩ ∧
      Touches s s' args.jobId transition.job (withNext transition.attempt transition.nextAttempt
        (s.attemptsOf args.jobId)) transition.lease := by
  rcases transitionCurrentClaim_cases hperformed with ⟨-, hnot⟩ |
    ⟨now, lease, attempt, job, _, hclaim, rfl, hanswer, rfl⟩
  · exact absurd rfl (hnot transition)
  cases hanswer
  obtain ⟨hlease, hget, hjob, -, hid, -, hactive⟩ := currentClaim_eq_some hclaim
  rw [← hid] at hget
  obtain ⟨hmem, hnum⟩ := h.leasedAttempt hlease hjob hget
  have hc := h.present _ job hjob
  have haj := (hc.attempt attempt hmem).1
  refine ⟨now, lease, attempt, job, hlease, hjob, hactive, hmem, hnum, rfl,
    (rewrites_transition h.fenced extendLease hclaim).touches fun k => ?_⟩
  rw [attemptsOf_recordTransition]
  cases hsuccessor : successorAttempt args job with
  | none => by_cases hk : k = args.jobId <;> simp [transitionedAttempt, withNext, haj, hk]
  | some next =>
    obtain ⟨message, -, rfl⟩ := Option.map_eq_some_iff.mp hsuccessor
    by_cases hk : k = args.jobId <;>
      simp [transitionedAttempt, queuedAttempt, withNext, haj, hc.jobId, hk]

theorem Coherent.transitionCurrentClaim (h : Coherent s) (extendLease : String → ℕ → String)
    (hargs : args.Renews ∨ args.Ends) : Coherent (s.transitionCurrentClaim extendLease args).2 := by
  rcases hperformed : s.transitionCurrentClaim extendLease args with ⟨answer, s'⟩
  rcases transitionCurrentClaim_cases hperformed with ⟨rfl, -⟩ | ⟨_, _, _, _, _, -, -, rfl, -⟩
  · exact h
  obtain ⟨now, lease, attempt, job, hlease, hjob, hactive, hmem, hnum, heq, ht⟩ :=
    touches_transition h hperformed
  rw [heq] at ht
  apply h.of_touches ht
  have hc := h.present _ job hjob
  rcases hargs with hrenew | hend
  · obtain ⟨expiry, hrenewed⟩ := transitionedLease_of_renews extendLease hrenew now lease
    have hsuccessor : successorAttempt args job = none := by
      simp [successorAttempt, hrenew.successor]
    obtain ⟨haj, haid⟩ := hc.attempt attempt hmem
    simp only [hsuccessor, hrenewed]
    refine hc.upsertCurrent hc.jobId (by simp [transitionedJob, hsuccessor]) haj haid hnum ?_ ?_ ?_
    · simpa using hrenew.isActive_transitionedJob hactive
    · cases hstatus : args.attemptStatus with
      | none =>
        simpa [transitionedAttempt, hstatus] using
          (hc.active attempt hmem).mpr ⟨by simp [hlease], hnum⟩
      | some status => simpa [transitionedAttempt, hstatus] using hrenew.attempt status hstatus
    · rintro l hl
      cases hl
      exact hc.lease lease hlease
  · obtain ⟨jobStatus, hjobStatus, hjobInactive, -⟩ := hend.job
    obtain ⟨attemptStatus, hattemptStatus, hattemptInactive⟩ := hend.attempt
    have hended : transitionedLease extendLease args now lease = none := by
      simp [transitionedLease, hend.lease]
    simp only [hended]
    refine hc.endClaim hmem hnum (transitionedAttempt args now attempt) ⟨rfl, rfl, rfl⟩ ?_
      (transitionedJob args job) hc.jobId ?_ _ ?_
    · simp [transitionedAttempt, hattemptStatus, hattemptInactive]
    · simp [transitionedJob, hjobStatus, hjobInactive]
    · cases hnext : args.nextAttemptMessage with
      | none => simp [transitionedJob, successorAttempt, hnext]
      | some message =>
        simp [transitionedJob, successorAttempt, hnext, queuedAttempt, hc.jobId]

/-! ### Recovery -/

theorem expiredClaim_eq_some {recoveredAt : String}
    (hclaim : s.expiredClaim j recoveredAt = some (lease, current, job)) :
    s.leasesByJob.get? j = some lease ∧ s.getAttempt lease.attemptId = some current ∧
      s.jobs.get? j = some job ∧ ¬ recoveredAt < lease.leaseExpiresAt ∧
      job.lifecycleStatus.isActive := by
  unfold Store.expiredClaim at hclaim
  split at hclaim
  · rename_i found owner hlease hjob
    split_ifs at hclaim with hguard
    obtain ⟨attempt, hattempt, heq⟩ := Option.map_eq_some_iff.mp hclaim
    obtain ⟨rfl, rest⟩ := mk.inj heq
    cases rest
    simp only [not_or, Bool.not_eq_false] at hguard
    exact ⟨hlease, hattempt, hjob, hguard.1, hguard.2⟩
  · cases hclaim

/-- The record of a job that is queued again. -/
def JobRecord.requeued (job : JobRecord) (message : String) : JobRecord :=
  { job with
    lifecycleStatus := .queued
    latestMessage := message
    attemptCount := job.attemptCount + 1 }

/-- A recovery finds nothing, or abandons the current attempt and queues the next one. -/
theorem touches_recover (h : Coherent s) {args : RecoveryArgs}
    {answer : Except String (Option RecoveryTransition)}
    (hperformed : s.recoverExpiredClaim args = (answer, s')) :
    (s' = s ∧ ∀ recovery, answer ≠ .ok (some recovery)) ∨
    ∃ job attempt abandoned, answer = .ok (some ⟨job.requeued args.nextAttemptMessage, abandoned,
        queuedAttempt args.jobId (job.attemptCount + 1) args.nextAttemptMessage⟩) ∧
      s.jobs.get? args.jobId = some job ∧ job.lifecycleStatus.isActive ∧
      attempt ∈ s.attemptsOf args.jobId ∧ attempt.attemptNumber = job.attemptCount ∧
      (abandoned.jobId = attempt.jobId ∧ abandoned.attemptId = attempt.attemptId ∧
        abandoned.attemptNumber = attempt.attemptNumber) ∧
      abandoned.lifecycleStatus = .abandoned ∧
      Touches s s' args.jobId (job.requeued args.nextAttemptMessage) (withNext abandoned
        (some (queuedAttempt args.jobId (job.attemptCount + 1) args.nextAttemptMessage))
        (s.attemptsOf args.jobId)) none := by
  obtain ⟨jobId, recoveredAt?, message, clock?⟩ := args
  unfold Store.recoverExpiredClaim at hperformed
  split at hperformed
  · cases hperformed
    exact .inl ⟨rfl, by simp⟩
  split at hperformed
  · cases hperformed
    exact .inl ⟨rfl, by simp⟩
  rename_i lease attempt job hclaim
  cases hperformed
  obtain ⟨hlease, hget, hjob, -, hactive⟩ := expiredClaim_eq_some hclaim
  obtain ⟨hmem, hnum⟩ := h.leasedAttempt hlease hjob hget
  have hc := h.present _ job hjob
  have haj := (hc.attempt attempt hmem).1
  obtain rfl : job.jobId = jobId := hc.jobId
  refine .inr ⟨job, attempt, _, rfl, hjob, hactive, hmem, hnum, ⟨rfl, rfl, rfl⟩, rfl,
    Rewrites.touches (.deleteLease h.inverse rfl rfl (fun k => ?_) hlease) fun k => ?_⟩
  · simp [JobRecord.requeued, queuedAttempt]
  · by_cases hk : k = job.jobId <;> simp [withNext, queuedAttempt, haj, hk]

theorem Coherent.recoverExpiredClaim (h : Coherent s) (args : RecoveryArgs) :
    Coherent (s.recoverExpiredClaim args).2 := by
  rcases hperformed : s.recoverExpiredClaim args with ⟨answer, s'⟩
  rcases touches_recover h hperformed with ⟨rfl, -⟩ |
    ⟨job, attempt, abandoned, -, hjob, -, hmem, hnum, hsame, hstatus, ht⟩
  · exact h
  · have hc := h.present _ job hjob
    exact h.of_touches ht (hc.endClaim hmem hnum abandoned hsame (by rw [hstatus]; rfl)
      (job.requeued args.nextAttemptMessage) hc.jobId rfl (some _) ⟨rfl, _, rfl⟩)

end LotusAI.AsyncRuntime
