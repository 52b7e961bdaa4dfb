import LotusAI.AsyncRuntime.Methods

/-!
# How a job may evolve

A job moves through the stages of an attempt (queued, owned by a worker, finished)
and then on to the next attempt; it never goes back. Every store method follows this
order. An operator's separate saves do so only where the job is still at the stage at
which it was read.
-/

namespace LotusAI.AsyncRuntime

open Store LifecycleStatus Option

/-! ### Stages -/

/-- Waiting for a worker, owned by one, or finished. -/
def LifecycleStatus.phase : LifecycleStatus → ℕ
  | queued => 0
  | claimed => 1
  | running => 1
  | _ => 2

@[simp] theorem LifecycleStatus.phase_queued : queued.phase = 0 := rfl
@[simp] theorem LifecycleStatus.phase_abandoned : abandoned.phase = 2 := rfl

theorem LifecycleStatus.phase_le (status : LifecycleStatus) : status.phase ≤ 2 := by
  cases status <;> decide

variable {status : LifecycleStatus}

theorem LifecycleStatus.phase_eq_one_iff :
    status.phase = 1 ↔ status.isActive := by
  cases status <;> decide

theorem LifecycleStatus.phase_of_isTerminal (h : status.isTerminal) :
    status.phase = 2 := by
  cases status <;> first | rfl | simp [isTerminal] at h

/-- How far a job has come. -/
def JobRecord.stage (job : JobRecord) : ℕ := 3 * job.attemptCount + job.lifecycleStatus.phase

/-- Equal stages: the same attempt, in the same phase. -/
theorem JobRecord.stage_eq_iff {job job' : JobRecord} :
    job'.stage = job.stage ↔ job'.attemptCount = job.attemptCount ∧
      job'.lifecycleStatus.phase = job.lifecycleStatus.phase := by
  have h := job.lifecycleStatus.phase_le
  have h' := job'.lifecycleStatus.phase_le
  unfold stage
  omega

/-- The record `job'` may follow the record `job` of the same job. -/
structure Later (job job' : JobRecord) : Prop where
  artifacts : ∀ a ∈ job.artifactIds, a ∈ job'.artifactIds
  stage_le : job.stage ≤ job'.stage
  same : job'.stage = job.stage → job'.artifactIds = job.artifactIds
  finished : job'.stage = job.stage → job.lifecycleStatus.phase = 2 → job' = job

theorem Later.refl (job : JobRecord) : Later job job :=
  ⟨fun _ h => h, le_rfl, fun _ => rfl, fun _ _ => rfl⟩

theorem Later.trans {job job' job'' : JobRecord} (h : Later job job') (h' : Later job' job'') :
    Later job job'' where
  artifacts a ha := h'.artifacts a (h.artifacts a ha)
  stage_le := h.stage_le.trans h'.stage_le
  same heq := by
    have hle := h.stage_le
    have hle' := h'.stage_le
    rw [h'.same (by omega), h.same (by omega)]
  finished heq hphase := by
    have hle := h.stage_le
    have hle' := h'.stage_le
    obtain rfl := h.finished (by omega) hphase
    exact h'.finished (by omega) hphase

/-- A record of a later stage that keeps the artifacts. -/
theorem Later.of_stage_lt {job job' : JobRecord} (hstage : job.stage < job'.stage)
    (hartifacts : ∀ a ∈ job.artifactIds, a ∈ job'.artifactIds) : Later job job' :=
  ⟨hartifacts, hstage.le, fun heq => by omega, fun heq => by omega⟩

/-! ### Stores -/

/-- Every job is followed by a later record; while it stays at its stage it gets no other
lease. -/
structure Evolves (s s' : Store) : Prop where
  jobs : ∀ j job, s.jobs.get? j = some job → ∃ job', s'.jobs.get? j = some job' ∧ Later job job'
  leases : ∀ j job job', s.jobs.get? j = some job → s'.jobs.get? j = some job' →
    job'.stage = job.stage → ∀ lease', s'.leasesByJob.get? j = some lease' →
      ∃ lease, s.leasesByJob.get? j = some lease ∧ lease.leaseId = lease'.leaseId

variable {s s' s'' : Store} {j : String} {job job' : JobRecord} {lease? : Option LeaseRecord}

theorem Evolves.refl (s : Store) : Evolves s s where
  jobs _ job hjob := ⟨job, hjob, .refl job⟩
  leases _ _ _ _ _ _ lease' hlease := ⟨lease', hlease, rfl⟩

theorem Evolves.trans (h : Evolves s s') (h' : Evolves s' s'') : Evolves s s'' where
  jobs j job hjob := by
    obtain ⟨job', hjob', hlater⟩ := h.jobs j job hjob
    obtain ⟨job'', hjob'', hlater'⟩ := h'.jobs j job' hjob'
    exact ⟨job'', hjob'', hlater.trans hlater'⟩
  leases j job job'' hjob hjob'' hstage lease'' hlease'' := by
    obtain ⟨job', hjob', hlater⟩ := h.jobs j job hjob
    obtain ⟨found, hfound, hlater'⟩ := h'.jobs j job' hjob'
    obtain rfl := mem_unique hjob'' hfound
    -- the stage in between is squeezed
    have hle := hlater.stage_le
    have hle' := hlater'.stage_le
    obtain ⟨lease', hlease', hid'⟩ := h'.leases j job' job'' hjob' hjob'' (by omega) lease'' hlease''
    obtain ⟨lease, hlease, hid⟩ := h.leases j job job' hjob hjob' (by omega) lease' hlease'
    exact ⟨lease, hlease, hid.trans hid'⟩

/-- A store that differs in attempts and control events only. -/
theorem Evolves.of_eq (hjobs : s'.jobs = s.jobs) (hleases : s'.leasesByJob = s.leasesByJob) :
    Evolves s s' where
  jobs _ job hjob := ⟨job, by rw [hjobs, hjob], .refl job⟩
  leases _ _ _ _ _ _ lease' hlease := ⟨lease', by rw [← hleases, hlease], rfl⟩

section

variable (h : Fenced s)

include h

theorem Fenced.of_eq (hjobs : s'.jobs = s.jobs)
    (hleases : s'.leasesByJob = s.leasesByJob) (hids : s'.leaseIdToJob = s.leaseIdToJob) :
    Fenced s' where
  jobId := by rw [hjobs]; exact h.jobId
  lease := by rw [hleases]; exact h.lease
  active := by rw [hjobs, hleases]; exact h.active
  inverse := by
    intro leaseId j
    rw [hids, hleases]
    exact h.inverse leaseId j

/-! ### Rewriting one job and its lease -/

theorem Fenced.rewrite (hrewrites : Rewrites s s' j job' lease?)
    (hid : job'.jobId = j)
    (hlease : ∀ lease, lease? = some lease → lease.jobId = j ∧
      (∃ n, lease.leaseId = leaseIdOf j n) ∧ job'.lifecycleStatus.isActive) : Fenced s' where
  jobId k job hjob := by
    rw [hrewrites.jobs] at hjob
    split_ifs at hjob with hk
    · rw [← some.inj hjob, hid, hk]
    · exact h.jobId k job hjob
  lease k lease hget := by
    rw [hrewrites.leases] at hget
    split_ifs at hget with hk
    · subst hk
      obtain ⟨hj, hcanon, -⟩ := hlease lease hget
      exact ⟨hj, hcanon⟩
    · exact h.lease k lease hget
  active k lease hget := by
    rw [hrewrites.leases] at hget
    rw [hrewrites.jobs]
    split_ifs at hget ⊢ with hk
    · exact ⟨job', rfl, (hlease lease hget).2.2⟩
    · exact h.active k lease hget
  inverse := hrewrites.inverse

omit h in
theorem Evolves.rewrite (hrewrites : Rewrites s s' j job' lease?)
    (hjob : s.jobs.get? j = some job) (hlater : Later job job')
    (hlease : job'.stage = job.stage → ∀ lease', lease? = some lease' →
      ∃ lease, s.leasesByJob.get? j = some lease ∧ lease.leaseId = lease'.leaseId) :
    Evolves s s' where
  jobs k found hfound := by
    rw [hrewrites.jobs]
    split_ifs with hk
    · subst hk
      obtain rfl := mem_unique hjob hfound
      exact ⟨job', rfl, hlater⟩
    · exact ⟨found, hfound, .refl found⟩
  leases k found found' hfound hfound' hstage lease' hget := by
    rw [hrewrites.jobs] at hfound'
    rw [hrewrites.leases] at hget
    split_ifs at hfound' hget with hk
    · subst hk
      obtain rfl := mem_unique hjob hfound
      cases hfound'
      exact hlease hstage lease' hget
    · exact ⟨lease', hget, rfl⟩

/-- Saving a job that holds no lease. -/
theorem rewrites_saveJob (hid : job'.jobId = j)
    (hfree : s.leasesByJob.get? j = none) : Rewrites s (s.saveJob job') j job' none where
  jobs k := by simp [hid]
  leases k := by
    by_cases hk : k = j
    · rw [if_pos hk, hk]
      exact hfree
    · rw [if_neg hk]
      rfl
  inverse := h.inverse

/-! ### The store methods -/

/-- A step of the store that moves jobs on, keeps the leases fenced, and leaves the job
records it answers with in the store. -/
structure Advances (s s' : Store) (answered : List JobRecord) : Prop where
  fenced : Fenced s'
  evolves : Evolves s s'
  stored : ∀ job ∈ answered, s'.jobs.get? job.jobId = some job

theorem Advances.refl : Advances s s [] :=
  ⟨h, .refl s, nofun⟩

/-- One job moves on, with the lease it has then. -/
theorem Fenced.advance (hrewrites : Rewrites s s' j job' lease?)
    (hjob : s.jobs.get? j = some job) (hid : job'.jobId = j) (hlater : Later job job')
    (hlease : ∀ lease, lease? = some lease → lease.jobId = j ∧
      (∃ n, lease.leaseId = leaseIdOf j n) ∧ job'.lifecycleStatus.isActive)
    (hheld : job'.stage = job.stage → ∀ lease', lease? = some lease' →
      ∃ lease, s.leasesByJob.get? j = some lease ∧ lease.leaseId = lease'.leaseId) :
    Advances s s' [job'] := by
  refine ⟨h.rewrite hrewrites hid hlease, .rewrite hrewrites hjob hlater hheld, ?_⟩
  intro committed hmem
  rw [List.mem_singleton.mp hmem, hid, hrewrites.jobs, if_pos rfl]

variable {current : AttemptRecord} {lease : LeaseRecord}

theorem Fenced.recordClaim (hrun : s.runnable j = some (job, current))
    (args : ClaimArgs) :
    Advances s (s.recordClaim (claimRecord args job current))
      [(claimRecord args job current).job] := by
  obtain ⟨hjob, hstatus, -, -⟩ := runnable_eq_some hrun
  have hid := h.jobId j job hjob
  -- from queued to claimed
  have hstage : job.stage < (claimRecord args job current).job.stage := by
    simp [JobRecord.stage, claimRecord, hstatus, phase]
  refine h.advance (rewrites_claim h hrun args) hjob hid (.of_stage_lt hstage fun _ ha => ha) ?_
    fun hsame => absurd hsame hstage.ne'
  rintro lease ⟨⟩
  exact ⟨hid, ⟨_, congrArg (leaseIdOf · _) hid⟩, rfl⟩

theorem Fenced.claimRunnableJobById (jobId : String) (args : ClaimArgs) :
    Advances s (s.claimRunnableJobById jobId args).2
      ((s.claimRunnableJobById jobId args).1.toList.map ClaimRecord.job) := by
  unfold Store.claimRunnableJobById
  split
  · exact .refl h
  · rename_i hrun
    exact h.recordClaim hrun args

theorem Fenced.claimNextRunnableJob (jobTypes : Option (List String))
    (args : ClaimArgs) :
    Advances s (s.claimNextRunnableJob jobTypes args).2
      ((s.claimNextRunnableJob jobTypes args).1.toList.map ClaimRecord.job) := by
  unfold Store.claimNextRunnableJob
  split
  · exact .refl h
  · exact h.claimRunnableJobById _ args

omit h in
/-- The job stays owned, or is finished or queued again under the next attempt. -/
theorem later_transitionedJob {args : TransitionArgs} (hargs : args.Renews ∨ args.Ends)
    (hactive : job.lifecycleStatus.isActive) : Later job (transitionedJob args job) := by
  have hphase := phase_eq_one_iff.mpr hactive
  rcases hargs with hrenew | hend
  · have hphase' := phase_eq_one_iff.mpr (hrenew.isActive_transitionedJob hactive)
    have hcount : (transitionedJob args job).attemptCount = job.attemptCount := by
      simp [transitionedJob, successorAttempt, hrenew.successor]
    have hartifacts : (transitionedJob args job).artifactIds = job.artifactIds := by
      simp [transitionedJob, hrenew.artifact]
    refine ⟨fun a ha => hartifacts ▸ ha, ?_, fun _ => hartifacts, fun _ hfinished => ?_⟩
    · exact (JobRecord.stage_eq_iff.mpr ⟨hcount, hphase'.trans hphase.symm⟩).ge
    · omega
  · obtain ⟨status, hstatus, -, houtcome⟩ := hend.job
    refine .of_stage_lt ?_ fun a ha => ?_
    · cases hnext : args.nextAttemptMessage with
      | none =>
        have hphase' : status.phase = 2 := phase_of_isTerminal (by simpa [hnext] using houtcome)
        simp only [JobRecord.stage, transitionedJob, successorAttempt, hnext, hstatus,
          map_none, getD_some]
        omega
      | some message =>
        simp only [JobRecord.stage, transitionedJob, successorAttempt, hnext, map_some,
          queuedAttempt]
        omega
    · cases hartifact : args.terminalArtifact with
      | none => simpa [transitionedJob, hartifact] using ha
      | some artifact => simp [transitionedJob, hartifact, ha]

def transitionedJobs : Except String (Option ClaimTransition) → List JobRecord
  | .ok (some transition) => [transition.job]
  | _ => []

theorem Fenced.transitionCurrentClaim (extendLease : String → ℕ → String)
    {args : TransitionArgs} (hargs : args.Renews ∨ args.Ends) :
    Advances s (s.transitionCurrentClaim extendLease args).2
      (transitionedJobs (s.transitionCurrentClaim extendLease args).1) := by
  unfold Store.transitionCurrentClaim
  split
  · exact .refl h
  rename_i now _
  split
  · exact .refl h
  rename_i lease current job hclaim
  obtain ⟨hlease, -, hjob, -, -, -, hactive⟩ := currentClaim_eq_some hclaim
  refine h.advance (rewrites_transition h extendLease hclaim) hjob (h.jobId _ job hjob)
    (later_transitionedJob hargs hactive) (fun renewed hrenewed => ?_) fun _ renewed hrenewed => ?_
  · obtain ⟨howner, n, hcanon⟩ := h.lease _ lease hlease
    rcases hargs with hrenew | hend
    · obtain ⟨expiry, rfl⟩ := transitionedLease_eq_some hrenewed
      exact ⟨howner, ⟨n, hcanon⟩, hrenew.isActive_transitionedJob hactive⟩
    · simp [transitionedLease, hend.lease] at hrenewed
  · obtain ⟨expiry, rfl⟩ := transitionedLease_eq_some hrenewed
    exact ⟨lease, hlease, rfl⟩

theorem Fenced.recoverExpiredClaim (args : RecoveryArgs) :
    ∃ answered, Advances s (s.recoverExpiredClaim args).2 answered := by
  unfold Store.recoverExpiredClaim
  split
  · exact ⟨[], .refl h⟩
  rename_i recoveredAt _
  split
  · exact ⟨[], .refl h⟩
  rename_i lease current job hclaim
  obtain ⟨hlease, -, hjob, -, hactive⟩ := expiredClaim_eq_some hclaim
  have hid := h.jobId _ job hjob
  have hphase := phase_eq_one_iff.mpr hactive
  refine ⟨[job.requeued args.nextAttemptMessage], h.advance
    (.deleteLease h.inverse rfl rfl ?_ hlease) hjob hid (.of_stage_lt ?_ fun _ ha => ha) nofun
    nofun⟩
  · intro k
    simp [JobRecord.requeued, hid, queuedAttempt]
  · simp only [JobRecord.stage, JobRecord.requeued]
    omega

end

end LotusAI.AsyncRuntime
