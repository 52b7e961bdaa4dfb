import LotusAI.AsyncRuntime.Control
import LotusAI.AsyncRuntime.Worker
import LotusAI.Lifecycle.Runs

/-!
# Retention and the leases of workers

A worker holds a lease on its job and extends it with every heartbeat; the instant of the claim
stays on the lease as it was. The lifecycle engine judges a lease by that instant. A job that is
worked on for longer than the retention of leases loses its lease while it is CLAIMED or RUNNING,
and no operation of the runtime takes it out of there again.
-/

namespace LotusAI.Lifecycle

open Lib AsyncRuntime Table Environment

/-- A job holds a lease exactly when it is CLAIMED or RUNNING. -/
def LeasedIffActive (c : RuntimeContent) : Prop :=
  ∀ job ∈ c.jobs, (∃ lease ∈ c.leases, lease.jobId = job.jobId) ↔ job.lifecycleStatus.isActive

/-! ### An active job without a lease -/

/-- The job is stored, and nobody holds a lease on it. -/
structure Unleased (job : JobRecord) (s : Store) : Prop where
  stored : s.jobs.get? job.jobId = some job
  unleased : s.leasesByJob.get? job.jobId = none
  keyed : ∀ jobId other, s.jobs.get? jobId = some other → other.jobId = jobId

/-- Whatever recovery and an operator do, the job stays as it is. -/
structure CannotBeFreed (extendLease : String → ℕ → String) (job : JobRecord) (s : Store) :
    Prop where
  recovery : ∀ now, (machine extendLease).wp () (recoverExpiredAsyncJobs now).run
    (fun _ s' => Unleased job s') s
  operator : ∀ reason, (machine extendLease).wp () (abandonActiveJob job reason).run
    (fun answer s' => (∃ detail, answer = .error (conflict detail)) ∧ s' = s) s

variable {extendLease : String → ℕ → String} {job : JobRecord} {s : Store} (now : Option String)
  {claimedAt : String}

theorem leasesByJob_deleteLease_of_none {jobId : String} (leaseId : String)
    (h : s.leasesByJob.get? jobId = none) :
    (s.deleteLease leaseId).2.leasesByJob.get? jobId = none := by
  unfold Store.deleteLease
  split
  · exact h
  · simp [Dict.get?_erase, h]

/-- Recovery of another job does not touch this one; of this one, it finds no lease. -/
theorem Unleased.recoverExpiredClaim (h : Unleased job s) (args : Store.RecoveryArgs) :
    Unleased job (s.recoverExpiredClaim args).2 := by
  unfold Store.recoverExpiredClaim
  cases args.nowFactory.or args.recoveredAt with
  | none => exact h
  | some recoveredAt =>
    dsimp only
    cases hclaim : s.expiredClaim args.jobId recoveredAt with
    | none => exact h
    | some claim =>
      obtain ⟨lease, attempt, found⟩ := claim
      unfold Store.expiredClaim at hclaim
      split at hclaim
      · rename_i held stored hheld hstored
        split_ifs at hclaim
        obtain ⟨_, _, heq⟩ := Option.map_eq_some_iff.mp hclaim
        cases heq
        have hfound := h.keyed _ _ hstored
        -- the recovered job is leased, so it is another one
        have hother : job.jobId ≠ args.jobId := by
          intro hsame
          rw [← hsame, h.unleased] at hheld
          cases hheld
        refine ⟨?_, ?_, ?_⟩
        · simp [Store.jobs_deleteLease, hfound, hother, h.stored]
        · exact leasesByJob_deleteLease_of_none _ h.unleased
        · intro jobId other hget
          simp only [Store.jobs_deleteLease, Store.get?_jobs_saveJob] at hget
          split_ifs at hget with hjob
          · cases hget
            exact hjob.symm
          · exact h.keyed jobId other hget
      · cases hclaim

/-- The calls that recovery makes. -/
def RecoveryCall : Call → Prop
  | .listJobs | .getActiveLease _ | .recoverExpiredClaim _ | .neighbour _ => True
  | _ => False

theorem Unleased.exec {call : Call} {choice : Choice} {answer : call.Answer} {s' : Store}
    (hcall : RecoveryCall call) (h : Unleased job s)
    (hexec : (machine extendLease).exec () s call choice = some (answer, s')) :
    Unleased job s' := by
  have heffect := Call.effect_of_exec hexec
  cases call with
  | recoverExpiredClaim args =>
    obtain ⟨now, rfl⟩ := heffect
    exact h.recoverExpiredClaim _
  | listJobs | getActiveLease jobId | neighbour request => exact heffect ▸ h
  | _ => exact hcall.elim

theorem callsOnly_askNeighbour_recovery (request : Neighbour) :
    (askNeighbour request).run.CallsOnly RecoveryCall := by
  refine Prog.CallsOnly.bindRaising ⟨trivial, fun _ => trivial⟩ fun result => ?_
  cases result <;> exact trivial

theorem callsOnly_recoverExpiredAsyncJob (job : JobRecord) :
    (recoverExpiredAsyncJob now job).run.CallsOnly RecoveryCall := by
  unfold recoverExpiredAsyncJob
  split_ifs
  · trivial
  rw [Prog.run_ask_bind]
  refine ⟨trivial, fun lease => ?_⟩
  cases lease with
  | none => trivial
  | some lease =>
    dsimp only
    refine ⟨trivial, fun answer => ?_⟩
    match answer with
    | .error detail | .ok none => trivial
    | .ok (some recovered) =>
      refine Prog.CallsOnly.bindRaising (callsOnly_askNeighbour_recovery _) fun _ => ?_
      cases job.relatedEvaluationRunId with
      | none => trivial
      | some runId =>
        refine Prog.CallsOnly.bindRaising (callsOnly_askNeighbour_recovery _) fun _ => ?_
        exact Prog.CallsOnly.bindRaising (callsOnly_askNeighbour_recovery _) fun _ => trivial

theorem callsOnly_recoverExpiredAsyncJobs :
    (recoverExpiredAsyncJobs now).run.CallsOnly RecoveryCall := by
  have heach : ∀ jobs, (recoverEach now jobs).run.CallsOnly RecoveryCall := by
    intro jobs
    induction jobs with
    | nil => trivial
    | cons job rest ih =>
      refine Prog.CallsOnly.bindRaising (callsOnly_recoverExpiredAsyncJob now job) fun _ => ?_
      exact Prog.CallsOnly.bindRaising ih fun _ => trivial
  exact ⟨trivial, heach⟩

/-- An active job without a lease stays as it is. -/
theorem cannotBeFreed_of_unleased (h : Unleased job s) (hactive : job.lifecycleStatus.isActive) :
    CannotBeFreed extendLease job s := by
  constructor
  · intro now
    exact Machine.wp_of_callsOnly (fun _ _ _ _ _ hcall hs hexec => hs.exec hcall hexec)
      (callsOnly_recoverExpiredAsyncJobs now) h
  · intro reason
    unfold abandonActiveJob
    rw [if_neg (by simp [hactive]), Prog.run_ask_bind, wp_getActiveLease, Store.getActiveLease,
      h.unleased]
    exact ⟨⟨_, rfl⟩, rfl⟩

/-! ### What a run does to jobs and leases -/

section Runs

variable (env : Environment) (run : Run) (policy : RetentionPolicy) (s : DataStores)
  (policyVersion : String) (family : RetentionFamily)

theorem asyncRuntime_runFamily :
    (env.runFamily policyVersion run family s).2.asyncRuntime =
      match family.schedule? with
      | some (h, period) =>
        (env.expire (family.horizon period run.now s) h s).stores.asyncRuntime
      | none => s.asyncRuntime :=
  env.view_runFamily policyVersion run (fun _ _ => rfl) family s

/-- The jobs are swept, if their family is enforced. -/
theorem jobs_run :
    (env.runDataLifecycle run policy s).2.asyncRuntime.jobs =
      match horizon? run policy s .asyncRuntimeContent with
      | some horizon => s.asyncRuntime.jobs.sweep Scan.all (jobIsDue env.iso horizon)
      | none => s.asyncRuntime.jobs := by
  refine env.view_run run policy s (π := fun s => s.asyncRuntime.jobs) .asyncRuntimeContent
    (fun horizon s => s.asyncRuntime.jobs.sweep Scan.all (jobIsDue env.iso horizon))
    (fun _ _ => rfl) ?_ ?_ ?_
  · intro horizon s
    simp only [env.jobs_expire, if_true]
  · intro horizon handler s hne
    simp only [env.jobs_expire, hne, if_false]
  · intro horizon s s' hjobs
    rw [hjobs]

variable {lease : LeaseRecord}

/-- A run adds no lease. -/
theorem leases_runFamily_subset
    (h : lease ∈ (env.runFamily policyVersion run family s).2.asyncRuntime.leases) :
    lease ∈ s.asyncRuntime.leases := by
  rw [asyncRuntime_runFamily] at h
  cases hschedule : family.schedule? with
  | none => simpa [hschedule] using h
  | some found =>
    simp only [hschedule, env.leases_expire] at h
    split at h
    · exact (mem_delete.mp h).1
    · exact (mem_sweep.mp h).1
    · exact h

theorem leases_run_subset (h : lease ∈ (env.runDataLifecycle run policy s).2.asyncRuntime.leases) :
    lease ∈ s.asyncRuntime.leases :=
  env.runFamilies_preserves policy.policyVersion run policy.families
    (I := fun s' => lease ∈ s'.asyncRuntime.leases → lease ∈ s.asyncRuntime.leases)
    (fun family _ s' hback hleft => hback (leases_runFamily_subset env run s' _ family hleft)) id h

theorem jobs_run_subset
    (h : job ∈ (env.runDataLifecycle run policy s).2.asyncRuntime.jobs) :
    job ∈ s.asyncRuntime.jobs := by
  rw [jobs_run] at h
  cases hhorizon : horizon? run policy s .asyncRuntimeContent with
  | none => simpa [hhorizon] using h
  | some horizon =>
    simp only [hhorizon] at h
    exact (mem_sweep.mp h).1

/-- No lease of a job that is worked on is older than the retention of leases. -/
def NoOldClaim : Prop :=
  ∀ horizon, Environment.horizon? run policy s .transientOperationalLeases = some horizon →
    ∀ job ∈ s.asyncRuntime.jobs, job.lifecycleStatus.isActive →
      ∀ lease ∈ s.asyncRuntime.leases, lease.jobId = job.jobId →
        env.iso.readsBefore lease.claimedAt horizon.cutoff = false

variable {env run policy s} {horizon : Horizon}

/-- A job that is worked on is not expired. -/
theorem jobIsDue_of_isActive {iso : IsoFormat}
    (hactive : job.lifecycleStatus.isActive) : jobIsDue iso horizon job = false := by
  rcases LifecycleStatus.isActive_iff.mp hactive with hstatus | hstatus <;>
    simp [jobIsDue, hstatus]

/-- A job that is worked on is left. -/
theorem mem_jobs_run (hactive : job.lifecycleStatus.isActive) :
    job ∈ (env.runDataLifecycle run policy s).2.asyncRuntime.jobs ↔ job ∈ s.asyncRuntime.jobs := by
  rw [jobs_run]
  cases horizon? run policy s .asyncRuntimeContent with
  | none => rfl
  | some horizon => simp [mem_sweep, jobIsDue_of_isActive hactive]

/-- A lease of a job that is worked on stays through a run that does not find it old. -/
theorem mem_leases_run_of_young (hjob : job ∈ s.asyncRuntime.jobs)
    (hactive : job.lifecycleStatus.isActive) (hlease : lease ∈ s.asyncRuntime.leases)
    (hheld : lease.jobId = job.jobId)
    (hyoung : ∀ horizon,
      horizon? run policy s .transientOperationalLeases = some horizon →
        leaseIsDue env.iso horizon lease = false) :
    lease ∈ (env.runDataLifecycle run policy s).2.asyncRuntime.leases := by
  -- the job stays as well, so that its lease does not go with it
  have hstays := env.runFamilies_preserves policy.policyVersion run policy.families
    (I := fun s' => s'.legalHolds = s.legalHolds ∧ job ∈ s'.asyncRuntime.jobs ∧
      lease ∈ s'.asyncRuntime.leases) ?_ ⟨rfl, hjob, hlease⟩
  · exact hstays.2.2
  rintro family hfamily s' ⟨hholds, hjob', hlease'⟩
  refine ⟨(env.legalHolds_runFamily ..).trans hholds, ?_⟩
  rw [asyncRuntime_runFamily]
  cases hschedule : family.schedule? with
  | none => exact ⟨hjob', hlease'⟩
  | some found =>
    obtain ⟨h, period⟩ := found
    simp only [env.jobs_expire, env.leases_expire]
    constructor
    · split_ifs
      · exact mem_sweep.mpr ⟨hjob', fun _ => jobIsDue_of_isActive hactive⟩
      · exact hjob'
    · split
      · refine mem_delete.mpr ⟨hlease', fun hdue => ?_⟩
        obtain ⟨other, hother, hsame⟩ := List.mem_map.mp hdue
        obtain rfl := eq_of_key_eq (mem_of_mem_due hother) hjob' (hsame.trans hheld)
        have hdue := (mem_due.mp hother).2
        rw [jobIsDue_of_isActive hactive] at hdue
        cases hdue
      · have hhorizon := horizon?_of_schedule? run s hfamily hschedule
        rw [family.horizon_congr period run.now hholds]
        exact mem_sweep.mpr ⟨hlease', fun _ => hyoung _ hhorizon⟩
      · exact hlease'

/-- An old lease does not survive the turn of its family. -/
theorem not_mem_leases_run_of_old
    (hhorizon : horizon? run policy s .transientOperationalLeases = some horizon)
    (hold : leaseIsDue env.iso horizon lease) :
    lease ∉ (env.runDataLifecycle run policy s).2.asyncRuntime.leases := by
  obtain ⟨⟨family, period⟩, hscheduled, rfl⟩ := Option.map_eq_some_iff.mp hhorizon
  obtain ⟨hfamily, hschedule⟩ := schedule?_of_scheduled? hscheduled
  obtain ⟨before, after, hsplit⟩ := List.append_of_mem hfamily
  change lease ∉ (env.runFamilies policy.policyVersion run policy.families s).2.asyncRuntime.leases
  rw [hsplit, env.runFamilies_append]
  refine env.runFamilies_preserves policy.policyVersion run after
    (I := fun s' => lease ∉ s'.asyncRuntime.leases)
    (fun other _ s' hgone hback => hgone (leases_runFamily_subset env run s' _ other hback)) ?_
  have hholds := env.legalHolds_runFamilies policy.policyVersion run before s
  rw [asyncRuntime_runFamily, hschedule]
  simp only [env.leases_expire, family.horizon_congr period run.now hholds]
  exact fun hleft => absurd hold (by simp [not_due_of_mem_sweep_all hleft])

variable (env run policy s)

/-- A run that starts with leases and jobs in step leaves them so exactly when no job is being
worked on under an old claim; a job that loses its lease stays where it is for good. -/
theorem leasedIffActive_run_iff (extendLease : String → ℕ → String)
    (hleased : LeasedIffActive s.asyncRuntime) :
    (LeasedIffActive (env.runDataLifecycle run policy s).2.asyncRuntime ↔
        NoOldClaim env run policy s) ∧
      ∀ job ∈ (env.runDataLifecycle run policy s).2.asyncRuntime.jobs,
        job.lifecycleStatus.isActive →
        (∀ lease ∈ (env.runDataLifecycle run policy s).2.asyncRuntime.leases,
          lease.jobId ≠ job.jobId) →
        CannotBeFreed extendLease job (env.runDataLifecycle run policy s).2.asyncRuntime.store := by
  refine ⟨⟨?_, ?_⟩, ?_⟩
  · intro hafter horizon hhorizon job hjob hactive lease hlease hheld
    by_contra hold
    obtain ⟨left, hleft, hsame⟩ := (hafter job ((mem_jobs_run hactive).mpr hjob)).mpr hactive
    -- the lease that is left can only be the old one
    have hbefore := leases_run_subset env run policy s hleft
    obtain rfl := Table.eq_of_key_eq hbefore hlease (hsame.trans hheld.symm)
    exact not_mem_leases_run_of_old hhorizon (by simpa [leaseIsDue] using hold) hleft
  · intro hyoung job hjob
    constructor
    · rintro ⟨lease, hlease, hheld⟩
      have hbefore := leases_run_subset env run policy s hlease
      exact (hleased job (jobs_run_subset env run policy s hjob)).mp ⟨lease, hbefore, hheld⟩
    · intro hactive
      have hbefore := (mem_jobs_run hactive).mp hjob
      obtain ⟨lease, hlease, hheld⟩ := (hleased job hbefore).mpr hactive
      exact ⟨lease, mem_leases_run_of_young hbefore hactive hlease hheld fun horizon hhorizon =>
        hyoung horizon hhorizon job hbefore hactive lease hlease hheld, hheld⟩
  · intro job hjob hactive hnone
    refine cannotBeFreed_of_unleased ⟨hjob, ?_, RuntimeContent.jobsKeyed _⟩ hactive
    cases hget : (env.runDataLifecycle run policy s).2.asyncRuntime.store.leasesByJob.get?
      job.jobId with
    | none => rfl
    | some lease =>
      have hkey := RuntimeContent.leasesKeyed _ _ _ hget
      exact absurd hkey (hnone lease (by rw [Table.mem_iff, hkey]; exact hget))

end Runs

/-! ### A long job -/

/-- A job that is being worked on. -/
def reindexJob : JobRecord where
  jobId := "job_1"
  jobType := "retrieval_ingestion"
  targetId := none
  lifecycleStatus := .running
  submittedAt := "2015-01-01T00:00:00+00:00"
  callerApp := "lotus-ops"
  correlationId := "corr_1"
  payloadSummary := "full reindex"
  executionPath := "async"
  relatedEvaluationRunId := none
  latestMessage := "Running."
  attemptCount := 1
  artifactIds := []
  tenantId := none

/-- Its lease: the worker's last heartbeat is of today, and the lease runs on. -/
def reindexLease (claimedAt : String) : LeaseRecord where
  leaseId := "lease_1"
  jobId := "job_1"
  attemptId := "attempt_1"
  workerId := "worker_1"
  claimedAt := claimedAt
  heartbeatAt := "2026-01-01T00:00:00+00:00"
  leaseExpiresAt := "2026-01-01T00:05:00+00:00"

/-- A runtime with this job alone. -/
def reindexing (claimedAt : String) : RuntimeContent where
  store := {
    jobs := Dict.empty.insert "job_1" reindexJob
    attempts := .empty
    leasesByJob := Dict.empty.insert "job_1" (reindexLease claimedAt)
    leaseIdToJob := Dict.empty.insert "lease_1" "job_1"
    controlEvents := [] }
  jobsKeyed := Dict.forall_insert rfl fun _ _ h => by cases h
  leasesKeyed := Dict.forall_insert rfl fun _ _ h => by cases h
  inverse := by
    intro leaseId jobId
    simp only [Dict.get?_insert, Dict.get?_empty]
    by_cases hlease : leaseId = "lease_1" <;> by_cases hjob : jobId = "job_1" <;>
      simp [hlease, hjob, reindexLease, eq_comm]

/-- The stores with this runtime. -/
def reindexStores (claimedAt : String) : DataStores :=
  { DataStores.empty with asyncRuntime := reindexing claimedAt }

theorem mem_jobs_reindexing :
    job ∈ (reindexing claimedAt).jobs ↔ job = reindexJob := by
  rw [← mem_list]
  exact List.mem_singleton

theorem mem_leases_reindexing {lease : LeaseRecord} :
    lease ∈ (reindexing claimedAt).leases ↔ lease = reindexLease claimedAt := by
  rw [← mem_list]
  exact List.mem_singleton

theorem leasedIffActive_reindexing (claimedAt : String) :
    LeasedIffActive (reindexing claimedAt) := by
  intro job hjob
  obtain rfl := mem_jobs_reindexing.mp hjob
  simp only [mem_leases_reindexing, exists_eq_left]
  exact ⟨fun _ => rfl, fun _ => rfl⟩

/-- A claim of today outlasts the run. -/
theorem leasedIffActive_run_young :
    LeasedIffActive (reindexing "2026-01-01T00:00:00+00:00") ∧
      LeasedIffActive (calendar.runDataLifecycle newYearRun retentionPolicy
        (reindexStores "2026-01-01T00:00:00+00:00")).2.asyncRuntime := by
  have hleased := leasedIffActive_reindexing "2026-01-01T00:00:00+00:00"
  refine ⟨hleased, (leasedIffActive_run_iff calendar newYearRun retentionPolicy
    (reindexStores "2026-01-01T00:00:00+00:00") (fun now _ => now) hleased).1.mpr ?_⟩
  intro horizon hhorizon job _ _ lease hlease _
  obtain rfl := mem_leases_reindexing.mp hlease
  cases hhorizon
  decide +kernel

/-- A claim of 2015, kept alive ever since: the run deletes the lease of the running job. -/
theorem long_job_loses_lease :
    LeasedIffActive (reindexing "2015-01-01T00:00:00+00:00") ∧
      ¬ LeasedIffActive (calendar.runDataLifecycle newYearRun retentionPolicy
        (reindexStores "2015-01-01T00:00:00+00:00")).2.asyncRuntime := by
  refine ⟨leasedIffActive_reindexing _, fun hafter => ?_⟩
  have hjob : reindexJob ∈ (reindexStores "2015-01-01T00:00:00+00:00").asyncRuntime.jobs :=
    mem_jobs_reindexing.mpr rfl
  obtain ⟨lease, hlease, -⟩ := (hafter reindexJob ((mem_jobs_run rfl).mpr hjob)).mpr rfl
  obtain rfl := mem_leases_reindexing.mp (leases_run_subset _ _ _ _ hlease)
  refine not_mem_leases_run_of_old rfl ?_ hlease
  decide +kernel

end LotusAI.Lifecycle
