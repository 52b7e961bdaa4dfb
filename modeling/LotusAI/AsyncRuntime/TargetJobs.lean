import LotusAI.AsyncRuntime.Runs

/-!
# One active job per target

A retrieval job is submitted for a target: an index job or an ingestion job of the
retrieval catalogue. `submit_async_job` looks through the stored jobs and turns the
caller away while an unfinished job of the same type, caller and target is there. The
look and the save that follows it are two calls. An operator who queues a finished job
again does not look at all. The sessions are interleaved call by call over one store.
-/

namespace LotusAI.AsyncRuntime

open Lib Store

/-! ### Submission -/

/-- The job types that run against a target of the retrieval catalogue. -/
inductive TargetJobType
  | retrievalIndexing
  | documentIngestion
  deriving DecidableEq

namespace TargetJobType

/-- The stored text of a job type. -/
def value : TargetJobType → String
  | retrievalIndexing => "retrieval_indexing"
  | documentIngestion => "document_ingestion"

/-- The refusal of a submission without a target. -/
def missingTarget : TargetJobType → String
  | retrievalIndexing =>
    "Async retrieval_indexing submission requires a concrete retrieval index job target_id."
  | documentIngestion =>
    "Async document_ingestion submission requires a concrete retrieval ingestion job target_id."

end TargetJobType

/-- `AsyncJobSubmissionRequest` of one of these types. -/
structure SubmissionRequest where
  jobType : TargetJobType
  targetId : Option String
  callerApp : String
  correlationId : String
  payloadSummary : String
  tenantId : Option String
  deriving DecidableEq

/-- `AsyncJobSubmissionResponse`, as far as it depends on the store. -/
inductive SubmissionResponse
  | accepted (jobId : String) (deliveryPublished : Bool)
  | duplicateRejected (existingJobId : String)
  deriving DecidableEq

variable (request : SubmissionRequest) (lookup : TargetJobType → String → Except Raised Unit)

/-- `_validate_async_job_target`. `lookup` is what the retrieval catalogue answers. -/
def validateAsyncJobTarget : Service Unit :=
  match request.targetId with
  | none => throw (conflict request.jobType.missingTarget)
  | some targetId =>
    -- an empty text is falsy
    if targetId = "" then throw (conflict request.jobType.missingTarget)
    else orRaise (lookup request.jobType targetId)

/-- `_find_active_duplicate_submission`, over the jobs as the store lists them. -/
def findActiveDuplicateSubmission (request : SubmissionRequest) (jobs : List JobRecord) :
    Option JobRecord :=
  jobs.reverse.find? fun record =>
    record.jobType = request.jobType.value ∧ record.targetId = request.targetId ∧
      record.callerApp = request.callerApp ∧ record.lifecycleStatus.isLive

/-- What an accepted request stores. -/
def SubmissionRequest.submission (request : SubmissionRequest) (submittedAt hex : String) :
    Submission where
  jobId := "asyncjob_" ++ request.jobType.value ++ "_" ++ String.ofList (hex.toList.take 12)
  jobType := request.jobType.value
  targetId := request.targetId
  submittedAt := submittedAt
  callerApp := request.callerApp
  correlationId := request.correlationId
  payloadSummary := request.payloadSummary
  executionPath := "durable_runtime_worker_execution"
  relatedEvaluationRunId := none
  latestMessage := "Job accepted into durable async runtime state."
  artifactIds := []
  tenantId := request.tenantId
  attemptMessage := "Initial durable async submission recorded."

/-- `submit_async_job`, from the check of the target on. -/
def submitTargetJob : Service SubmissionResponse := do
  validateAsyncJobTarget request lookup
  let jobs : List JobRecord ← ask .listJobs
  match findActiveDuplicateSubmission request jobs with
  | some duplicate => return .duplicateRejected duplicate.jobId
  | none =>
    let submittedAt ← ask .utcnow
    let hex ← ask .uuid4
    let submission := request.submission submittedAt hex
    let deliveryPublished ← submitAsyncJob submission
    return .accepted submission.jobId deliveryPublished

/-! ### Sessions -/

/-- Operations that run beside the submissions: the reports of workers, and the actions by
which an operator queues a finished job again. -/
def Operation.RunsBeside : Operation → Prop
  | submit _ => False
  | control request => request.actionType = .retryFailedJob ∨
      request.actionType = .replayTerminalJob ∨ request.actionType = .requeueAbandonedJob
  | _ => True

/-- What one session runs. -/
inductive TargetSession
  | submit (request : SubmissionRequest) (lookup : TargetJobType → String → Except Raised Unit)
  | recoverExpired (now : Option String)
  | operate (op : Operation) (beside : op.RunsBeside)

/-- The program of a session, its answer left out. -/
def TargetSession.program : TargetSession → Service Unit
  | submit request lookup => do let _ ← submitTargetJob request lookup
  | recoverExpired now => do let _ ← recoverExpiredAsyncJobs now
  | operate op _ => op.program

/-- The store shared by the sessions `ι`. -/
def pooledMachine (ι : Type) (extendLease : String → ℕ → String) :
    Machine Call.Answer ι Store Choice where
  exec _ s call choice := call.exec extendLease s choice

/-- Sessions over a store, none of which has started. -/
def targetPool {ι : Type} (s : Store) (sessions : ι → TargetSession) :
    Machine.Config Call.Answer ι Store (Except Raised Unit) where
  store := s
  threads i := (sessions i).program.run

/-! ### The property -/

/-- Two records are for one target. -/
def JobRecord.SameTarget (job job' : JobRecord) : Prop :=
  job.jobType = job'.jobType ∧ job.callerApp = job'.callerApp ∧ job.targetId = job'.targetId

instance (job job' : JobRecord) : Decidable (job.SameTarget job') :=
  inferInstanceAs (Decidable (_ ∧ _ ∧ _))

variable {job job' record : JobRecord} {j : String}

theorem JobRecord.SameTarget.symm (h : job.SameTarget job') : job'.SameTarget job :=
  ⟨h.1.symm, h.2.1.symm, h.2.2.symm⟩

theorem JobRecord.SameTarget.trans {job'' : JobRecord} (h : job.SameTarget job')
    (h' : job'.SameTarget job'') : job.SameTarget job'' :=
  ⟨h.1.trans h'.1, h.2.1.trans h'.2.1, h.2.2.trans h'.2.2⟩

/-- No two unfinished jobs share their type, caller and target. -/
def OneActivePerTarget (s : Store) : Prop :=
  ∀ j k job job', s.jobs.get? j = some job → s.jobs.get? k = some job' →
    job.lifecycleStatus.isLive → job'.lifecycleStatus.isLive → job.SameTarget job' → j = k

instance (s : Store) : Decidable (OneActivePerTarget s) :=
  decidable_of_iff (∀ a ∈ s.jobs.entries, ∀ b ∈ s.jobs.entries, a.2.lifecycleStatus.isLive →
      b.2.lifecycleStatus.isLive → a.2.SameTarget b.2 → a.1 = b.1) <| by
    simp only [OneActivePerTarget, Dict.get?_eq_some_iff]
    constructor
    · intro h j k job job' hj hk
      exact h (j, job) hj (k, job') hk
    · intro h a ha b hb
      exact h a.1 b.1 a.2 b.2 ha hb

/-- Jobs are stored under their own ids. -/
def StoredUnderId (s : Store) : Prop := ∀ j job, s.jobs.get? j = some job → job.jobId = j

/-- A job is saved as unfinished only while no other unfinished job has its target. -/
def Call.targetFree (s : Store) : Call → Bool
  | .saveJob record => record.lifecycleStatus.isLive → ∀ entry ∈ s.jobs.entries,
      entry.2.lifecycleStatus.isLive → entry.2.SameTarget record → entry.1 = record.jobId
  | _ => true

variable {s s' : Store}

theorem targetFree_saveJob_iff :
    (Call.saveJob record).targetFree s ↔ (record.lifecycleStatus.isLive →
      ∀ j job, s.jobs.get? j = some job → job.lifecycleStatus.isLive → job.SameTarget record →
        j = record.jobId) := by
  simp only [Call.targetFree, decide_eq_true_eq, Prod.forall, Dict.get?_eq_some_iff]

/-! ### Calls that leave the set of unfinished jobs alone -/

/-- The jobs that differ were unfinished before, and keep their id and target. -/
def RewritesLive (s s' : Store) : Prop :=
  ∀ j, s'.jobs.get? j = s.jobs.get? j ∨ ∃ job job', s.jobs.get? j = some job ∧
    s'.jobs.get? j = some job' ∧ job.lifecycleStatus.isLive ∧ job'.jobId = job.jobId ∧
    job.SameTarget job'

theorem RewritesLive.of_jobs_eq (h : s'.jobs = s.jobs) : RewritesLive s s' :=
  fun j => .inl (by rw [h])

/-- One unfinished job is replaced. -/
theorem RewritesLive.of_replaced (hid : StoredUnderId s) (hjob : s.jobs.get? j = some job)
    (hlive : job.lifecycleStatus.isLive) (job' : JobRecord) (hjobId : job'.jobId = job.jobId)
    (hsame : job.SameTarget job') (hjobs : s'.jobs = (s.saveJob job').jobs) :
    RewritesLive s s' := by
  intro k
  have hj : job'.jobId = j := hjobId.trans (hid j job hjob)
  rw [hjobs, get?_jobs_saveJob, hj]
  by_cases hk : k = j
  · right
    rw [if_pos hk, hk]
    exact ⟨job, job', hjob, rfl, hlive, hjobId, hsame⟩
  · left
    rw [if_neg hk]

theorem RewritesLive.storedUnderId (h : RewritesLive s s') (hid : StoredUnderId s) :
    StoredUnderId s' := by
  intro j job hjob
  obtain heq | ⟨old, new, hold, hnew, -, hjobId, -⟩ := h j
  · exact hid j job (heq ▸ hjob)
  · obtain rfl := Option.mem_unique hjob hnew
    exact hjobId.trans (hid j old hold)

/-- An unfinished job after the rewrite was unfinished before it. -/
theorem RewritesLive.exists_live (h : RewritesLive s s') (hjob' : s'.jobs.get? j = some job')
    (hlive : job'.lifecycleStatus.isLive) :
    ∃ job, s.jobs.get? j = some job ∧ job.lifecycleStatus.isLive ∧ job.SameTarget job' := by
  obtain heq | ⟨old, new, hold, hnew, hlive', -, hsame⟩ := h j
  · exact ⟨job', heq ▸ hjob', hlive, rfl, rfl, rfl⟩
  · obtain rfl := Option.mem_unique hjob' hnew
    exact ⟨old, hold, hlive', hsame⟩

theorem RewritesLive.oneActivePerTarget (h : RewritesLive s s') (hone : OneActivePerTarget s) :
    OneActivePerTarget s' := by
  intro j k job job' hjob hjob' hlive hlive' hsame
  obtain ⟨old, hold, hl, hs⟩ := h.exists_live hjob hlive
  obtain ⟨old', hold', hl', hs'⟩ := h.exists_live hjob' hlive'
  exact hone j k old old' hold hold' hl hl' (hs.trans (hsame.trans hs'.symm))

section

variable (hid : StoredUnderId s)

include hid

theorem rewritesLive_claimRunnableJobById (jobId : String)
    (args : ClaimArgs) : RewritesLive s (s.claimRunnableJobById jobId args).2 := by
  unfold claimRunnableJobById
  split
  · exact .of_jobs_eq rfl
  · rename_i job current hrun
    obtain ⟨hjob, hstatus, -, -⟩ := runnable_eq_some hrun
    have hlive : job.lifecycleStatus.isLive := by
      rw [hstatus]
      rfl
    exact .of_replaced hid hjob hlive (claimRecord args job current).job rfl ⟨rfl, rfl, rfl⟩ rfl

theorem rewritesLive_claimNextRunnableJob
    (jobTypes : Option (List String)) (args : ClaimArgs) :
    RewritesLive s (s.claimNextRunnableJob jobTypes args).2 := by
  unfold claimNextRunnableJob
  split
  · exact .of_jobs_eq rfl
  · exact rewritesLive_claimRunnableJobById hid _ args

theorem rewritesLive_transitionCurrentClaim
    (extendLease : String → ℕ → String) (args : TransitionArgs) :
    RewritesLive s (s.transitionCurrentClaim extendLease args).2 := by
  unfold transitionCurrentClaim
  split
  · exact .of_jobs_eq rfl
  rename_i now _
  split
  · exact .of_jobs_eq rfl
  rename_i lease attempt job hclaim
  obtain ⟨-, -, hjob, -, -, -, hactive⟩ := currentClaim_eq_some hclaim
  refine .of_replaced hid hjob (LifecycleStatus.isLive_of_isActive hactive)
    (transitionedJob args job) rfl ⟨rfl, rfl, rfl⟩ ?_
  -- neither the successor attempt nor the lease touches the jobs
  dsimp only
  split <;> split <;> first | rfl | exact jobs_deleteLease _ _

theorem rewritesLive_recoverExpiredClaim (args : RecoveryArgs) :
    RewritesLive s (s.recoverExpiredClaim args).2 := by
  unfold recoverExpiredClaim
  split
  · exact .of_jobs_eq rfl
  rename_i recoveredAt _
  split
  · exact .of_jobs_eq rfl
  rename_i lease attempt job hclaim
  obtain ⟨-, -, hjob, -, hactive⟩ := expiredClaim_eq_some hclaim
  exact .of_replaced hid hjob (LifecycleStatus.isLive_of_isActive hactive) { job with
    lifecycleStatus := .queued
    latestMessage := args.nextAttemptMessage
    attemptCount := job.attemptCount + 1 } rfl ⟨rfl, rfl, rfl⟩ (jobs_deleteLease _ _)

/-! ### Saving a job -/

omit hid in
/-- Saving a record keeps the property exactly when its target is free. -/
theorem oneActivePerTarget_saveJob_iff (hone : OneActivePerTarget s) :
    OneActivePerTarget (s.saveJob record) ↔ (Call.saveJob record).targetFree s := by
  rw [targetFree_saveJob_iff]
  constructor
  · intro hafter hlive j job hjob hjlive hsame
    by_contra hne
    apply hne
    refine hafter j record.jobId job record ?_ ?_ hjlive hlive hsame
    · rw [get?_jobs_saveJob, if_neg hne, hjob]
    · rw [get?_jobs_saveJob, if_pos rfl]
  · intro hfree j k job job' hjob hjob' hlive hlive' hsame
    rw [get?_jobs_saveJob] at hjob hjob'
    split_ifs at hjob hjob' with hj hk hk
    · rw [hj, hk]
    · cases hjob
      exact hj.trans (hfree hlive k job' hjob' hlive' hsame.symm).symm
    · cases hjob'
      exact (hfree hlive' j job hjob hlive hsame).trans hk.symm
    · exact hone j k job job' hjob hjob' hlive hlive' hsame

theorem StoredUnderId.saveJob (record : JobRecord) :
    StoredUnderId (s.saveJob record) := by
  intro j job hjob
  rw [get?_jobs_saveJob] at hjob
  split_ifs at hjob with hj
  · cases hjob
    exact hj.symm
  · exact hid j job hjob

end

/-! ### Interleavings -/

/-- What every call keeps. -/
structure Orderly (s : Store) : Prop where
  storedUnderId : StoredUnderId s
  oneActive : OneActivePerTarget s

theorem RewritesLive.orderly (h : RewritesLive s s') (hs : Orderly s) : Orderly s' :=
  ⟨h.storedUnderId hs.storedUnderId, h.oneActivePerTarget hs.oneActive⟩

/-- One call keeps the property, provided that what it saves as unfinished finds its target
free. -/
theorem Orderly.effect {extendLease : String → ℕ → String} (h : Orderly s) {call : Call}
    (hfree : call.targetFree s) (heffect : call.Effect extendLease s s') : Orderly s' := by
  have hid := h.storedUnderId
  cases call with
  | saveJob record =>
    obtain rfl := heffect
    exact ⟨hid.saveJob record, (oneActivePerTarget_saveJob_iff h.oneActive).mpr hfree⟩
  | saveAttempt record =>
    obtain rfl := heffect
    have hjobs : RewritesLive s (s.saveAttempt record) := .of_jobs_eq rfl
    exact hjobs.orderly h
  | deleteLease leaseId =>
    obtain rfl := heffect
    exact (RewritesLive.of_jobs_eq (jobs_deleteLease s leaseId)).orderly h
  | saveControlEvent record =>
    obtain rfl := heffect
    have hjobs : RewritesLive s (s.saveControlEvent record) := .of_jobs_eq rfl
    exact hjobs.orderly h
  | claimNextRunnableJob jobTypes args =>
    obtain rfl := heffect
    exact (rewritesLive_claimNextRunnableJob hid jobTypes args).orderly h
  | claimRunnableJobById jobId args =>
    obtain rfl := heffect
    exact (rewritesLive_claimRunnableJobById hid jobId args).orderly h
  | transitionCurrentClaim args =>
    obtain ⟨now, rfl⟩ := heffect
    exact (rewritesLive_transitionCurrentClaim hid extendLease _).orderly h
  | recoverExpiredClaim args =>
    obtain ⟨now, rfl⟩ := heffect
    exact (rewritesLive_recoverExpiredClaim hid _).orderly h
  | _ => obtain rfl := heffect; exact h

section Pool

variable {ι : Type} [DecidableEq ι] {extendLease : String → ℕ → String}

theorem orderly_of_reach {α : Type} {c c' : Machine.Config Call.Answer ι Store α}
    (h : Orderly c.store)
    (hreach : (pooledMachine ι extendLease).Reach (fun _ s call => call.targetFree s) c c') :
    Orderly c'.store := by
  induction hreach with
  | refl => exact h
  | tail _ hstep ih =>
    obtain ⟨-, hfree, hexec⟩ := hstep
    exact ih.effect hfree (Call.effect_of_exec hexec)

end Pool

/-! ### Runs -/

section Races

theorem storedUnderId_empty : StoredUnderId .empty := nofun

theorem oneActivePerTarget_empty : OneActivePerTarget .empty := fun _ _ _ _ h => nomatch h

def sampleRequest : SubmissionRequest where
  jobType := .retrievalIndexing
  targetId := some "index-7"
  callerApp := "lotus-advise"
  correlationId := "corr-1"
  payloadSummary := "Rebuild the index."
  tenantId := none

/-- The retrieval catalogue knows every target. -/
def everyTarget : TargetJobType → String → Except Raised Unit := fun _ _ => .ok ()

def sampleJobId (hex : String) : String := (sampleRequest.submission "" hex).jobId

/-- Two submissions of one request; a worker that claims and completes the first job; and an
operator who replays it. -/
def sampleSessions : Fin 5 → TargetSession
  | 0 => .submit sampleRequest everyTarget
  | 1 => .submit sampleRequest everyTarget
  | 2 => .operate (.claimById (sampleJobId "a1") sampleClaim) trivial
  | 3 => .operate (.complete (sampleJobId "a1") "worker-1" (attemptIdOf (sampleJobId "a1") 1)
      "done") trivial
  | 4 => .operate (.control ⟨"ops", sampleJobId "a1", .replayTerminalJob, "alice", none, "stale"⟩)
      (.inr (.inl rfl))

/-- A submission looks through the jobs. -/
def lookSteps (i : Fin 5) : List (Fin 5 × Choice) := [(i, .store)]

/-- A submission that found its target free stores its job. -/
def storeSteps (i : Fin 5) (hex : String) : List (Fin 5 × Choice) :=
  [(i, .time "2026-01-05T09:00:00Z"), (i, .uuid hex), (i, .store), (i, .store),
    (i, .neighbour (.ok false))]

/-- The worker's claim and completion of the first job. -/
def workSteps : List (Fin 5 × Choice) :=
  [(2, .store), (3, .store), (3, .time "2026-01-05T09:01:00Z"),
    (3, .artifact (.ok ⟨"artifact-1", "ref"⟩)), (3, .time "2026-01-05T09:01:00Z"),
    (3, .neighbour (.ok true))]

/-- The operator reads the job and queues it again. -/
def replaySteps : List (Fin 5 × Choice) :=
  [(4, .authorization ⟨"ops", true, ""⟩), (4, .store), (4, .store), (4, .store)]

def jobStatuses (s : Store) : List (String × LifecycleStatus) :=
  s.jobs.entries.map fun entry => (entry.1, entry.2.lifecycleStatus)

/-- What a schedule makes of the sample sessions: the jobs, and whether the property holds. -/
def sampleOutcome (ok : Store → Call → Bool) (steps : List (Fin 5 × Choice)) :
    Option (List (String × LifecycleStatus) × Bool) :=
  ((pooledMachine (Fin 5) fun now _ => now).schedule (fun _ s call => ok s call)
    (targetPool .empty sampleSessions) steps).map fun c =>
      (jobStatuses c.store, decide (OneActivePerTarget c.store))

theorem reach_of_sampleOutcome {ok : Store → Call → Bool} {steps : List (Fin 5 × Choice)}
    {statuses : List (String × LifecycleStatus)} {one : Bool}
    (h : sampleOutcome ok steps = some (statuses, one)) :
    ∃ c, (pooledMachine (Fin 5) fun now _ => now).Reach (fun _ s call => ok s call)
      (targetPool .empty sampleSessions) c ∧ jobStatuses c.store = statuses ∧
      decide (OneActivePerTarget c.store) = one := by
  obtain ⟨c, hrun, hview⟩ := Option.map_eq_some_iff.mp h
  obtain ⟨hstatuses, hone⟩ := Prod.mk.inj hview
  exact ⟨c, Machine.reach_of_schedule hrun, hstatuses, hone⟩

end Races

end LotusAI.AsyncRuntime
