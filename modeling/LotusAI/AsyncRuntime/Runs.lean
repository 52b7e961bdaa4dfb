import LotusAI.AsyncRuntime.Moves

/-!
# Runs of the async runtime

Submissions, worker reports, recoveries and operator actions, each performed as
one atomic operation, in any order and any number, starting from the empty store.
Every store such a run reaches is coherent.
-/

namespace LotusAI.AsyncRuntime

open Lib Store Machine Setting LifecycleStatus

variable {extendLease : String → ℕ → String} {s : Store} {job : JobRecord} {α : Type}

/-! ### Calls that keep coherence on their own -/

/-- Calls that take a coherent store to a coherent store. The raw saves of an operator
are not among them: they are coherent only together. -/
def Call.Tame : Call → Prop
  | .saveJob _ => False
  | .saveAttempt _ => False
  | .deleteLease _ => False
  | .transitionCurrentClaim args => args.Renews ∨ args.Ends
  | _ => True

theorem Call.Tame.coherent {call : Call} (htame : call.Tame) (h : Coherent s) {choice : Choice}
    {r : call.Answer} {s' : Store} (hexec : call.exec extendLease s choice = some (r, s')) :
    Coherent s' := by
  have heffect := Call.effect_of_exec hexec
  cases call with
  | saveJob | saveAttempt | deleteLease => exact htame.elim
  | claimNextRunnableJob jobTypes args =>
    obtain rfl := heffect
    exact h.claimNextRunnableJob jobTypes args
  | claimRunnableJobById jobId args =>
    obtain rfl := heffect
    exact h.claimRunnableJobById jobId args
  | recoverExpiredClaim args =>
    obtain ⟨now, rfl⟩ := heffect
    exact h.recoverExpiredClaim _
  | transitionCurrentClaim args =>
    obtain ⟨now, rfl⟩ := heffect
    refine h.transitionCurrentClaim extendLease (htame.imp (fun hr => ?_) fun he => ?_)
    · exact ⟨hr.lease, hr.job, hr.attempt, hr.successor, hr.artifact⟩
    · exact ⟨he.lease, he.job, he.attempt⟩
  | saveControlEvent record =>
    obtain rfl := heffect
    exact ⟨h.present, h.absent, h.inverse⟩
  | _ => obtain rfl := heffect; exact h

/-- A program of tame calls keeps coherence. -/
theorem wp_coherent_of_tame {p : Prog Call.Answer α} (hp : p.CallsOnly Call.Tame)
    (h : Coherent s) : (machine extendLease).wp () p (fun _ s' => Coherent s') s :=
  wp_of_callsOnly (fun _ _ _ _ _ htame hs hexec => htame.coherent hs hexec) hp h

/-! ### The tame parts of the services -/

section Tame

theorem callsOnly_ask (call : Call) (h : call.Tame) : (ask call).run.CallsOnly Call.Tame :=
  ⟨h, fun _ => trivial⟩

theorem Call.Passive.tame (call : Call) (h : call.Passive) : call.Tame := by
  cases call <;> first | exact h.elim | trivial

theorem callsOnly_askNeighbour (request : Neighbour) :
    (askNeighbour request).run.CallsOnly Call.Tame :=
  (callsOnly_ask (.neighbour request) trivial).bindRaising fun r => (passive_orRaise r).mono
    Call.Passive.tame

theorem callsOnly_freshTransition {args : TransitionArgs} (hargs : args.Renews ∨ args.Ends) :
    (freshTransition args).run.CallsOnly Call.Tame :=
  (callsOnly_ask (.transitionCurrentClaim args) hargs).bindRaising fun r => by cases r <;> trivial

variable (jobId workerId attemptId : String)

theorem callsOnly_startAsyncJob :
    (startAsyncJob jobId workerId attemptId).run.CallsOnly Call.Tame :=
  (callsOnly_freshTransition (.inl (renews_startArgs ..))).bindRaising fun t =>
    (((passive_requireCurrentClaim jobId workerId t).mono Call.Passive.tame).bindRaising
      fun _ => trivial)

theorem callsOnly_heartbeatAsyncJob :
    (heartbeatAsyncJob jobId workerId attemptId).run.CallsOnly Call.Tame :=
  (callsOnly_freshTransition (.inl (renews_heartbeatArgs ..))).bindRaising fun t =>
    (((passive_requireCurrentClaim jobId workerId t).mono Call.Passive.tame).bindRaising
      fun _ => trivial)

/-- A terminal report: its output is staged, and published or withdrawn. -/
theorem callsOnly_terminalReport (job : JobRecord) {args : ArtifactRecord → TransitionArgs}
    (hargs : ∀ artifact, (args artifact).Ends) : (ExceptT.run (do
      let artifact ← stageTerminalOutput job workerId
      let transitioned ← freshTransition (args artifact)
      publishTerminalArtifactOrReject transitioned artifact jobId workerId)).CallsOnly Call.Tame :=
  ((passive_stageTerminalOutput job workerId).mono Call.Passive.tame).bindRaising fun artifact =>
    (callsOnly_freshTransition (.inr (hargs artifact))).bindRaising fun t =>
      (passive_publishTerminalArtifactOrReject t artifact jobId workerId).mono Call.Passive.tame

theorem callsOnly_completeAsyncJob (message : String) :
    (completeAsyncJob jobId workerId attemptId message).run.CallsOnly Call.Tame :=
  ((passive_getRuntimeJob jobId).mono Call.Passive.tame).bindRaising fun job =>
    callsOnly_terminalReport jobId workerId job fun _ => ends_completeArgs ..

theorem callsOnly_failAsyncJob (failureReason : String) (retryable : Bool) :
    (failAsyncJob jobId workerId attemptId failureReason retryable).run.CallsOnly Call.Tame := by
  refine ((passive_getRuntimeJob jobId).mono Call.Passive.tame).bindRaising fun job => ?_
  cases retryable with
  | true =>
    refine (callsOnly_freshTransition (.inr (ends_retryArgs ..))).bindRaising fun t =>
      ((passive_requireCurrentClaim jobId workerId t).mono Call.Passive.tame).bindRaising
        fun transition => ?_
    cases transition.nextAttempt with
    | none => trivial
    | some next => exact (callsOnly_askNeighbour _).bindRaising fun _ => trivial
  | false => exact callsOnly_terminalReport jobId workerId job fun _ => ends_failArgs ..

theorem callsOnly_controlEvent (job : JobRecord) (request : ControlActionRequest)
    (authorization : AuthorizationDecision) (status : LifecycleStatus) (id : Option String) :
    (controlEvent job request authorization status id).run.CallsOnly Call.Tame :=
  (passive_controlEvent job request authorization status id).mono Call.Passive.tame

theorem callsOnly_syncEvaluationRetryableAction (job : JobRecord) (reason manner : String) :
    (syncEvaluationRetryableAction job reason manner).run.CallsOnly Call.Tame := by
  unfold syncEvaluationRetryableAction
  split
  · trivial
  · exact (callsOnly_askNeighbour _).bindRaising fun _ => trivial

theorem callsOnly_syncEvaluationAbandon (job : JobRecord) (reason : String) :
    (syncEvaluationAbandon job reason).run.CallsOnly Call.Tame := by
  unfold syncEvaluationAbandon
  split
  · trivial
  · exact (callsOnly_askNeighbour _).bindRaising fun _ => trivial

end Tame

/-! ### Runs -/

/-- What can happen to the store. -/
inductive Operation
  | submit (sub : Submission)
  | claimNext (jobTypes : Option (List String)) (args : ClaimArgs)
  | claimById (jobId : String) (args : ClaimArgs)
  | start (jobId workerId attemptId : String)
  | heartbeat (jobId workerId attemptId : String)
  | complete (jobId workerId attemptId message : String)
  | fail (jobId workerId attemptId failureReason : String) (retryable : Bool)
  | recover (args : RecoveryArgs)
  | control (request : ControlActionRequest)

/-- A submission brings a job id that no stored job has; nothing else is required. -/
def Operation.Admissible (s : Store) : Operation → Prop
  | submit sub => s.jobs.get? sub.jobId = none
  | _ => True

/-- The program an operation runs, its answer left out. -/
def Operation.program : Operation → Service Unit
  | submit sub => do let _ ← submitAsyncJob sub
  | claimNext jobTypes args => do let _ ← ask (.claimNextRunnableJob jobTypes args)
  | claimById jobId args => do let _ ← ask (.claimRunnableJobById jobId args)
  | start jobId workerId attemptId => startAsyncJob jobId workerId attemptId
  | heartbeat jobId workerId attemptId => heartbeatAsyncJob jobId workerId attemptId
  | complete jobId workerId attemptId message => completeAsyncJob jobId workerId attemptId message
  | fail jobId workerId attemptId reason retryable =>
    failAsyncJob jobId workerId attemptId reason retryable
  | recover args => do let _ ← ask (.recoverExpiredClaim args)
  | control request => do let _ ← applyAsyncControlAction request

theorem wp_coherent_of_keeps {p : Service α} (h : Coherent s)
    (hp : (unobserved extendLease).Keeps ⟨s, ()⟩ p) :
    (machine extendLease).wp () p.run (fun _ s' => Coherent s') s :=
  wp_unobserved (Setting.wp_mono (fun _ _ hmoves => hmoves.coherent h) hp)

/-- One operation keeps coherence, whatever its environment does. -/
theorem Operation.wp_coherent (op : Operation) (h : Coherent s) (hop : op.Admissible s) :
    (machine extendLease).wp () op.program.run (fun _ s' => Coherent s') s := by
  cases op with
  | submit sub =>
    refine wp_unobserved (Setting.wp_bind.mpr (Setting.wp_mono (fun r σ' hsaved => ?_)
      (wp_submitAsyncJob sub)))
    have hcoherent : Coherent σ'.store := hsaved.1 ▸ h.submit hop
    cases r <;> exact hcoherent
  | control request =>
    refine wp_coherent_of_keeps h (.bind (keeps_applyAsyncControlAction h request) fun _ _ _ => ?_)
    exact keeps_of_passive trivial
  | claimNext jobTypes args =>
    exact wp_coherent_of_tame ((callsOnly_ask (.claimNextRunnableJob jobTypes args)
      trivial).bindRaising fun _ => trivial) h
  | claimById jobId args =>
    exact wp_coherent_of_tame ((callsOnly_ask (.claimRunnableJobById jobId args)
      trivial).bindRaising fun _ => trivial) h
  | recover args =>
    exact wp_coherent_of_tame ((callsOnly_ask (.recoverExpiredClaim args)
      trivial).bindRaising fun _ => trivial) h
  | start => exact wp_coherent_of_tame (callsOnly_startAsyncJob ..) h
  | heartbeat => exact wp_coherent_of_tame (callsOnly_heartbeatAsyncJob ..) h
  | complete => exact wp_coherent_of_tame (callsOnly_completeAsyncJob ..) h
  | fail => exact wp_coherent_of_tame (callsOnly_failAsyncJob ..) h

/-- The stores reached from the empty one by finitely many operations, each performed
atomically under some choices of its environment. -/
inductive Reachable (extendLease : String → ℕ → String) : Store → Prop
  | empty : Reachable extendLease .empty
  | step {s s' : Store} (op : Operation) (choices : List Choice) (result : Except Raised Unit)
      (reached : Reachable extendLease s) (admissible : op.Admissible s)
      (ran : (machine extendLease).run () op.program.run s choices = some (result, s')) :
      Reachable extendLease s'

theorem Reachable.coherent (h : Reachable extendLease s) : Coherent s := by
  induction h with
  | empty => exact coherent_empty
  | step op _ _ _ admissible ran ih => exact wp_run (op.wp_coherent ih admissible) ran

/-- How jobs, attempts and leases agree. -/
structure LeaseInvariants (s : Store) : Prop where
  /-- A job holds a lease exactly while it is claimed or running. -/
  leased_iff_active : ∀ j, (∃ lease, s.leasesByJob.get? j = some lease) ↔
    ∃ job, s.jobs.get? j = some job ∧
      (job.lifecycleStatus = .claimed ∨ job.lifecycleStatus = .running)
  /-- The lease is for the job's attempt with the largest number, which is active. -/
  lease_latest : ∀ j lease, s.leasesByJob.get? j = some lease →
    ∃ a ∈ s.attemptsOf j, a.attemptId = lease.attemptId ∧
      (a.lifecycleStatus = .claimed ∨ a.lifecycleStatus = .running) ∧
      ∀ b ∈ s.attemptsOf j, b ≠ a → b.attemptNumber < a.attemptNumber
  /-- Every other attempt of every job is inactive. -/
  others_inactive : ∀ j, ∀ a ∈ s.attemptsOf j,
    (∀ lease, s.leasesByJob.get? j = some lease → a.attemptId ≠ lease.attemptId) →
      a.lifecycleStatus ≠ .claimed ∧ a.lifecycleStatus ≠ .running
  /-- The attempts of a job carry the numbers `1..attemptCount`, each once. -/
  numbered : ∀ j job, s.jobs.get? j = some job →
    ((s.attemptsOf j).map AttemptRecord.attemptNumber).Perm (List.range' 1 job.attemptCount)
  /-- The two lease maps are inverse to each other. -/
  inverse : ∀ leaseId j, s.leaseIdToJob.get? leaseId = some j ↔
    ∃ lease, s.leasesByJob.get? j = some lease ∧ lease.leaseId = leaseId

/-- The current attempt of a leased job, and that no other attempt is as recent. -/
theorem CoherentJob.exists_leased {j : String} {attempts : List AttemptRecord}
    {lease : LeaseRecord} (hc : CoherentJob j job attempts (some lease)) :
    ∃ a ∈ attempts, a.attemptId = lease.attemptId ∧ a.lifecycleStatus.isActive ∧
      ∀ b ∈ attempts, b ≠ a → b.attemptNumber < a.attemptNumber := by
  obtain ⟨a, ha, hnum⟩ := hc.mem_numbers.mpr ⟨hc.count_pos, le_refl job.attemptCount⟩
  have hid : a.attemptId = lease.attemptId := by
    rw [(hc.attempt a ha).2, hnum, (hc.lease lease rfl).2.1]
  refine ⟨a, ha, hid, (hc.active a ha).mpr ⟨rfl, hnum⟩, fun b hb hne => ?_⟩
  have hle := (hc.mem_numbers.mp ⟨b, hb, rfl⟩).2
  have hnodup : (attempts.map AttemptRecord.attemptNumber).Nodup :=
    hc.numbers.nodup_iff.mpr List.nodup_range'
  have hnumber : b.attemptNumber ≠ a.attemptNumber := fun heq =>
    hne (List.inj_on_of_nodup_map hnodup hb ha heq)
  omega

theorem Coherent.leaseInvariants (h : Coherent s) : LeaseInvariants s where
  leased_iff_active j := by
    constructor
    · rintro ⟨lease, hlease⟩
      obtain ⟨job, hjob⟩ := h.exists_job hlease
      exact ⟨job, hjob, isActive_iff.mp
        ((h.present j job hjob).leased.mp (by simp [hlease]))⟩
    · rintro ⟨job, hjob, hactive⟩
      exact Option.isSome_iff_exists.mp
        ((h.present j job hjob).leased.mpr (isActive_iff.mpr hactive))
  lease_latest j lease hlease := by
    obtain ⟨job, hjob⟩ := h.exists_job hlease
    have hc := h.present j job hjob
    rw [hlease] at hc
    obtain ⟨a, ha, hid, hactive, hlatest⟩ := hc.exists_leased
    exact ⟨a, ha, hid, isActive_iff.mp hactive, hlatest⟩
  others_inactive j a ha hother := by
    cases hjob : s.jobs.get? j with
    | none => rw [(h.absent j hjob).1] at ha; cases ha
    | some job =>
      have hc := h.present j job hjob
      rw [← not_or, ← isActive_iff, hc.active a ha]
      rintro ⟨hleased, hnum⟩
      obtain ⟨lease, hlease⟩ := Option.isSome_iff_exists.mp hleased
      apply hother lease hlease
      rw [(hc.attempt a ha).2, hnum, (hc.lease lease hlease).2.1]
  numbered j job hjob := (h.present j job hjob).numbers
  inverse := h.inverse

/-- Leases, attempts and jobs agree in every reachable store. -/
theorem leaseInvariants_of_reachable (extendLease : String → ℕ → String) (s : Store)
    (h : Reachable extendLease s) : LeaseInvariants s :=
  h.coherent.leaseInvariants

/-! A store in which a worker holds the only job. -/

def sampleSubmission : Submission where
  jobId := "asyncjob_retrieval_indexing_0a1b2c"
  jobType := "retrieval_indexing"
  targetId := some "index-7"
  submittedAt := "2026-01-05T09:00:00Z"
  callerApp := "lotus-advise"
  correlationId := "corr-1"
  payloadSummary := "Rebuild the index."
  executionPath := "in_process"
  relatedEvaluationRunId := none
  latestMessage := "Job accepted into durable async runtime state."
  artifactIds := []
  tenantId := none
  attemptMessage := "Initial durable async submission recorded."

def sampleClaim : ClaimArgs where
  workerId := "worker-1"
  claimedAt := "2026-01-05T09:00:01Z"
  heartbeatAt := "2026-01-05T09:00:01Z"
  leaseExpiresAt := "2026-01-05T09:05:01Z"
  latestMessage := "Job claimed by worker 'worker-1' and is waiting for explicit execution start."
  attemptMessage := "Attempt claimed by worker 'worker-1'."

/-- The sample job as submitted. -/
def submittedStore : Store :=
  (Store.empty.saveJob sampleSubmission.jobRecord).saveAttempt sampleSubmission.attemptRecord

/-- The sample job as claimed. -/
def claimedStore : Store :=
  (submittedStore.claimRunnableJobById sampleSubmission.jobId sampleClaim).2

theorem reachable_claimedStore (extendLease : String → ℕ → String) :
    Reachable extendLease claimedStore := by
  have hsubmitted : Reachable extendLease submittedStore :=
    .step (.submit sampleSubmission) [.store, .store, .neighbour (.ok false)] (.ok ())
      .empty rfl rfl
  exact .step (.claimById sampleSubmission.jobId sampleClaim) [.store] (.ok ())
    hsubmitted trivial rfl

/-- The theorem applies to a store that does hold a lease. -/
theorem leaseInvariants_claimedStore :
    (claimedStore.leasesByJob.get? sampleSubmission.jobId).isSome = true ∧
      LeaseInvariants claimedStore :=
  ⟨by decide, leaseInvariants_of_reachable (fun now _ => now) claimedStore
    (reachable_claimedStore _)⟩

end LotusAI.AsyncRuntime
