import LotusAI.AsyncRuntime.Control
import LotusAI.AsyncRuntime.Methods
import LotusAI.AsyncRuntime.Worker

/-!
# What submissions and operators save

A submission and the actions of an operator write an attempt, a lease and a job one after the
other. Written together, from records as they are stored, they rewrite one job and take a
coherent store to a coherent store.
-/

namespace LotusAI.AsyncRuntime

namespace Store

/-- What a submission saves. -/
def submit (s : Store) (sub : Submission) : Store :=
  (s.saveJob sub.jobRecord).saveAttempt sub.attemptRecord

/-- What `queue_next_async_attempt` saves. -/
def requeue (s : Store) (job : JobRecord) (message : String) : Store :=
  (s.saveAttempt (queuedAttempt job.jobId (job.attemptCount + 1) message)).saveJob
    (job.requeued message)

/-- What `_abandon_active_job` saves and deletes. -/
def abandon (s : Store) (job : JobRecord) (lease : LeaseRecord) (attempt : AttemptRecord)
    (now reason : String) : Store :=
  ((s.saveAttempt (withdrawnAttempt attempt now "MANUAL_ABANDON"
    s!"Attempt manually abandoned: {reason}")).deleteLease lease.leaseId).2.saveJob { job with
      lifecycleStatus := .abandoned
      latestMessage := s!"Job manually abandoned: {reason}" }

/-- What `redrive_queued_async_job` saves. -/
def redrive (s : Store) (job : JobRecord) (reason : String) : Store :=
  s.saveJob { job with
    lifecycleStatus := .queued
    latestMessage := s!"Queued async job re-driven to managed queue: {reason}" }

/-- What `quarantine_queued_async_job` saves. -/
def quarantine (s : Store) (job : JobRecord) (attempt : AttemptRecord) (now reason : String) :
    Store :=
  (s.saveAttempt (withdrawnAttempt attempt now "DELIVERY_QUARANTINED"
    s!"Queued delivery quarantined: {reason}")).saveJob { job with
      lifecycleStatus := .abandoned
      latestMessage := s!"Queued async job quarantined: {reason}" }

end Store

variable {s : Store} {job : JobRecord} {attempt : AttemptRecord} {lease : LeaseRecord}
  {sub : Submission}

namespace Coherent

variable {j : String}

/-- An unowned job holds no lease. -/
theorem leasesByJob_eq_none (h : Coherent s) (hjob : s.jobs.get? j = some job)
    (hinactive : job.lifecycleStatus.isActive = false) : s.leasesByJob.get? j = none := by
  simpa [hinactive] using (h.present j job hjob).leased

/-- A stored job has an attempt. -/
theorem exists_latestAttempt (h : Coherent s) (hjob : s.jobs.get? j = some job) :
    ∃ latest, latestAttemptOf (s.attemptsOf j) = some latest := by
  have hc := h.present j job hjob
  obtain ⟨a, ha, -⟩ := hc.mem_numbers.mpr ⟨hc.count_pos, le_refl job.attemptCount⟩
  apply Option.ne_none_iff_exists'.mp
  intro hnone
  have hnil : sortedAttempts (s.attemptsOf j) = [] := List.getLast?_eq_none_iff.mp hnone
  have hmem : a ∈ sortedAttempts (s.attemptsOf j) := (List.mem_insertionSort _).mpr ha
  rw [hnil] at hmem
  cases hmem

end Coherent

variable (h : Coherent s)

include h

namespace Touches

theorem submit (hfresh : s.jobs.get? sub.jobId = none) :
    Touches s (s.submit sub) sub.jobId sub.jobRecord [sub.attemptRecord] none := by
  obtain ⟨hnone, hlease⟩ := h.absent _ hfresh
  refine ⟨fun k => ?_, fun k => ?_, fun k => ?_, h.inverse⟩
  · simp [Store.submit, Submission.jobRecord]
  · by_cases hk : k = sub.jobId <;>
      simp [Store.submit, Submission.attemptRecord, upsertAttempt, hk, hnone]
  · by_cases hk : k = sub.jobId <;> simp [Store.submit, hk, hlease]

variable (hjob : s.jobs.get? job.jobId = some job)

include hjob

theorem requeue (hinactive : job.lifecycleStatus.isActive = false) (message : String) :
    Touches s (s.requeue job message) job.jobId (job.requeued message)
      (upsertAttempt (queuedAttempt job.jobId (job.attemptCount + 1) message)
        (s.attemptsOf job.jobId)) none := by
  have hlease := h.leasesByJob_eq_none hjob hinactive
  refine ⟨fun k => ?_, fun k => ?_, fun k => ?_, h.inverse⟩
  · simp [Store.requeue, JobRecord.requeued]
  · by_cases hk : k = job.jobId <;> simp [Store.requeue, queuedAttempt, hk]
  · by_cases hk : k = job.jobId <;> simp [Store.requeue, hk, hlease]

theorem abandon (hlease : s.leasesByJob.get? job.jobId = some lease)
    (hget : s.getAttempt lease.attemptId = some attempt) (now reason : String) :
    Touches s (s.abandon job lease attempt now reason) job.jobId { job with
        lifecycleStatus := .abandoned
        latestMessage := s!"Job manually abandoned: {reason}" }
      (withNext (withdrawnAttempt attempt now "MANUAL_ABANDON"
        s!"Attempt manually abandoned: {reason}") none (s.attemptsOf job.jobId)) none := by
  have haj := ((h.present _ job hjob).attempt attempt (h.leasedAttempt hlease hjob hget).1).1
  have hinv : LeasesInverse (s.saveAttempt (withdrawnAttempt attempt now "MANUAL_ABANDON"
    s!"Attempt manually abandoned: {reason}")) := h.inverse
  refine ⟨fun k => ?_, fun k => ?_, hinv.get?_leasesByJob_deleteLease hlease, hinv.deleteLease _⟩
  · simp [Store.abandon]
  · by_cases hk : k = job.jobId <;> simp [Store.abandon, withNext, withdrawnAttempt, haj, hk]

theorem redrive (hstatus : job.lifecycleStatus = .queued) (reason : String) :
    Touches s (s.redrive job reason) job.jobId { job with
        lifecycleStatus := .queued
        latestMessage := s!"Queued async job re-driven to managed queue: {reason}" }
      (s.attemptsOf job.jobId) none := by
  have hlease := h.leasesByJob_eq_none hjob (by rw [hstatus]; rfl)
  refine ⟨fun k => ?_, fun k => ?_, fun k => ?_, h.inverse⟩
  · simp [Store.redrive]
  · by_cases hk : k = job.jobId <;> simp [Store.redrive, hk]
  · by_cases hk : k = job.jobId <;> simp [Store.redrive, hk, hlease]

theorem quarantine (hstatus : job.lifecycleStatus = .queued)
    (hlatest : latestAttemptOf (s.attemptsOf job.jobId) = some attempt) (now reason : String) :
    Touches s (s.quarantine job attempt now reason) job.jobId { job with
        lifecycleStatus := .abandoned
        latestMessage := s!"Queued async job quarantined: {reason}" }
      (withNext (withdrawnAttempt attempt now "DELIVERY_QUARANTINED"
        s!"Queued delivery quarantined: {reason}") none (s.attemptsOf job.jobId)) none := by
  have hlease := h.leasesByJob_eq_none hjob (by rw [hstatus]; rfl)
  have haj := ((h.present _ job hjob).attempt attempt (mem_of_latestAttemptOf hlatest)).1
  refine ⟨fun k => ?_, fun k => ?_, fun k => ?_, h.inverse⟩
  · simp [Store.quarantine]
  · by_cases hk : k = job.jobId <;> simp [Store.quarantine, withNext, withdrawnAttempt, haj, hk]
  · by_cases hk : k = job.jobId <;> simp [Store.quarantine, hk, hlease]

end Touches

namespace Coherent

theorem submit (hfresh : s.jobs.get? sub.jobId = none) :
    Coherent (s.submit sub) :=
  h.of_touches (.submit h hfresh)
    { jobId := rfl
      count_pos := le_refl 1
      numbers := List.Perm.refl [1]
      attempt := by simp [Submission.attemptRecord]
      leased := by simp [Submission.jobRecord]
      active := by simp [Submission.attemptRecord]
      lease := by simp }

variable (hjob : s.jobs.get? job.jobId = some job)

include hjob

theorem requeue (hinactive : job.lifecycleStatus.isActive = false) (message : String) :
    Coherent (s.requeue job message) := by
  have hc := h.present _ job hjob
  rw [h.leasesByJob_eq_none hjob hinactive] at hc
  exact h.of_touches (.requeue h hjob hinactive message) (hc.pushNext rfl rfl rfl rfl rfl rfl rfl)

theorem abandon (hlease : s.leasesByJob.get? job.jobId = some lease)
    (hget : s.getAttempt lease.attemptId = some attempt) (now reason : String) :
    Coherent (s.abandon job lease attempt now reason) := by
  obtain ⟨hmem, hnum⟩ := h.leasedAttempt hlease hjob hget
  refine h.of_touches (.abandon h hjob hlease hget now reason)
    ((h.present _ job hjob).endClaim hmem hnum _ ?_ ?_ _ ?_ ?_ none ?_) <;> simp [withdrawnAttempt]

theorem redrive (hstatus : job.lifecycleStatus = .queued) (reason : String) :
    Coherent (s.redrive job reason) := by
  have hc := h.present _ job hjob
  rw [h.leasesByJob_eq_none hjob (by rw [hstatus]; rfl)] at hc
  exact h.of_touches (.redrive h hjob hstatus reason) (hc.relabel rfl rfl (by rw [hstatus]))

theorem quarantine (hstatus : job.lifecycleStatus = .queued)
    (hlatest : latestAttemptOf (s.attemptsOf job.jobId) = some attempt) (now reason : String) :
    Coherent (s.quarantine job attempt now reason) := by
  have hc := h.present _ job hjob
  refine h.of_touches (.quarantine h hjob hstatus hlatest now reason)
    (hc.endClaim (mem_of_latestAttemptOf hlatest) (hc.attemptNumber_latest hlatest) _ ?_ ?_ _ ?_ ?_
      none ?_) <;> simp [withdrawnAttempt]

end Coherent

end LotusAI.AsyncRuntime
