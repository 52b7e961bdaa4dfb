import LotusAI.AsyncRuntime.SqlStore

/-!
# The two adapters of the async runtime store

The in-memory store and the SQL store are meant to be the same store. They hold the same
contents when every job, attempt and lease of one is one of the other. From such contents the
same call is answered alike and leaves the same contents, unless it meets one of the places where
the two are written differently.
-/

namespace LotusAI.AsyncRuntime

open Lib Store Option Table List

/-! ### Calls -/

/-- A call on a store. -/
inductive AdapterCall
  | claimNextRunnableJob (jobTypes : Option (List String)) (args : ClaimArgs)
  | claimRunnableJobById (jobId : String) (args : ClaimArgs)
  | transitionCurrentClaim (args : TransitionArgs)
  | recoverExpiredClaim (args : RecoveryArgs)
  | deleteLease (leaseId : String)

/-- What a call returns, or raises. -/
inductive AdapterResult
  | claim (result : Except AdapterError (Option ClaimRecord))
  | transition (result : Except AdapterError (Option ClaimTransition))
  | recovery (result : Except AdapterError (Option RecoveryTransition))
  | deleted (count : ℕ)

/-- `transition_current_claim` in memory, with the extension that may raise: the attempt, the job
and the successor are saved before the lease is extended, and stay. -/
def Store.transitionOrRaise (s : Store) (args : TransitionArgs) :
    Except AdapterError (Option ClaimTransition) × Store :=
  match args.nowFactory.or args.now with
  | none => (.error (.valueError "A fresh claim-transition timestamp is required."), s)
  | some now =>
    match s.currentClaim args now with
    | none => (.ok none, s)
    | some (_, attempt, job) =>
      if SqlStore.extensionRaises args now then
        let saved := (s.saveAttempt (transitionedAttempt args now attempt)).saveJob
          (transitionedJob args job)
        (.error .extension, (successorAttempt args job).elim saved saved.saveAttempt)
      else
        ((s.transitionCurrentClaim extendLease args).1.mapError .valueError,
          (s.transitionCurrentClaim extendLease args).2)

/-- A call on the in-memory store. -/
def Store.answer (s : Store) : AdapterCall → AdapterResult × Store
  | .claimNextRunnableJob jobTypes args =>
    (.claim (.ok (s.claimNextRunnableJob jobTypes args).1), (s.claimNextRunnableJob jobTypes args).2)
  | .claimRunnableJobById jobId args =>
    (.claim (.ok (s.claimRunnableJobById jobId args).1), (s.claimRunnableJobById jobId args).2)
  | .transitionCurrentClaim args =>
    (.transition (s.transitionOrRaise args).1, (s.transitionOrRaise args).2)
  | .recoverExpiredClaim args =>
    (.recovery ((s.recoverExpiredClaim args).1.mapError .valueError), (s.recoverExpiredClaim args).2)
  | .deleteLease leaseId => (.deleted (s.deleteLease leaseId).1, (s.deleteLease leaseId).2)

def SqlStore.answer (engine : Engine) (q : SqlStore) : AdapterCall → AdapterResult × SqlStore
  | .claimNextRunnableJob jobTypes args =>
    (.claim (q.claimNextRunnableJob engine jobTypes args).1,
      (q.claimNextRunnableJob engine jobTypes args).2)
  | .claimRunnableJobById jobId args =>
    (.claim (q.claimRunnableJobById engine jobId args).1,
      (q.claimRunnableJobById engine jobId args).2)
  | .transitionCurrentClaim args =>
    (.transition (q.transitionCurrentClaim engine args).1,
      (q.transitionCurrentClaim engine args).2)
  | .recoverExpiredClaim args =>
    (.recovery (q.recoverExpiredClaim engine args).1, (q.recoverExpiredClaim engine args).2)
  | .deleteLease leaseId => (.deleted (q.deleteLease leaseId).1, (q.deleteLease leaseId).2)

/-! ### The same contents -/

/-- The in-memory store and the tables hold the same jobs, attempts and leases. -/
structure SameContents (s : Store) (q : SqlStore) : Prop where
  jobs : ∀ jobId, s.jobs.get? jobId = q.jobs.get? jobId
  attempts : ∀ jobId a, a ∈ s.attemptsOf jobId ↔ a ∈ q.attempts ∧ a.jobId = jobId
  leases : ∀ jobId l, s.leasesByJob.get? jobId = some l ↔ l ∈ q.leases ∧ l.jobId = jobId
  inverse : LeasesInverse s

namespace SameContents

variable {s : Store} {q : SqlStore} {j : String}

variable {job : JobRecord} {lease : LeaseRecord} {jobTypes : Option (List String)}
  {args : TransitionArgs} {now : String} (h : SameContents s q)

include h

theorem jobId_of_get? (hjob : s.jobs.get? j = some job) : job.jobId = j := by
  rw [h.jobs] at hjob
  exact key_of_get? hjob

/-- An attempt id finds the same attempt in both. -/
theorem getAttempt (attemptId : String) :
    s.getAttempt attemptId = q.attempts.get? attemptId := by
  cases hget : s.getAttempt attemptId with
  | some a =>
    obtain ⟨rfl, jobId, hmem⟩ := Store.mem_of_getAttempt hget
    exact (((h.attempts jobId a).mp hmem).1).symm
  | none =>
    cases hrow : q.attempts.get? attemptId with
    | none => rfl
    | some a =>
      have hkey := key_of_get? hrow
      have hmem : a ∈ s.attemptsOf a.jobId :=
        (h.attempts a.jobId a).mpr ⟨mem_iff.mpr (hkey ▸ hrow), rfl⟩
      -- a stored attempt is found by its id
      unfold Store.attemptsOf at hmem
      cases hlist : s.attempts.get? a.jobId with
      | none => simp [hlist] at hmem
      | some attempts =>
        rw [hlist, getD_some] at hmem
        have hvalues := Dict.mem_values_iff.mpr ⟨a.jobId, hlist⟩
        unfold Store.getAttempt at hget
        rw [findSome?_eq_none_iff] at hget
        have hnone := find?_eq_none.mp (hget attempts hvalues) a hmem
        simp [hkey] at hnone

/-- A lease id is in use in both or in neither. -/
theorem leaseId_free {leaseId : String} :
    s.leaseIdToJob.get? leaseId = none ↔ q.leases.get? leaseId = none := by
  constructor
  · intro hfree
    by_contra hused
    obtain ⟨l, hl⟩ := ne_none_iff_exists'.mp hused
    obtain rfl := key_of_get? hl
    have hheld := (h.leases l.jobId l).mpr ⟨hl, rfl⟩
    rw [(h.inverse l.leaseId l.jobId).mpr ⟨l, hheld, rfl⟩] at hfree
    cases hfree
  · intro hfree
    by_contra hused
    obtain ⟨owner, howner⟩ := ne_none_iff_exists'.mp hused
    obtain ⟨l, hl, rfl⟩ := (h.inverse _ _).mp howner
    have hrow := ((h.leases owner l).mp hl).1
    rw [mem_iff, hfree] at hrow
    cases hrow

/-! ### Single writes -/

theorem saveJob (record : JobRecord) :
    SameContents (s.saveJob record) { q with jobs := q.jobs.upsert record } where
  jobs jobId := by rw [get?_jobs_saveJob, get?_upsert, h.jobs]
  attempts := h.attempts
  leases := h.leases
  inverse := h.inverse

/-- An attempt is written alike, unless its id belongs to an attempt of another job. -/
theorem saveAttempt {record : AttemptRecord}
    (hown : ∀ a ∈ q.attempts, a.attemptId = record.attemptId → a.jobId = record.jobId) :
    SameContents (s.saveAttempt record) { q with attempts := q.attempts.upsert record } where
  jobs := h.jobs
  attempts jobId a := by
    rw [attemptsOf_saveAttempt, mem_upsert]
    by_cases hjob : jobId = record.jobId
    · subst hjob
      rw [if_pos rfl, mem_upsertAttempt, h.attempts]
      constructor
      · rintro (rfl | ⟨⟨hmem, hid⟩, hne⟩)
        · exact ⟨.inl rfl, rfl⟩
        · exact ⟨.inr ⟨hmem, hne⟩, hid⟩
      · rintro ⟨rfl | ⟨hmem, hne⟩, hid⟩
        · exact .inl rfl
        · exact .inr ⟨⟨hmem, hid⟩, hne⟩
    · rw [if_neg hjob, h.attempts]
      constructor
      · rintro ⟨hmem, rfl⟩
        exact ⟨.inr ⟨hmem, fun heq => hjob (hown a hmem heq)⟩, rfl⟩
      · rintro ⟨rfl | ⟨hmem, -⟩, hid⟩
        · exact absurd hid.symm hjob
        · exact ⟨hmem, hid⟩
  leases := h.leases
  inverse := h.inverse

/-- A lease under an unused id for a job without one, or a renewal, is written alike. -/
theorem saveLease (hgrant : Grantable s lease) :
    SameContents (s.saveLease lease) { q with leases := q.leases.upsert lease } where
  jobs := h.jobs
  attempts := h.attempts
  leases jobId l := by
    rw [h.inverse.get?_leasesByJob_saveLease hgrant, mem_upsert]
    by_cases hjob : jobId = lease.jobId
    · subst hjob
      rw [if_pos rfl, some.injEq]
      constructor
      · rintro rfl
        exact ⟨.inl rfl, rfl⟩
      · rintro ⟨rfl | ⟨hmem, hne⟩, hid⟩
        · rfl
        · -- the job's own lease has the id that is overwritten
          exact absurd (hgrant.2 l ((h.leases lease.jobId l).mpr ⟨hmem, hid⟩)) hne
    · rw [if_neg hjob, h.leases]
      constructor
      · rintro ⟨hmem, rfl⟩
        refine ⟨.inr ⟨hmem, fun heq => hjob ?_⟩, rfl⟩
        exact hgrant.1 l.jobId l ((h.leases l.jobId l).mpr ⟨hmem, rfl⟩) heq
      · rintro ⟨rfl | ⟨hmem, -⟩, hid⟩
        · exact absurd hid.symm hjob
        · exact ⟨hmem, hid⟩
  inverse := h.inverse.saveLease hgrant

theorem deleteLease (leaseId : String) :
    SameContents (s.deleteLease leaseId).2 (q.deleteLease leaseId).2 where
  jobs jobId := by rw [jobs_deleteLease]; exact h.jobs jobId
  attempts jobId a := by rw [attemptsOf_deleteLease]; exact h.attempts jobId a
  leases jobId l := by
    change _ ↔ l ∈ q.leases.delete [leaseId] ∧ _
    rw [mem_delete, mem_singleton]
    cases hid : s.leaseIdToJob.get? leaseId with
    | none =>
      have hrow := h.leaseId_free.mp hid
      simp only [Store.deleteLease, hid, h.leases]
      refine and_congr_left fun _ => ⟨fun hmem => ⟨hmem, ?_⟩, And.left⟩
      rintro rfl
      rw [mem_iff, hrow] at hmem
      cases hmem
    | some owner =>
      obtain ⟨held, hheld, rfl⟩ := (h.inverse _ _).mp hid
      rw [h.inverse.get?_leasesByJob_deleteLease hheld]
      have hrow := ((h.leases owner held).mp hheld)
      split_ifs with hjob
      · subst hjob
        simp only [reduceCtorEq, false_iff]
        rintro ⟨⟨hmem, hne⟩, hl⟩
        have hsame := (h.leases jobId l).mpr ⟨hmem, hl⟩
        exact hne (congrArg _ (mem_unique hsame hheld))
      · rw [h.leases]
        refine and_congr_left fun hl => ⟨fun hmem => ⟨hmem, fun heq => ?_⟩, And.left⟩
        obtain rfl := eq_of_key_eq hmem hrow.1 heq
        exact hjob (hl.symm.trans hrow.2)
  inverse := h.inverse.deleteLease leaseId

theorem deleteLease_count (leaseId : String) :
    (s.deleteLease leaseId).1 = (q.deleteLease leaseId).1 := by
  change _ = q.leases.countOf [leaseId]
  rw [countOf_singleton]
  cases hid : s.leaseIdToJob.get? leaseId with
  | none => simp [Store.deleteLease, hid, h.leaseId_free.mp hid]
  | some owner =>
    have hrow : q.leases.get? leaseId ≠ none := fun hnone => by
      rw [h.leaseId_free.mpr hnone] at hid
      cases hid
    simp [Store.deleteLease, hid, isSome_iff_ne_none, hrow]

/-! ### Selects -/

variable (engine : Engine) {current : AttemptRecord} {renewed : LeaseRecord}

theorem leaseOf (jobId : String) :
    q.leaseOf engine jobId = s.leasesByJob.get? jobId := by
  refine SqlStore.head?_scan engine fun l => ?_
  rw [mem_filter, mem_list, decide_eq_true_eq, h.leases]

theorem leaseOfClaim (args : TransitionArgs) :
    q.leaseOfClaim engine args = (s.leasesByJob.get? args.jobId).filter fun l =>
      l.workerId = args.workerId ∧ l.attemptId = args.attemptId := by
  refine SqlStore.head?_scan engine fun l => ?_
  rw [mem_filter, mem_list, decide_eq_true_eq, filter_eq_some_iff, h.leases,
    decide_eq_true_eq, and_assoc]

/-- The attempts of a job are the rows that name it. -/
theorem mem_attemptRows {a : AttemptRecord} :
    a ∈ q.attempts.list.filter (fun attempt => attempt.jobId = j) ↔ a ∈ s.attemptsOf j := by
  rw [mem_filter, mem_list, decide_eq_true_eq, h.attempts]

/-- The largest number finds the same attempt in both, where one attempt only has it. -/
theorem latestAttempt
    (hcurrent : latestAttemptOf (s.attemptsOf j) = some current)
    (hunique : ∀ a ∈ s.attemptsOf j, a.attemptNumber = current.attemptNumber → a = current) :
    q.latestAttempt engine j = some current := by
  have hmem := mem_of_latestAttemptOf hcurrent
  cases hfirst : q.latestAttempt engine j with
  | none =>
    have hempty := (SqlStore.firstBy_eq_none_iff engine).mp hfirst
    have hrow := h.mem_attemptRows.mpr hmem
    rw [hempty] at hrow
    cases hrow
  | some a =>
    obtain ⟨ha, hmax⟩ := SqlStore.firstBy_eq_some engine hfirst
    have hle : current.attemptNumber ≤ a.attemptNumber :=
      OrderDual.toDual_le_toDual.mp (hmax current (h.mem_attemptRows.mpr hmem))
    have hstored := h.mem_attemptRows.mp ha
    rw [hunique a hstored (le_antisymm (le_latestAttemptOf hcurrent hstored) hle)]

theorem latestAttempt_eq_none (hnone : latestAttemptOf (s.attemptsOf j) = none) :
    q.latestAttempt engine j = none := by
  have hempty : s.attemptsOf j = [] := by
    have hlength := congrArg length (getLast?_eq_none_iff.mp hnone)
    rw [sortedAttempts, length_insertionSort] at hlength
    exact length_eq_zero_iff.mp hlength
  refine (SqlStore.firstBy_eq_none_iff engine).mpr (eq_nil_iff_forall_not_mem.mpr fun a ha => ?_)
  have hmem := h.mem_attemptRows.mp ha
  rw [hempty] at hmem
  cases hmem

/-- The queued jobs of the types are the rows that a worker of these types selects from. -/
theorem mem_queuedJobs :
    job ∈ q.queuedJobs jobTypes ↔ s.jobs.get? job.jobId = some job ∧
      job.lifecycleStatus = .queued ∧ s.hasType jobTypes job.jobId := by
  rw [SqlStore.queuedJobs, mem_filter, mem_list, mem_iff, h.jobs,
    decide_eq_true_eq]
  refine and_congr_right fun hjob => and_congr_right fun _ => ?_
  rw [← h.jobs] at hjob
  cases jobTypes <;> simp [Store.hasType, hjob]

/-! ### Claims -/

/-- The attempt that would be claimed is the only one of its number, and the id of its lease is
free. -/
def ClaimClear (s : Store) (jobId : String) : Prop :=
  ∀ job current, s.runnable jobId = some (job, current) →
    (∀ a ∈ s.attemptsOf jobId, a.attemptNumber = current.attemptNumber → a = current) ∧
      s.leaseIdToJob.get? (leaseIdOf job.jobId current.attemptNumber) = none

/-- A queued job that cannot be claimed is left alone by both. -/
theorem claim_of_not_runnable (args : ClaimArgs)
    (hjob : s.jobs.get? j = some job) (hqueued : job.lifecycleStatus = .queued)
    (hrun : s.runnable j = none) : q.claim engine args job = (.ok none, q) := by
  have hid := h.jobId_of_get? hjob
  subst hid
  unfold SqlStore.claim
  rw [h.leaseOf engine]
  cases hlease : s.leasesByJob.get? job.jobId with
  | some lease => rfl
  | none =>
    have hlatest : latestAttemptOf (s.attemptsOf job.jobId) = none := by
      simpa [Store.runnable, hjob, hqueued, hlease] using hrun
    rw [h.latestAttempt_eq_none engine hlatest]

/-- A job that can be claimed is claimed alike by both. -/
theorem claim_of_runnable (args : ClaimArgs)
    (hrun : s.runnable j = some (job, current)) (hclear : ClaimClear s j) :
    (q.claim engine args job).1 = .ok (some (claimRecord args job current)) ∧
      SameContents (s.recordClaim (claimRecord args job current)) (q.claim engine args job).2 := by
  obtain ⟨hjob, -, hlease, hlatest⟩ := runnable_eq_some hrun
  obtain ⟨hunique, hfree⟩ := hclear job current hrun
  have hid := h.jobId_of_get? hjob
  subst hid
  have hrow : q.leases.get? (claimRecord args job current).lease.leaseId = none :=
    h.leaseId_free.mp hfree
  have hclaim : q.claim engine args job = (.ok (some (claimRecord args job current)), { q with
      jobs := q.jobs.upsert (claimRecord args job current).job
      attempts := q.attempts.upsert (claimRecord args job current).attempt
      leases := q.leases.upsert (claimRecord args job current).lease }) := by
    unfold SqlStore.claim
    rw [h.leaseOf engine, hlease]
    rw [h.latestAttempt engine hlatest hunique]
    simp only [hrow, isSome_none, Bool.false_eq_true, if_false]
  rw [hclaim]
  refine ⟨rfl, ?_⟩
  obtain ⟨hcurrent, hcurrentId⟩ := (h.attempts job.jobId current).mp (mem_of_latestAttemptOf hlatest)
  have hattempt : SameContents (s.saveAttempt (claimRecord args job current).attempt)
      { q with attempts := q.attempts.upsert (claimRecord args job current).attempt } :=
    h.saveAttempt fun a ha heq => by rw [eq_of_key_eq ha hcurrent heq]; rfl
  have hgrant : Grantable ((s.saveAttempt (claimRecord args job current).attempt).saveJob
      (claimRecord args job current).job) (claimRecord args job current).lease := by
    constructor
    · intro k held hheld heq
      have hused := (h.inverse _ _).mpr ⟨held, hheld, heq⟩
      have hclash : none = some k := hfree.symm.trans hused
      cases hclash
    · intro held hheld
      have hclash : none = some held := hlease.symm.trans hheld
      cases hclash
  exact (hattempt.saveJob _).saveLease hgrant

theorem claimRunnableJobById (args : ClaimArgs) (hclear : ClaimClear s j) :
    (q.claimRunnableJobById engine j args).1 = .ok (s.claimRunnableJobById j args).1 ∧
      SameContents (s.claimRunnableJobById j args).2 (q.claimRunnableJobById engine j args).2 := by
  unfold SqlStore.claimRunnableJobById Store.claimRunnableJobById
  rw [← h.jobs j]
  cases hrun : s.runnable j with
  | none =>
    cases hjob : s.jobs.get? j with
    | none => exact ⟨rfl, h⟩
    | some job =>
      dsimp only
      split_ifs with hstatus
      · exact ⟨rfl, h⟩
      · rw [h.claim_of_not_runnable engine args hjob (not_not.mp hstatus) hrun]
        exact ⟨rfl, h⟩
  | some found =>
    obtain ⟨job, current⟩ := found
    obtain ⟨hjob, hqueued, -, -⟩ := runnable_eq_some hrun
    simp only [hjob, hqueued, ne_eq, not_true_eq_false, if_false]
    exact h.claim_of_runnable engine args hrun hclear

/-- The job was submitted before all other queued jobs of the types. -/
def OldestQueued (s : Store) (jobTypes : Option (List String)) (jobId : String) : Prop :=
  ∃ job, s.jobs.get? jobId = some job ∧ s.hasType jobTypes jobId ∧
    ∀ k other, s.jobs.get? k = some other → other.lifecycleStatus = .queued →
      s.hasType jobTypes k → k ≠ jobId → job.submittedAt < other.submittedAt

/-- No queued job of the types can be claimed, or the oldest can. -/
def HeadClear (s : Store) (jobTypes : Option (List String)) : Prop :=
  (∀ k, s.hasType jobTypes k → s.runnable k = none) ∨
    ∃ k, OldestQueued s jobTypes k ∧ (s.runnable k).isSome ∧ ClaimClear s k

theorem claimNextRunnableJob_of_none (args : ClaimArgs)
    (hnone : ∀ k, s.hasType jobTypes k → s.runnable k = none) :
    s.claimNextRunnableJob jobTypes args = (none, s) ∧
      q.claimNextRunnableJob engine jobTypes args = (.ok none, q) := by
  constructor
  · unfold Store.claimNextRunnableJob
    have hfind : s.jobIdsBySubmission.find? (fun jobId =>
        s.hasType jobTypes jobId && (s.runnable jobId).isSome) = none := by
      rw [find?_eq_none]
      intro k _ hk
      rw [Bool.and_eq_true, isSome_iff_ne_none] at hk
      exact hk.2 (hnone k hk.1)
    rw [hfind]
  · unfold SqlStore.claimNextRunnableJob
    cases hfirst : SqlStore.firstBy engine JobRecord.submittedAt (q.queuedJobs jobTypes) with
    | none => rfl
    | some job =>
      obtain ⟨hjob, hqueued, htype⟩ :=
        h.mem_queuedJobs.mp (SqlStore.firstBy_eq_some engine hfirst).1
      exact h.claim_of_not_runnable engine args hjob hqueued (hnone _ htype)

/-- The oldest queued job is the one that both look at first. -/
theorem claimNextRunnableJob_of_oldest (args : ClaimArgs)
    (hold : OldestQueued s jobTypes j) (hrun : (s.runnable j).isSome) :
    s.claimNextRunnableJob jobTypes args = s.claimRunnableJobById j args ∧
      q.claimNextRunnableJob engine jobTypes args = q.claimRunnableJobById engine j args := by
  obtain ⟨job, hjob, htype, holdest⟩ := hold
  obtain ⟨⟨found, current⟩, hfound⟩ := isSome_iff_exists.mp hrun
  obtain ⟨hget, hqueued, -, -⟩ := runnable_eq_some hfound
  obtain rfl := mem_unique hget hjob
  constructor
  · unfold Store.claimNextRunnableJob
    cases hfind : s.jobIdsBySubmission.find? (fun jobId =>
        s.hasType jobTypes jobId && (s.runnable jobId).isSome) with
    | none =>
      have hnot := find?_eq_none.mp hfind j (mem_jobIdsBySubmission hjob)
      simp [htype, hrun] at hnot
    | some k =>
      have hk := find?_some hfind
      rw [Bool.and_eq_true] at hk
      obtain ⟨⟨other, later⟩, hother⟩ := isSome_iff_exists.mp hk.2
      obtain ⟨hgetk, hqueuedk, -, -⟩ := runnable_eq_some hother
      rcases rel_of_find? (pairwise_jobIdsBySubmission s) hfind (mem_jobIdsBySubmission hjob)
        (by simp [htype, hrun]) with rfl | hle
      · rfl
      · by_cases hne : k = j
        · rw [hne]
        · exact absurd (hle other found hgetk hjob)
            (not_le_of_gt (holdest k other hgetk hqueuedk hk.1 hne))
  · unfold SqlStore.claimNextRunnableJob SqlStore.claimRunnableJobById
    have hid := h.jobId_of_get? hjob
    subst hid
    have hrow : found ∈ q.queuedJobs jobTypes := h.mem_queuedJobs.mpr ⟨hjob, hqueued, htype⟩
    cases hfirst : SqlStore.firstBy engine JobRecord.submittedAt (q.queuedJobs jobTypes) with
    | none =>
      rw [(SqlStore.firstBy_eq_none_iff engine).mp hfirst] at hrow
      cases hrow
    | some other =>
      obtain ⟨hmem, hmin⟩ := SqlStore.firstBy_eq_some engine hfirst
      obtain ⟨hother, hqueued', htype'⟩ := h.mem_queuedJobs.mp hmem
      have hsame : other = found := by
        by_contra hne
        have hids : other.jobId ≠ found.jobId := fun heq =>
          hne (mem_unique hother (heq ▸ hjob))
        exact absurd (hmin found hrow) (not_le_of_gt (holdest _ other hother hqueued' htype' hids))
      subst hsame
      rw [← h.jobs, hjob]
      simp [hqueued]

theorem claimNextRunnableJob (args : ClaimArgs) (hclear : HeadClear s jobTypes) :
    (q.claimNextRunnableJob engine jobTypes args).1 = .ok (s.claimNextRunnableJob jobTypes args).1 ∧
      SameContents (s.claimNextRunnableJob jobTypes args).2
        (q.claimNextRunnableJob engine jobTypes args).2 := by
  rcases hclear with hnone | ⟨k, hold, hrun, hclaim⟩
  · obtain ⟨hs, hq⟩ := h.claimNextRunnableJob_of_none engine args hnone
    rw [hs, hq]
    exact ⟨rfl, h⟩
  · obtain ⟨hs, hq⟩ := h.claimNextRunnableJob_of_oldest engine args hold hrun
    rw [hs, hq]
    exact h.claimRunnableJobById engine args hclaim

/-- A clear queue with a job that can be claimed is served by both. -/
theorem claimNextRunnableJob_isSome (args : ClaimArgs)
    (hclear : HeadClear s jobTypes) (htype : s.hasType jobTypes j) (hrun : (s.runnable j).isSome) :
    ∃ claim, (s.claimNextRunnableJob jobTypes args).1 = some claim ∧
      (q.claimNextRunnableJob engine jobTypes args).1 = .ok (some claim) := by
  have hagree := (h.claimNextRunnableJob engine args hclear).1
  rcases hclear with hnone | ⟨k, hold, hrunk, -⟩
  · rw [hnone j htype] at hrun
    cases hrun
  · obtain ⟨hs, -⟩ := h.claimNextRunnableJob_of_oldest engine args hold hrunk
    obtain ⟨⟨job, current⟩, hfound⟩ := isSome_iff_exists.mp hrunk
    have hclaim : (s.claimNextRunnableJob jobTypes args).1 =
        some (claimRecord args job current) := by
      rw [hs]
      simp only [Store.claimRunnableJobById, hfound]
    exact ⟨_, hclaim, hagree.trans (congrArg _ hclaim)⟩

/-! ### Transitions of a current claim -/

/-- The artifact table is not part of the contents. -/
theorem withArtifactIds (ids : List String) :
    SameContents s { q with artifactIds := ids } :=
  ⟨h.jobs, h.attempts, h.leases, h.inverse⟩

/-- A time is given; and if the claim is current, its attempt is one of the job, the message is not
the empty text, the lease can be extended, and what is inserted is new. -/
def TransitionClear (s : Store) (q : SqlStore) (args : TransitionArgs) : Prop :=
  ∃ now, args.nowFactory.or args.now = some now ∧
    ∀ lease attempt job, s.currentClaim args now = some (lease, attempt, job) →
      attempt.jobId = args.jobId ∧ args.jobMessage ≠ some "" ∧
        SqlStore.extensionRaises args now = false ∧
        q.insertConflicts (successorAttempt args job) args.terminalArtifact = false

omit h in
theorem transitionedJob_eq (hmessage : args.jobMessage ≠ some "") (job : JobRecord) :
    SqlStore.transitionedJob args job = transitionedJob args job := by
  unfold SqlStore.transitionedJob Store.transitionedJob
  cases hjob : args.jobMessage with
  | none => rfl
  | some message =>
    have hne : message ≠ "" := fun heq => hmessage (by rw [hjob, heq])
    simp [hne]

/-- A claim that is not current in memory is refused by the database. -/
theorem transition_of_none (hnow : args.nowFactory.or args.now = some now)
    (hclaim : s.currentClaim args now = none) :
    q.transitionCurrentClaim engine args = (.ok none, q) := by
  unfold SqlStore.transitionCurrentClaim
  rw [h.leaseOfClaim engine, ← h.jobs, ← h.getAttempt, hnow]
  unfold Store.currentClaim at hclaim
  cases hlease : s.leasesByJob.get? args.jobId with
  | none => rfl
  | some lease =>
    cases hjob : s.jobs.get? args.jobId with
    | none => split <;> simp_all
    | some job =>
      cases hattempt : s.getAttempt args.attemptId with
      | none => split <;> simp_all
      | some attempt =>
        simp only [hlease, hjob, hattempt] at hclaim
        split_ifs at hclaim with hguard
        by_cases hown : lease.workerId = args.workerId ∧ lease.attemptId = args.attemptId
        · have hrest : lease.leaseExpiresAt ≤ now ∨ job.lifecycleStatus.isActive = false := by
            tauto
          simp only [filter_some, hown, and_self, decide_true, if_true]
          split_ifs <;> first | rfl | tauto
        · simp [filter_some, hown]

/-- The lease of a job is renewed under its own id, or deleted, by both. -/
theorem replaceLease (hlease : s.leasesByJob.get? j = some lease) :
    SameContents (match transitionedLease extendLease args now lease with
        | none => (s.deleteLease lease.leaseId).2
        | some renewed => s.saveLease renewed)
      { q with
        leases := (transitionedLease extendLease args now lease).elim
          (q.leases.delete [lease.leaseId]) q.leases.upsert } := by
  cases hrenewed : transitionedLease extendLease args now lease with
  | none => exact h.deleteLease lease.leaseId
  | some renewed =>
    obtain ⟨expiry, rfl⟩ := transitionedLease_eq_some hrenewed
    obtain ⟨hrow, hlj⟩ := (h.leases j lease).mp hlease
    refine h.saveLease ⟨fun k held hheld heq => ?_, fun held hheld => ?_⟩
    · obtain ⟨hrow', hk⟩ := (h.leases k held).mp hheld
      obtain rfl := eq_of_key_eq hrow' hrow heq
      exact hk.symm
    · rw [mem_unique hheld (hlj ▸ hlease)]

omit h in
/-- The successor's id is new, also once the attempt is written. -/
theorem next_is_new {next updated : AttemptRecord} (hnew : q.attempts.get? next.attemptId = none)
    (hupdated : (q.attempts.get? updated.attemptId).isSome) :
    ∀ a ∈ q.attempts.upsert updated, a.attemptId = next.attemptId → a.jobId = next.jobId := by
  intro a ha heq
  rcases mem_upsert.mp ha with rfl | ⟨ha, -⟩
  · rw [heq, hnew] at hupdated
    cases hupdated
  · rw [mem_iff, heq, hnew] at ha
    cases ha

/-- A current claim is transitioned alike by both. -/
theorem transition_of_some {attempt : AttemptRecord} (hnow : args.nowFactory.or args.now = some now)
    (hclaim : s.currentClaim args now = some (lease, attempt, job))
    (hattemptJob : attempt.jobId = args.jobId) (hmessage : args.jobMessage ≠ some "")
    (hextension : SqlStore.extensionRaises args now = false)
    (hinsert : q.insertConflicts (successorAttempt args job) args.terminalArtifact = false) :
    (s.transitionOrRaise args).1 = (q.transitionCurrentClaim engine args).1 ∧
      SameContents (s.transitionOrRaise args).2 (q.transitionCurrentClaim engine args).2 := by
  obtain ⟨hlease, hattempt, hjob, hworker, hattemptId, hexpiry, hactive⟩ :=
    currentClaim_eq_some hclaim
  have hjobId := h.jobId_of_get? hjob
  set updatedAttempt := transitionedAttempt args now attempt with hupdated
  set updatedLease := transitionedLease extendLease args now lease with hrenewed
  have hq : q.transitionCurrentClaim engine args = (.ok (some ⟨transitionedJob args job,
      updatedAttempt, updatedLease, successorAttempt args job⟩),
      q.recordTransition lease ⟨transitionedJob args job, updatedAttempt, updatedLease,
        successorAttempt args job⟩ args.terminalArtifact) := by
    unfold SqlStore.transitionCurrentClaim
    rw [h.leaseOfClaim engine, ← h.jobs, ← h.getAttempt, hnow, hlease, hjob, hattempt]
    simp only [filter_some, hworker, hattemptId, and_self, decide_true, if_true, hactive,
      hattemptJob, ne_eq, not_true_eq_false, or_false, Bool.true_eq_false, if_false, hexpiry,
      hextension, Bool.false_eq_true, hinsert, transitionedJob_eq hmessage, ← hupdated, ← hrenewed]
  have hs : s.transitionOrRaise args = (.ok (some ⟨transitionedJob args job, updatedAttempt,
      updatedLease, successorAttempt args job⟩), (s.transitionCurrentClaim extendLease args).2) := by
    unfold Store.transitionOrRaise Store.transitionCurrentClaim
    simp only [hnow, hclaim, hextension, Bool.false_eq_true, if_false]
    rfl
  rw [hs, hq]
  refine ⟨rfl, ?_⟩
  -- the attempt and the job
  have hrow : q.attempts.get? args.attemptId = some attempt := h.getAttempt _ ▸ hattempt
  have hkey : updatedAttempt.attemptId = args.attemptId :=
    show attempt.attemptId = _ from key_of_get? hrow
  have hattempts : SameContents (s.saveAttempt updatedAttempt)
      { q with attempts := q.attempts.upsert updatedAttempt } := by
    refine h.saveAttempt fun a ha heq => ?_
    rw [mem_iff, heq, hkey, hrow] at ha
    rw [← some.inj ha]
    rfl
  have hsaved := hattempts.saveJob (transitionedJob args job)
  have hfinal : SameContents (s.transitionCurrentClaim extendLease args).2
      { jobs := q.jobs.upsert (transitionedJob args job)
        attempts := (successorAttempt args job).elim (q.attempts.upsert updatedAttempt)
          (q.attempts.upsert updatedAttempt).upsert
        leases := updatedLease.elim (q.leases.delete [lease.leaseId]) q.leases.upsert
        artifactIds := q.artifactIds } := by
    unfold Store.transitionCurrentClaim
    simp only [hnow, hclaim, ← hupdated, ← hrenewed]
    cases hnext : successorAttempt args job with
    | none => exact hsaved.replaceLease hlease
    | some next =>
      have hnew : q.attempts.get? next.attemptId = none := by
        simp only [SqlStore.insertConflicts, hnext, decide_eq_false_iff_not, not_or] at hinsert
        simpa using hinsert.1
      have hqueued := hsaved.saveAttempt (next_is_new hnew (by rw [hkey, hrow]; rfl))
      exact hqueued.replaceLease hlease
  exact hfinal.withArtifactIds _

theorem transitionCurrentClaim (hclear : TransitionClear s q args) :
    (s.transitionOrRaise args).1 = (q.transitionCurrentClaim engine args).1 ∧
      SameContents (s.transitionOrRaise args).2 (q.transitionCurrentClaim engine args).2 := by
  obtain ⟨now, hnow, hcurrent⟩ := hclear
  cases hclaim : s.currentClaim args now with
  | none =>
    rw [h.transition_of_none engine hnow hclaim]
    unfold Store.transitionOrRaise
    simp only [hnow, hclaim]
    exact ⟨trivial, h⟩
  | some claim =>
    obtain ⟨lease, attempt, job⟩ := claim
    obtain ⟨hjob, hmessage, hextension, hinsert⟩ := hcurrent lease attempt job hclaim
    exact h.transition_of_some engine hnow hclaim hjob hmessage hextension hinsert

/-! ### Recovery -/

/-- A time is given, and the id of the attempt that a recovery queues is new. -/
def RecoveryClear (s : Store) (args : RecoveryArgs) : Prop :=
  ∃ recoveredAt, args.nowFactory.or args.recoveredAt = some recoveredAt ∧
    ∀ lease attempt job, s.expiredClaim args.jobId recoveredAt = some (lease, attempt, job) →
      s.getAttempt (attemptIdOf job.jobId (job.attemptCount + 1)) = none

/-- A claim that has not expired in memory is left alone by the database. -/
theorem recovery_of_none {args : RecoveryArgs} {recoveredAt : String}
    (hnow : args.nowFactory.or args.recoveredAt = some recoveredAt)
    (hclaim : s.expiredClaim args.jobId recoveredAt = none) :
    q.recoverExpiredClaim engine args = (.ok none, q) := by
  unfold SqlStore.recoverExpiredClaim
  rw [h.leaseOf engine, ← h.jobs, hnow]
  unfold Store.expiredClaim at hclaim
  cases hlease : s.leasesByJob.get? args.jobId with
  | none => rfl
  | some lease =>
    cases hjob : s.jobs.get? args.jobId with
    | none => rfl
    | some job =>
      simp only [hlease, hjob] at hclaim
      dsimp only
      rw [← h.getAttempt]
      cases hattempt : s.getAttempt lease.attemptId with
      | none => rfl
      | some attempt =>
        simp only [hattempt, map_some] at hclaim
        split_ifs at hclaim with hguard
        split_ifs <;> first | rfl | tauto

theorem recoverExpiredClaim {args : RecoveryArgs} (hclear : RecoveryClear s args) :
    (s.recoverExpiredClaim args).1.mapError AdapterError.valueError =
        (q.recoverExpiredClaim engine args).1 ∧
      SameContents (s.recoverExpiredClaim args).2 (q.recoverExpiredClaim engine args).2 := by
  obtain ⟨recoveredAt, hnow, hexpired⟩ := hclear
  cases hclaim : s.expiredClaim args.jobId recoveredAt with
  | none =>
    rw [h.recovery_of_none engine hnow hclaim]
    unfold Store.recoverExpiredClaim
    simp only [hnow, hclaim]
    exact ⟨rfl, h⟩
  | some claim =>
    obtain ⟨lease, attempt, job⟩ := claim
    obtain ⟨hlease, hattempt, hjob, hexpiry, hactive⟩ := expiredClaim_eq_some hclaim
    have hnew : q.attempts.get? (attemptIdOf job.jobId (job.attemptCount + 1)) = none := by
      rw [← h.getAttempt]
      exact hexpired lease attempt job hclaim
    have hrow : q.attempts.get? lease.attemptId = some attempt := h.getAttempt _ ▸ hattempt
    unfold SqlStore.recoverExpiredClaim Store.recoverExpiredClaim
    rw [h.leaseOf engine, ← h.jobs, hlease, hjob]
    simp only [hnow, hclaim, hrow, hactive, Bool.true_eq_false, if_false, hexpiry,
      queuedAttempt, hnew, isSome_none, Bool.false_eq_true]
    refine ⟨rfl, ?_⟩
    let abandoned := SqlStore.abandonedAttempt lease recoveredAt attempt
    let next := queuedAttempt job.jobId (job.attemptCount + 1) args.nextAttemptMessage
    have hkey : abandoned.attemptId = lease.attemptId :=
      show attempt.attemptId = _ from key_of_get? hrow
    have hattempts : SameContents (s.saveAttempt abandoned)
        { q with attempts := q.attempts.upsert abandoned } := by
      refine h.saveAttempt fun a ha heq => ?_
      rw [mem_iff, heq, hkey, hrow] at ha
      rw [← some.inj ha]
      rfl
    have hnext : ∀ a ∈ q.attempts.upsert abandoned, a.attemptId = next.attemptId →
        a.jobId = next.jobId := next_is_new hnew (by rw [hkey, hrow]; rfl)
    have hqueued := hattempts.saveAttempt hnext
    exact (hqueued.saveJob _).deleteLease lease.leaseId

end SameContents

/-! ### Runs -/

open SameContents

/-- A call that meets none of the differences between the adapters. -/
def AdapterCall.Clear (s : Store) (q : SqlStore) : AdapterCall → Prop
  | .claimNextRunnableJob jobTypes _ => HeadClear s jobTypes
  | .claimRunnableJobById jobId _ => ClaimClear s jobId
  | .transitionCurrentClaim args => TransitionClear s q args
  | .recoverExpiredClaim args => RecoveryClear s args
  | .deleteLease _ => True

/-- A job of the types is queued, has an attempt and no lease. -/
def HasRunnable (s : Store) (jobTypes : Option (List String)) : Prop :=
  ∃ jobId, s.hasType jobTypes jobId ∧ (s.runnable jobId).isSome

/-- A worker that asks for a job while one can be claimed gets one from either adapter. -/
def AdapterCall.Serves (engine : Engine) (s : Store) (q : SqlStore) : AdapterCall → Prop
  | .claimNextRunnableJob jobTypes args => HasRunnable s jobTypes →
    (∃ claim, (s.claimNextRunnableJob jobTypes args).1 = some claim) ∧
      ∃ claim, (q.claimNextRunnableJob engine jobTypes args).1 = .ok (some claim)
  | _ => True

/-- Calls one after the other on the in-memory store. -/
def Store.answers (s : Store) : List AdapterCall → List AdapterResult × Store
  | [] => ([], s)
  | call :: calls =>
    ((s.answer call).1 :: ((s.answer call).2.answers calls).1, ((s.answer call).2.answers calls).2)

/-- Calls one after the other on the SQL store. -/
def SqlStore.answers (engine : Engine) (q : SqlStore) :
    List AdapterCall → List AdapterResult × SqlStore
  | [] => ([], q)
  | call :: calls =>
    ((q.answer engine call).1 :: ((q.answer engine call).2.answers engine calls).1,
      ((q.answer engine call).2.answers engine calls).2)

def RunServes (engine : Engine) (s : Store) (q : SqlStore) : List AdapterCall → Prop
  | [] => True
  | call :: calls => call.Serves engine s q ∧
    RunServes engine (s.answer call).2 (q.answer engine call).2 calls

def ClearRun (engine : Engine) (s : Store) (q : SqlStore) : List AdapterCall → Prop
  | [] => True
  | call :: calls => call.Clear s q ∧
    ClearRun engine (s.answer call).2 (q.answer engine call).2 calls

/-- The adapters return the same, end with the same contents, and serve every worker. -/
structure AdaptersAgree (engine : Engine) (s : Store) (q : SqlStore) (calls : List AdapterCall) :
    Prop where
  results : (s.answers calls).1 = (q.answers engine calls).1
  contents : SameContents (s.answers calls).2 (q.answers engine calls).2
  served : RunServes engine s q calls

variable (engine : Engine) {s : Store} {q : SqlStore} {call : AdapterCall}

/-- A clear call is answered alike. -/
theorem SameContents.answer (h : SameContents s q) (hclear : call.Clear s q) :
    (s.answer call).1 = (q.answer engine call).1 ∧
      SameContents (s.answer call).2 (q.answer engine call).2 := by
  cases call with
  | claimNextRunnableJob jobTypes args =>
    obtain ⟨hresult, hcontents⟩ := h.claimNextRunnableJob engine args hclear
    exact ⟨congrArg AdapterResult.claim hresult.symm, hcontents⟩
  | claimRunnableJobById jobId args =>
    obtain ⟨hresult, hcontents⟩ := h.claimRunnableJobById engine args hclear
    exact ⟨congrArg AdapterResult.claim hresult.symm, hcontents⟩
  | transitionCurrentClaim args =>
    obtain ⟨hresult, hcontents⟩ := h.transitionCurrentClaim engine hclear
    exact ⟨congrArg AdapterResult.transition hresult, hcontents⟩
  | recoverExpiredClaim args =>
    obtain ⟨hresult, hcontents⟩ := h.recoverExpiredClaim engine hclear
    exact ⟨congrArg AdapterResult.recovery hresult, hcontents⟩
  | deleteLease leaseId =>
    exact ⟨congrArg AdapterResult.deleted (h.deleteLease_count leaseId), h.deleteLease leaseId⟩

theorem SameContents.serves (h : SameContents s q)
    (hclear : call.Clear s q) : call.Serves engine s q := by
  cases call with
  | claimNextRunnableJob jobTypes args =>
    rintro ⟨jobId, htype, hrun⟩
    obtain ⟨claim, hs, hq⟩ := h.claimNextRunnableJob_isSome engine args hclear htype hrun
    exact ⟨⟨claim, hs⟩, claim, hq⟩
  | _ => trivial

/-- From the same contents, every run of calls that meet none of the differences is answered alike
by both adapters, and passes over no job that can be claimed. -/
theorem adapters_agree {calls : List AdapterCall} (h : SameContents s q)
    (hclear : ClearRun engine s q calls) : AdaptersAgree engine s q calls := by
  -- the contents are the invariant of the run
  induction calls generalizing s q with
  | nil => exact ⟨rfl, h, trivial⟩
  | cons call calls ih =>
    obtain ⟨hresult, hcontents⟩ := h.answer engine hclear.1
    obtain ⟨hresults, hfinal, hserved⟩ := ih hcontents hclear.2
    exact ⟨congrArg₂ List.cons hresult hresults, hfinal, h.serves engine hclear.1, hserved⟩

/-! ### A job without attempts at the head of the queue -/

/-- The tables of a new database. -/
def SqlStore.empty : SqlStore := ⟨.empty, .empty, .empty, []⟩

theorem SameContents.empty : SameContents Store.empty SqlStore.empty where
  jobs _ := rfl
  attempts jobId a := ⟨nofun, fun h => nomatch h.1⟩
  leases jobId l := ⟨nofun, fun h => nomatch h.1⟩
  inverse leaseId jobId := ⟨nofun, fun ⟨_, h, _⟩ => nomatch h⟩

/-- A database that returns rows as they are stored. -/
def storedOrder : Engine := ⟨id, fun _ => .refl _⟩

/-- A queued job that was submitted before the sample job. -/
def earlierJob : JobRecord :=
  { sampleSubmission.jobRecord with jobId := "earlier", submittedAt := "2026-01-05T08:00:00Z" }

/-- The rows of the sample job. -/
def submittedRows : SqlStore :=
  { SqlStore.empty with
    jobs := SqlStore.empty.jobs.upsert sampleSubmission.jobRecord
    attempts := SqlStore.empty.attempts.upsert sampleSubmission.attemptRecord }

theorem sameContents_submitted : SameContents submittedStore submittedRows :=
  (SameContents.empty.saveJob sampleSubmission.jobRecord).saveAttempt fun _ h => by cases h

/-- One worker takes the only job from either adapter. -/
theorem adapters_agree_on_the_sample :
    (submittedStore.claimNextRunnableJob none sampleClaim).1.isSome = true ∧
      AdaptersAgree storedOrder submittedStore submittedRows
        [.claimNextRunnableJob none sampleClaim] := by
  have honly : ∀ k job, submittedStore.jobs.get? k = some job → k = sampleSubmission.jobId := by
    intro k job hjob
    exact (sameContents_submitted.jobId_of_get? hjob).symm.trans (by
      rw [submittedStore, jobs_saveAttempt, get?_jobs_saveJob] at hjob
      split_ifs at hjob
      · rw [← Option.some.inj hjob]
        rfl
      · cases hjob)
  refine ⟨by decide +kernel, adapters_agree storedOrder sameContents_submitted ⟨.inr ?_, trivial⟩⟩
  refine ⟨sampleSubmission.jobId, ⟨_, rfl, rfl, ?_⟩, by decide +kernel, ?_⟩
  · intro k other hother _ _ hne
    exact absurd (honly k other hother) hne
  · intro job current hrun
    obtain ⟨-, -, -, hlatest⟩ := runnable_eq_some hrun
    have hcurrent := List.mem_singleton.mp (mem_of_latestAttemptOf hlatest)
    refine ⟨fun a ha _ => ?_, rfl⟩
    rw [List.mem_singleton.mp ha, hcurrent]

/-- A queued job without attempts, submitted first, hides the sample job from the SQL adapter: the
database answers that there is nothing to do, the in-memory store hands out the sample job. -/
theorem head_of_queue_starves_sql :
    SameContents (submittedStore.saveJob earlierJob)
        { submittedRows with jobs := submittedRows.jobs.upsert earlierJob } ∧
      ¬ AdaptersAgree storedOrder (submittedStore.saveJob earlierJob)
        { submittedRows with jobs := submittedRows.jobs.upsert earlierJob }
        [.claimNextRunnableJob none sampleClaim] := by
  refine ⟨sameContents_submitted.saveJob earlierJob, fun hagree => ?_⟩
  obtain ⟨claim, hclaim⟩ := (hagree.served.1
    ⟨sampleSubmission.jobId, by decide +kernel, by decide +kernel⟩).2
  have hnone : (SqlStore.claimNextRunnableJob storedOrder
      { submittedRows with jobs := submittedRows.jobs.upsert earlierJob } none sampleClaim).1 =
      .ok none := by rfl
  cases hclaim

end LotusAI.AsyncRuntime
