import LotusAI.AsyncRuntime.Store

/-!
# Coherence of the async store

What ties the four maps of the store together: which attempts a job has, which of
them a worker owns, and which lease says so. Coherence is stated for one job at a
time, so that an operation on one job need only look at that job; the two lease
maps are related separately.
-/

namespace LotusAI.AsyncRuntime

open Lib List Dict

/-! ### What single-record methods change -/

namespace Store

variable (s : Store) (r : AttemptRecord)

@[simp] theorem get?_jobs_saveJob (r : JobRecord) (j : String) :
    (s.saveJob r).jobs.get? j = if j = r.jobId then some r else s.jobs.get? j :=
  get?_insert ..

@[simp] theorem attemptsOf_saveJob (r : JobRecord) (j : String) :
    (s.saveJob r).attemptsOf j = s.attemptsOf j := rfl

@[simp] theorem leasesByJob_saveJob (r : JobRecord) :
    (s.saveJob r).leasesByJob = s.leasesByJob := rfl

@[simp] theorem leaseIdToJob_saveJob (r : JobRecord) :
    (s.saveJob r).leaseIdToJob = s.leaseIdToJob := rfl

@[simp] theorem jobs_saveAttempt : (s.saveAttempt r).jobs = s.jobs := rfl

@[simp] theorem attemptsOf_saveAttempt (j : String) :
    (s.saveAttempt r).attemptsOf j =
      if j = r.jobId then upsertAttempt r (s.attemptsOf j) else s.attemptsOf j := by
  by_cases h : j = r.jobId
  · subst h; simp [saveAttempt, attemptsOf]
  · simp [saveAttempt, attemptsOf, get?_insert_of_ne _ h, h]

@[simp] theorem leasesByJob_saveAttempt :
    (s.saveAttempt r).leasesByJob = s.leasesByJob := rfl

@[simp] theorem leaseIdToJob_saveAttempt :
    (s.saveAttempt r).leaseIdToJob = s.leaseIdToJob := rfl

@[simp] theorem jobs_saveLease (r : LeaseRecord) : (s.saveLease r).jobs = s.jobs := rfl

@[simp] theorem attemptsOf_saveLease (r : LeaseRecord) (j : String) :
    (s.saveLease r).attemptsOf j = s.attemptsOf j := rfl

@[simp] theorem jobs_deleteLease (leaseId : String) :
    (s.deleteLease leaseId).2.jobs = s.jobs := by
  unfold deleteLease; split <;> rfl

@[simp] theorem attemptsOf_deleteLease (leaseId j : String) :
    (s.deleteLease leaseId).2.attemptsOf j = s.attemptsOf j := by
  unfold deleteLease; split <;> rfl

/-- A found attempt is stored under some job and carries the id asked for. -/
theorem mem_of_getAttempt {s : Store} {attemptId : String} {a : AttemptRecord}
    (h : s.getAttempt attemptId = some a) :
    a.attemptId = attemptId ∧ ∃ j, a ∈ s.attemptsOf j := by
  obtain ⟨attempts, hmem, hfind⟩ := exists_of_findSome?_eq_some h
  obtain ⟨j, hj⟩ := mem_values_iff.mp hmem
  refine ⟨by simpa using find?_some hfind, j, ?_⟩
  rw [attemptsOf, hj]
  exact mem_of_find?_eq_some hfind

end Store

/-! ### The two lease maps -/

/-- A lease id points to the job that holds the lease of that id, and to no other. -/
def LeasesInverse (s : Store) : Prop :=
  ∀ leaseId j, s.leaseIdToJob.get? leaseId = some j ↔
    ∃ lease, s.leasesByJob.get? j = some lease ∧ lease.leaseId = leaseId

/-- A new lease under an unused id, or a renewal of the job's own lease. -/
def Grantable (s : Store) (lease : LeaseRecord) : Prop :=
  (∀ j held, s.leasesByJob.get? j = some held → held.leaseId = lease.leaseId → j = lease.jobId) ∧
  (∀ held, s.leasesByJob.get? lease.jobId = some held → held.leaseId = lease.leaseId)

variable {lease : LeaseRecord} {s : Store} {n : ℕ}

theorem LeasesInverse.get?_leasesByJob_saveLease
    (h : LeasesInverse s) (hgrant : Grantable s lease) (j : String) :
    (s.saveLease lease).leasesByJob.get? j =
      if j = lease.jobId then some lease else s.leasesByJob.get? j := by
  unfold Store.saveLease
  cases hid : s.leaseIdToJob.get? lease.leaseId with
  | none => simp [get?_insert]
  | some existing =>
    obtain ⟨held, hheld, heq⟩ := (h _ _).mp hid
    have hown : existing = lease.jobId := hgrant.1 existing held hheld heq
    simp [hown, get?_insert]

theorem LeasesInverse.saveLease (h : LeasesInverse s)
    (hgrant : Grantable s lease) : LeasesInverse (s.saveLease lease) := by
  intro leaseId j
  have hmap : (s.saveLease lease).leaseIdToJob.get? leaseId =
      if leaseId = lease.leaseId then some lease.jobId else s.leaseIdToJob.get? leaseId :=
    get?_insert ..
  rw [hmap, h.get?_leasesByJob_saveLease hgrant]
  by_cases hid : leaseId = lease.leaseId
  · subst hid
    by_cases hj : j = lease.jobId
    · simp [hj]
    · simp only [if_true, hj, if_false, Option.some.injEq, eq_comm (a := lease.jobId), false_iff]
      rintro ⟨held, hheld, heq⟩
      exact hj (hgrant.1 j held hheld heq)
  · by_cases hj : j = lease.jobId
    · subst hj
      simp only [hid, if_false, if_true, Option.some.injEq, exists_eq_left', h _ _]
      constructor
      · rintro ⟨held, hheld, heq⟩
        exact absurd (heq.symm.trans (hgrant.2 held hheld)) hid
      · rintro rfl
        exact absurd rfl hid
    · simp [hid, hj, h _ _]

theorem LeasesInverse.get?_leasesByJob_deleteLease {j : String}
    (h : LeasesInverse s) (hheld : s.leasesByJob.get? j = some lease) (k : String) :
    (s.deleteLease lease.leaseId).2.leasesByJob.get? k =
      if k = j then none else s.leasesByJob.get? k := by
  have hid : s.leaseIdToJob.get? lease.leaseId = some j := (h _ _).mpr ⟨lease, hheld, rfl⟩
  simp [Store.deleteLease, hid, get?_erase]

theorem LeasesInverse.deleteLease (h : LeasesInverse s) (leaseId : String) :
    LeasesInverse (s.deleteLease leaseId).2 := by
  cases hid : s.leaseIdToJob.get? leaseId with
  | none => simpa [Store.deleteLease, hid] using h
  | some owner =>
    obtain ⟨held, hheld, rfl⟩ := (h _ _).mp hid
    intro otherId j
    simp only [Store.deleteLease, hid, get?_erase]
    by_cases hj : j = owner
    · subst hj
      simp only [if_true, reduceCtorEq, false_and, exists_false, iff_false]
      split_ifs with hother
      · simp
      · intro hmap
        obtain ⟨held', hheld', rfl⟩ := (h _ _).mp hmap
        exact hother (by rw [Option.mem_unique hheld' hheld])
    · simp only [hj, if_false]
      split_ifs with hother
      · subst hother
        simp only [false_iff]
        intro hex
        exact hj (Option.some.inj (((h _ _).mpr hex).symm.trans hid))
      · exact h otherId j

namespace Store

/-- One round of `delete_job_records`: the job, its attempts, its lease. -/
def deleteJobRecord (s : Store) (jobId : String) : Store :=
  { s with
    jobs := s.jobs.erase jobId
    attempts := s.attempts.erase jobId
    leasesByJob := s.leasesByJob.erase jobId
    leaseIdToJob := match s.leasesByJob.get? jobId with
      | some lease => s.leaseIdToJob.erase lease.leaseId
      | none => s.leaseIdToJob }

/-- A job without records is deleted under both lease maps alike. -/
theorem leasesInverse_deleteJobRecord (h : LeasesInverse s) (jobId : String) :
    LeasesInverse (s.deleteJobRecord jobId) := by
  cases hheld : s.leasesByJob.get? jobId with
  | none =>
    have hmaps : (s.deleteJobRecord jobId).leaseIdToJob = s.leaseIdToJob := by
      simp [deleteJobRecord, hheld]
    intro leaseId j
    rw [hmaps, h leaseId j]
    simp only [deleteJobRecord, get?_erase]
    by_cases hj : j = jobId <;> simp [hj, hheld]
  | some lease =>
    -- the lease is the one `delete_lease` would take
    have hid : s.leaseIdToJob.get? lease.leaseId = some jobId := (h _ _).mpr ⟨lease, hheld, rfl⟩
    have hdelete := h.deleteLease lease.leaseId
    intro leaseId j
    have hmaps := hdelete leaseId j
    simp only [deleteLease, hid] at hmaps
    simpa only [deleteJobRecord, hheld] using hmaps

end Store

/-! ### One job -/

/-- One job's record, attempts and lease fit together: the attempts are numbered
`1..attemptCount`, the job is leased exactly while it is active, and the lease is for the
attempt with the largest number, the only one that is active. -/
structure CoherentJob (j : String) (job : JobRecord) (attempts : List AttemptRecord)
    (lease? : Option LeaseRecord) : Prop where
  jobId : job.jobId = j
  count_pos : 1 ≤ job.attemptCount
  numbers : (attempts.map AttemptRecord.attemptNumber).Perm (List.range' 1 job.attemptCount)
  attempt : ∀ a ∈ attempts, a.jobId = j ∧ a.attemptId = attemptIdOf j a.attemptNumber
  leased : lease?.isSome ↔ job.lifecycleStatus.isActive
  active : ∀ a ∈ attempts,
    a.lifecycleStatus.isActive ↔ lease?.isSome ∧ a.attemptNumber = job.attemptCount
  lease : ∀ l, lease? = some l → l.jobId = j ∧ l.attemptId = attemptIdOf j job.attemptCount ∧
    l.leaseId = leaseIdOf j job.attemptCount

namespace CoherentJob

variable {j : String} {job job' : JobRecord} {attempts : List AttemptRecord}
  {lease? lease?' : Option LeaseRecord} {a : AttemptRecord} (h : CoherentJob j job attempts lease?)

include h

theorem mem_numbers :
    (∃ a ∈ attempts, a.attemptNumber = n) ↔ 1 ≤ n ∧ n ≤ job.attemptCount := by
  have hmem := h.numbers.mem_iff (a := n)
  simp only [mem_map, mem_range'_1] at hmem
  rw [hmem]
  omega

/-- The latest attempt is the one numbered by the counter. -/
theorem attemptNumber_latest
    (hlatest : latestAttemptOf attempts = some a) : a.attemptNumber = job.attemptCount := by
  have hle := (h.mem_numbers.mp ⟨a, mem_of_latestAttemptOf hlatest, rfl⟩).2
  obtain ⟨b, hb, hnum⟩ := h.mem_numbers.mpr ⟨h.count_pos, le_refl job.attemptCount⟩
  have hge := le_latestAttemptOf hlatest hb
  omega

/-- Among one job's attempts, ids and numbers name the same attempt. -/
theorem attemptId_ne_iff {b : AttemptRecord}
    (hid : a.attemptId = attemptIdOf j a.attemptNumber) (hb : b ∈ attempts) :
    b.attemptId ≠ a.attemptId ↔ b.attemptNumber ≠ a.attemptNumber := by
  rw [(h.attempt b hb).2, hid, not_iff_not]
  exact ⟨fun heq => (attemptIdOf_inj heq).2, congrArg _⟩

/-- The numbers after an upsert: those of the others, and the new one. -/
theorem map_attemptNumber_upsert (hid : a.attemptId = attemptIdOf j a.attemptNumber) :
    (upsertAttempt a attempts).map AttemptRecord.attemptNumber =
      (attempts.map AttemptRecord.attemptNumber).filter (· ≠ a.attemptNumber) ++
        [a.attemptNumber] := by
  have hfilter : attempts.filter (fun b => decide (b.attemptId ≠ a.attemptId)) =
      attempts.filter (fun b => decide (b.attemptNumber ≠ a.attemptNumber)) :=
    filter_congr fun b hb => by simp only [h.attemptId_ne_iff hid hb]
  rw [upsertAttempt, hfilter, map_append, filter_map]
  rfl

omit h in
/-- Moving an element of a duplicate-free list to its end. -/
theorem perm_filter_ne_append {l : List ℕ} (hl : l.Nodup) (hn : n ∈ l) :
    (l.filter (· ≠ n) ++ [n]).Perm l := by
  have herase : l.filter (· ≠ n) = l.erase n := by
    rw [hl.erase_eq_filter]
    exact filter_congr fun m _ => by by_cases h : m = n <;> simp [h]
  rw [herase]
  exact (perm_append_singleton n _).trans (perm_cons_erase hn).symm

/-- Rewriting the current attempt, and with it the job and the lease. -/
theorem upsertCurrent (hjob : job'.jobId = j) (hcount : job'.attemptCount = job.attemptCount)
    (haj : a.jobId = j) (hid : a.attemptId = attemptIdOf j a.attemptNumber)
    (hnum : a.attemptNumber = job.attemptCount)
    (hleased : lease?'.isSome ↔ job'.lifecycleStatus.isActive)
    (hactive : a.lifecycleStatus.isActive ↔ lease?'.isSome)
    (hlease : ∀ l, lease?' = some l → l.jobId = j ∧
      l.attemptId = attemptIdOf j job.attemptCount ∧ l.leaseId = leaseIdOf j job.attemptCount) :
    CoherentJob j job' (upsertAttempt a attempts) lease?' where
  jobId := hjob
  count_pos := hcount ▸ h.count_pos
  numbers := by
    have hnodup : (attempts.map AttemptRecord.attemptNumber).Nodup :=
      h.numbers.nodup_iff.mpr nodup_range'
    have hmem : a.attemptNumber ∈ attempts.map AttemptRecord.attemptNumber := by
      rw [h.numbers.mem_iff, mem_range'_1, hnum]
      have := h.count_pos
      omega
    rw [h.map_attemptNumber_upsert hid, hcount]
    exact (perm_filter_ne_append hnodup hmem).trans h.numbers
  attempt b hb := by
    rcases mem_upsertAttempt.mp hb with rfl | ⟨hb, -⟩
    · exact ⟨haj, hid⟩
    · exact h.attempt b hb
  leased := hleased
  active b hb := by
    rcases mem_upsertAttempt.mp hb with rfl | ⟨hb, hne⟩
    · simp [hactive, hnum, hcount]
    · have hne' : b.attemptNumber ≠ job.attemptCount :=
        hnum ▸ (h.attemptId_ne_iff hid hb).mp hne
      simp [h.active b hb, hcount, hne']
  lease l hl := by simpa [hcount] using hlease l hl

omit h in
/-- Adding the next attempt to a job nobody owns. -/
theorem pushNext (h : CoherentJob j job attempts none)
    (hjob : job'.jobId = j) (hcount : job'.attemptCount = job.attemptCount + 1)
    (hinactive : job'.lifecycleStatus.isActive = false)
    (haj : a.jobId = j) (hid : a.attemptId = attemptIdOf j a.attemptNumber)
    (hnum : a.attemptNumber = job.attemptCount + 1)
    (hstatus : a.lifecycleStatus.isActive = false) :
    CoherentJob j job' (upsertAttempt a attempts) none where
  jobId := hjob
  count_pos := by omega
  numbers := by
    rw [h.map_attemptNumber_upsert hid, hcount, hnum, range'_concat]
    refine List.Perm.append ?_ (List.Perm.of_eq (by simp [add_comm]))
    rw [filter_eq_self.mpr]
    · exact h.numbers
    · intro n hn
      have hle := mem_range'_1.mp (h.numbers.mem_iff.mp hn)
      simp only [decide_eq_true_eq]
      omega
  attempt b hb := by
    rcases mem_upsertAttempt.mp hb with rfl | ⟨hb, -⟩
    · exact ⟨haj, hid⟩
    · exact h.attempt b hb
  leased := by simp [hinactive]
  active b hb := by
    rcases mem_upsertAttempt.mp hb with rfl | ⟨hb, -⟩
    · simp [hstatus]
    · have hb' := h.active b hb
      simpa using hb'
  lease l hl := by cases hl

/-- Replacing only the job record, with the same counter and the same ownership. -/
theorem relabel (hjob : job'.jobId = j) (hcount : job'.attemptCount = job.attemptCount)
    (hstatus : job'.lifecycleStatus.isActive = job.lifecycleStatus.isActive) :
    CoherentJob j job' attempts lease? where
  jobId := hjob
  count_pos := hcount ▸ h.count_pos
  numbers := hcount ▸ h.numbers
  attempt := h.attempt
  leased := hstatus ▸ h.leased
  active := hcount ▸ h.active
  lease := hcount ▸ h.lease

end CoherentJob

/-! ### Steps on one job -/

/-- The store `s'` is `s` with one job rewritten, and the lease of that job replaced. -/
structure Rewrites (s s' : Store) (j : String) (job' : JobRecord) (lease? : Option LeaseRecord) :
    Prop where
  jobs : ∀ k, s'.jobs.get? k = if k = j then some job' else s.jobs.get? k
  leases : ∀ k, s'.leasesByJob.get? k = if k = j then lease? else s.leasesByJob.get? k
  inverse : LeasesInverse s'

/-- The step from `s` to `s'` leaves the job `j` with this record, these attempts and this lease,
every other job as it was, and the lease maps inverse. -/
structure Touches (s s' : Store) (j : String) (job' : JobRecord) (attempts : List AttemptRecord)
    (lease? : Option LeaseRecord) : Prop where
  jobs : ∀ k, s'.jobs.get? k = if k = j then some job' else s.jobs.get? k
  attempts : ∀ k, s'.attemptsOf k = if k = j then attempts else s.attemptsOf k
  leases : ∀ k, s'.leasesByJob.get? k = if k = j then lease? else s.leasesByJob.get? k
  inverse : LeasesInverse s'

section Steps

variable {s s' : Store} {j : String} {job' : JobRecord} {attempts : List AttemptRecord}
  {lease? : Option LeaseRecord} {lease : LeaseRecord}

namespace Rewrites

variable (hinv : LeasesInverse s) (hleases : s'.leasesByJob = s.leasesByJob)
  (hids : s'.leaseIdToJob = s.leaseIdToJob)
  (hjobs : ∀ k, s'.jobs.get? k = if k = j then some job' else s.jobs.get? k)

include hinv hleases hids hjobs

/-- Records of one job are saved, and its lease is deleted. -/
theorem deleteLease (hlease : s.leasesByJob.get? j = some lease) :
    Rewrites s (s'.deleteLease lease.leaseId).2 j job' none := by
  have hinv' : LeasesInverse s' := fun leaseId k => by rw [hids, hleases]; exact hinv leaseId k
  refine ⟨by simpa using hjobs, fun k => ?_, hinv'.deleteLease _⟩
  rw [hinv'.get?_leasesByJob_deleteLease (hleases ▸ hlease), hleases]

/-- Records of one job are saved, and a lease with them. -/
theorem saveLease (hgrant : Grantable s lease) (hj : lease.jobId = j) :
    Rewrites s (s'.saveLease lease) j job' (some lease) := by
  have hinv' : LeasesInverse s' := fun leaseId k => by rw [hids, hleases]; exact hinv leaseId k
  have hgrant' : Grantable s' lease := by unfold Grantable; rw [hleases]; exact hgrant
  refine ⟨hjobs, fun k => ?_, hinv'.saveLease hgrant'⟩
  rw [hinv'.get?_leasesByJob_saveLease hgrant', hleases, hj]

end Rewrites

theorem Rewrites.touches (h : Rewrites s s' j job' lease?)
    (hattempts : ∀ k, s'.attemptsOf k = if k = j then attempts else s.attemptsOf k) :
    Touches s s' j job' attempts lease? :=
  ⟨h.jobs, hattempts, h.leases, h.inverse⟩

theorem Touches.jobs_self (h : Touches s s' j job' attempts lease?) :
    s'.jobs.get? j = some job' := by
  rw [h.jobs, if_pos rfl]

theorem Touches.jobs_of_ne (h : Touches s s' j job' attempts lease?) {k : String} (hk : k ≠ j) :
    s'.jobs.get? k = s.jobs.get? k := by
  rw [h.jobs, if_neg hk]

end Steps

/-! ### The whole store -/

/-- Every job is coherent, nothing is stored for a job that does not exist, and the two
lease maps are inverse to each other. -/
structure Coherent (s : Store) : Prop where
  present : ∀ j job, s.jobs.get? j = some job →
    CoherentJob j job (s.attemptsOf j) (s.leasesByJob.get? j)
  absent : ∀ j, s.jobs.get? j = none → s.attemptsOf j = [] ∧ s.leasesByJob.get? j = none
  inverse : LeasesInverse s

theorem coherent_empty : Coherent .empty where
  present j job h := by simp [Store.empty] at h
  absent j _ := ⟨rfl, rfl⟩
  inverse leaseId j := by simp [Store.empty]

namespace Coherent

variable {s s' : Store} {j : String} {job : JobRecord} {lease : LeaseRecord} {a : AttemptRecord}

/-- A lease belongs to a stored job. -/
theorem exists_job (h : Coherent s) (hlease : s.leasesByJob.get? j = some lease) :
    ∃ job, s.jobs.get? j = some job := by
  cases hjob : s.jobs.get? j with
  | some job => exact ⟨job, rfl⟩
  | none => rw [(h.absent j hjob).2] at hlease; cases hlease

/-- Attempt ids determine the attempt across all jobs. -/
theorem mem_of_getAttempt (h : Coherent s)
    (hget : s.getAttempt (attemptIdOf j n) = some a) :
    a ∈ s.attemptsOf j ∧ a.attemptNumber = n := by
  obtain ⟨hid, k, hmem⟩ := Store.mem_of_getAttempt hget
  cases hjob : s.jobs.get? k with
  | none => rw [(h.absent k hjob).1] at hmem; cases hmem
  | some job =>
    have hcanon := ((h.present k job hjob).attempt a hmem).2
    obtain ⟨rfl, hnum⟩ := attemptIdOf_inj (hcanon.symm.trans hid)
    exact ⟨hmem, hnum⟩

/-- An operation on one job keeps the store coherent, provided it leaves that job coherent. -/
theorem of_touches (h : Coherent s) {attempts : List AttemptRecord} {lease? : Option LeaseRecord}
    (ht : Touches s s' j job attempts lease?) (hjob : CoherentJob j job attempts lease?) :
    Coherent s' where
  present k job' hk := by
    by_cases hkj : k = j
    · subst hkj
      obtain rfl := Option.mem_unique ht.jobs_self hk
      simpa [ht.attempts, ht.leases] using hjob
    · rw [ht.jobs, if_neg hkj] at hk
      simpa [ht.attempts, ht.leases, hkj] using h.present k job' hk
  absent k hk := by
    have hkj : k ≠ j := by
      rintro rfl
      cases ht.jobs_self.symm.trans hk
    rw [ht.jobs, if_neg hkj] at hk
    simpa [ht.attempts, ht.leases, hkj] using h.absent k hk
  inverse := ht.inverse

end Coherent

end LotusAI.AsyncRuntime
