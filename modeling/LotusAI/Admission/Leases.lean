import LotusAI.Artifacts.Payloads
import LotusAI.Http

/-!
# Admission leases in memory and in SQL

An admission holds a lease while its execution runs. `try_admit` reclaims the leases of its
policy that have outlived their time, counts what is left against two limits and inserts the new
lease. Two adapters do this: one on a dictionary, one in a transaction. A rejected attempt rolls
the transaction back, and with it the reclamation it has just reported; the dictionary has no
such thing.
-/

namespace LotusAI.Admission

open Lib Artifacts Table

/-- `WorkflowPackQueueLane`. -/
inductive WorkflowPackQueueLane
  | latencySensitive
  | reviewSupport
  | batch
  | nightly
  | operator
  deriving DecidableEq

/-- `WorkflowPackQueueState`. -/
inductive WorkflowPackQueueState
  | notAdmitted
  | queued
  | admitted
  | running
  | rejected
  | cancelled
  | timedOut
  | degraded
  | completedHandoff
  deriving DecidableEq

/-- `WorkflowPackQueueAdmissionLease`. -/
structure WorkflowPackQueueAdmissionLease where
  queueItemId : String
  policyId : String
  workflowPackId : String
  workflowPackVersion : String
  lane : WorkflowPackQueueLane
  state : WorkflowPackQueueState
  admittedAt : String
  callerApp : Option String := none
  correlationId : Option String := none
  tenantId : Option String := none
  workflowSurface : Option String := none
  artifactRefs : List ArtifactDescriptor := []
  deriving DecidableEq

abbrev Leases := Table WorkflowPackQueueAdmissionLease.queueItemId

/-- `WorkflowPackAdmissionAttempt`. -/
structure WorkflowPackAdmissionAttempt where
  admitted : Bool
  activePackCount : ℕ
  activeLaneCount : ℕ
  reclaimedLeases : List WorkflowPackQueueAdmissionLease
  deriving DecidableEq

/-! ### Expiry -/

/-- The lifetime of a lease, and how an instant is written. -/
structure LeaseClock where
  ttlSeconds : ℤ
  /-- `isoformat` of an instant, in microseconds. -/
  isoformat : ℤ → String

/-- The text a lease has to be admitted before to have expired at `now`; none without a
lifetime. -/
def LeaseClock.cutoff (clock : LeaseClock) (now : ℤ) : Option String :=
  if clock.ttlSeconds ≤ 0 then none
  else some (clock.isoformat (now - clock.ttlSeconds * 1000000))

/-- A lease of the policy that is reclaimed: its text stands before the cutoff. -/
def LeaseClock.expired (clock : LeaseClock) (now : ℤ) (policyId : String)
    (lease : WorkflowPackQueueAdmissionLease) : Bool :=
  match clock.cutoff now with
  | none => false
  | some cutoff => lease.policyId = policyId ∧ lease.admittedAt < cutoff

def LeaseClock.expiredLeases (clock : LeaseClock) (now : ℤ) (policyId : String)
    (leases : Leases) : List WorkflowPackQueueAdmissionLease :=
  leases.list.filter (clock.expired now policyId)

/-- The leases without the expired ones of a policy. -/
def LeaseClock.reclaim (clock : LeaseClock) (now : ℤ) (policyId : String) (leases : Leases) :
    Leases :=
  leases.delete ((clock.expiredLeases now policyId leases).map (·.queueItemId))

/-- The number of leases of a policy. -/
def packCount (leases : Leases) (policyId : String) : ℕ :=
  leases.list.countP fun lease => lease.policyId = policyId

def laneCount (leases : Leases) (policyId : String) (lane : WorkflowPackQueueLane) : ℕ :=
  leases.list.countP fun lease => lease.policyId = policyId ∧ lease.lane = lane

/-! ### The adapters -/

section Adapters

variable (clock : LeaseClock) (now : ℤ) (lease : WorkflowPackQueueAdmissionLease)
  (packLimit laneLimit : ℤ)

/-- What an attempt reports, of the leases that are left after reclamation. -/
def attempt (admitted : Bool) (left : Leases)
    (reclaimed : List WorkflowPackQueueAdmissionLease) : WorkflowPackAdmissionAttempt where
  admitted := admitted
  activePackCount := packCount left lease.policyId
  activeLaneCount := laneCount left lease.policyId lease.lane
  reclaimedLeases := reclaimed

/-- A limit is reached by the leases that are left. -/
def atCapacity (left : Leases) : Bool :=
  packLimit ≤ packCount left lease.policyId ∨
    laneLimit ≤ laneCount left lease.policyId lease.lane

/-- `try_admit` in memory. -/
def memoryTryAdmit (leases : Leases) : WorkflowPackAdmissionAttempt × Leases :=
  let reclaimed := clock.expiredLeases now lease.policyId leases
  let left := clock.reclaim now lease.policyId leases
  if atCapacity lease packLimit laneLimit left then (attempt lease false left reclaimed, left)
  else (attempt lease true left reclaimed, left.upsert lease)

/-- `try_admit` in SQL, with the order in which a query yields its rows. A rejection rolls the
transaction back; an insert under a key that is taken violates the primary key. -/
def sqlTryAdmit
    (order : List WorkflowPackQueueAdmissionLease → List WorkflowPackQueueAdmissionLease)
    (leases : Leases) : Except Raised WorkflowPackAdmissionAttempt × Leases :=
  let reclaimed := order (clock.expiredLeases now lease.policyId leases)
  let left := clock.reclaim now lease.policyId leases
  if atCapacity lease packLimit laneLimit left then
    (.ok (attempt lease false left reclaimed), leases)
  else if (left.get? lease.queueItemId).isSome then (.error (.other "IntegrityError"), leases)
  else (.ok (attempt lease true left reclaimed), left.upsert lease)

end Adapters

/-- `delete_lease`, in either adapter. -/
def deleteLease (queueItemId : String) (leases : Leases) : Bool × Leases :=
  ((leases.get? queueItemId).isSome, leases.delete [queueItemId])

/-! ### What is reclaimed -/

section Reclaim

variable {clock : LeaseClock} {now : ℤ} {policyId : String} {leases : Leases}
  {lease : WorkflowPackQueueAdmissionLease}

theorem mem_expiredLeases :
    lease ∈ clock.expiredLeases now policyId leases ↔
      lease ∈ leases ∧ clock.expired now policyId lease := by
  rw [LeaseClock.expiredLeases, List.mem_filter, mem_list]

/-- A lease is left unless it has expired. -/
theorem mem_reclaim :
    lease ∈ clock.reclaim now policyId leases ↔
      lease ∈ leases ∧ clock.expired now policyId lease = false := by
  rw [LeaseClock.reclaim, mem_delete, and_congr_right_iff]
  intro hlease
  rw [List.mem_map, not_exists, ← Bool.not_eq_true]
  constructor
  · exact fun h hexpired => h lease ⟨mem_expiredLeases.mpr ⟨hlease, hexpired⟩, rfl⟩
  · rintro h other ⟨hother, hkey⟩
    obtain ⟨hmem, hexpired⟩ := mem_expiredLeases.mp hother
    exact h (eq_of_key_eq hmem hlease hkey ▸ hexpired)

/-- Nothing stands under a key once its lease has been reclaimed, or when none did. -/
theorem get?_reclaim_eq_none {queueItemId : String} :
    (clock.reclaim now policyId leases).get? queueItemId = none ↔
      ∀ stored, leases.get? queueItemId = some stored → clock.expired now policyId stored := by
  constructor
  · intro hnone stored hstored
    have hmem : stored ∈ leases := by
      rw [mem_iff, key_of_get? hstored, hstored]
    by_contra hlive
    have hleft : stored ∈ clock.reclaim now policyId leases :=
      mem_reclaim.mpr ⟨hmem, Bool.not_eq_true _ ▸ hlive⟩
    rw [mem_iff, key_of_get? hstored, hnone] at hleft
    cases hleft
  · intro hexpired
    rw [Option.eq_none_iff_forall_not_mem]
    intro stored hstored
    have hkey := key_of_get? hstored
    have hleft : stored ∈ clock.reclaim now policyId leases := by
      rw [mem_iff, hkey]
      exact hstored
    obtain ⟨hmem, hlive⟩ := mem_reclaim.mp hleft
    rw [mem_iff, hkey] at hmem
    rw [hexpired stored hmem] at hlive
    cases hlive

/-- Reclamation raises no count. -/
theorem countP_reclaim_le (p : WorkflowPackQueueAdmissionLease → Bool) :
    (clock.reclaim now policyId leases).list.countP p ≤ leases.list.countP p :=
  (sublist_delete leases _).countP_le

theorem reclaim_of_expiredLeases_eq_nil (h : clock.expiredLeases now policyId leases = []) :
    clock.reclaim now policyId leases = leases := by
  rw [LeaseClock.reclaim, h, List.map_nil, delete_nil]

end Reclaim

/-! ### One attempt -/

/-- Two reports say the same; a query may list the reclaimed leases in another order. -/
structure SameAttempt (sql memory : WorkflowPackAdmissionAttempt) : Prop where
  admitted : sql.admitted = memory.admitted
  packCount : sql.activePackCount = memory.activePackCount
  laneCount : sql.activeLaneCount = memory.activeLaneCount
  reclaimed : sql.reclaimedLeases.Perm memory.reclaimedLeases

/-- The same leases are stored. -/
def SameLeases (sql memory : Leases) : Prop :=
  ∀ queueItemId, sql.get? queueItemId = memory.get? queueItemId

/-- No lease that was reported as reclaimed is stored. -/
def ReclaimedGone (reported : WorkflowPackAdmissionAttempt) (leases : Leases) : Prop :=
  ∀ lease ∈ reported.reclaimedLeases, lease ∉ leases

/-- The adapters answer an attempt alike, store the same leases after it, and have dropped what
they report as reclaimed. -/
structure AgreeOnAttempt (sql : Except Raised WorkflowPackAdmissionAttempt × Leases)
    (memory : WorkflowPackAdmissionAttempt × Leases) : Prop where
  reported : ∃ reported, sql.1 = .ok reported ∧ SameAttempt reported memory.1 ∧
    ReclaimedGone reported sql.2
  leases : SameLeases sql.2 memory.2
  gone : ReclaimedGone memory.1 memory.2

section Attempt

variable (clock : LeaseClock) (now : ℤ) (lease : WorkflowPackQueueAdmissionLease)
  (packLimit laneLimit : ℤ) (leases : Leases)

/-- A rejected attempt has nothing to reclaim; an admitted one takes a free key, or that of
another lease that it reclaims. -/
structure UndividedAttempt : Prop where
  rejected : atCapacity lease packLimit laneLimit (clock.reclaim now lease.policyId leases) →
    clock.expiredLeases now lease.policyId leases = []
  admitted : ¬ atCapacity lease packLimit laneLimit (clock.reclaim now lease.policyId leases) →
    ∀ stored ∈ leases.get? lease.queueItemId,
      clock.expired now lease.policyId stored ∧ stored ≠ lease

instance : Decidable (UndividedAttempt clock now lease packLimit laneLimit leases) :=
  decidable_of_iff
    ((atCapacity lease packLimit laneLimit (clock.reclaim now lease.policyId leases) →
      clock.expiredLeases now lease.policyId leases = []) ∧
    (¬ atCapacity lease packLimit laneLimit (clock.reclaim now lease.policyId leases) →
      ∀ stored ∈ leases.get? lease.queueItemId,
        clock.expired now lease.policyId stored ∧ stored ≠ lease))
    ⟨fun h => ⟨h.1, h.2⟩, fun h => ⟨h.1, h.2⟩⟩

variable {clock now lease packLimit laneLimit leases}

/-- Whatever stood under the key of an admitted lease has been reclaimed. -/
theorem UndividedAttempt.free (h : UndividedAttempt clock now lease packLimit laneLimit leases)
    (hfull : ¬ atCapacity lease packLimit laneLimit (clock.reclaim now lease.policyId leases)) :
    (clock.reclaim now lease.policyId leases).get? lease.queueItemId = none :=
  get?_reclaim_eq_none.mpr fun stored hstored => (h.admitted hfull stored hstored).1

/-- The SQL adapter stores what the memory adapter stores. -/
theorem UndividedAttempt.leases_eq (h : UndividedAttempt clock now lease packLimit laneLimit leases)
    (order : List WorkflowPackQueueAdmissionLease → List WorkflowPackQueueAdmissionLease) :
    (sqlTryAdmit clock now lease packLimit laneLimit order leases).2 =
      (memoryTryAdmit clock now lease packLimit laneLimit leases).2 := by
  unfold sqlTryAdmit memoryTryAdmit
  dsimp only
  split_ifs with hfull htaken
  · exact (reclaim_of_expiredLeases_eq_nil (h.rejected hfull)).symm
  · rw [h.free hfull] at htaken
    cases htaken
  · rfl

variable {order : List WorkflowPackQueueAdmissionLease → List WorkflowPackQueueAdmissionLease}

theorem agreeOnAttempt_of_undivided (horder : ∀ rows, (order rows).Perm rows)
    (h : UndividedAttempt clock now lease packLimit laneLimit leases) :
    AgreeOnAttempt (sqlTryAdmit clock now lease packLimit laneLimit order leases)
      (memoryTryAdmit clock now lease packLimit laneLimit leases) := by
  have hleases := h.leases_eq order
  have hgone : ReclaimedGone (memoryTryAdmit clock now lease packLimit laneLimit leases).1
      (memoryTryAdmit clock now lease packLimit laneLimit leases).2 := by
    unfold memoryTryAdmit
    dsimp only
    split_ifs with hfull
    · intro reclaimed hreclaimed
      rw [h.rejected hfull] at hreclaimed
      cases hreclaimed
    · intro reclaimed hreclaimed hstored
      obtain ⟨hmem, hexpired⟩ := mem_expiredLeases.mp hreclaimed
      rcases mem_upsert.mp hstored with rfl | ⟨hleft, -⟩
      · exact (h.admitted hfull reclaimed hmem).2 rfl
      · rw [(mem_reclaim.mp hleft).2] at hexpired
        cases hexpired
  refine ⟨?_, fun queueItemId => by rw [hleases], hgone⟩
  rw [hleases]
  unfold sqlTryAdmit
  unfold memoryTryAdmit at hgone ⊢
  dsimp only at hgone ⊢
  have hreclaimed := horder (clock.expiredLeases now lease.policyId leases)
  split_ifs at hgone ⊢ with hfull htaken
  · exact ⟨_, rfl, ⟨rfl, rfl, rfl, hreclaimed⟩, fun other hother =>
      hgone other (hreclaimed.mem_iff.mp hother)⟩
  · rw [h.free hfull] at htaken
    cases htaken
  · exact ⟨_, rfl, ⟨rfl, rfl, rfl, hreclaimed⟩, fun other hother =>
      hgone other (hreclaimed.mem_iff.mp hother)⟩

/-- An attempt on which the adapters agree was an undivided one. -/
theorem undivided_of_agreeOnAttempt
    (h : AgreeOnAttempt (sqlTryAdmit clock now lease packLimit laneLimit order leases)
      (memoryTryAdmit clock now lease packLimit laneLimit leases)) :
    UndividedAttempt clock now lease packLimit laneLimit leases := by
  obtain ⟨⟨reported, hreported, -, -⟩, hleases, hgone⟩ := h
  unfold sqlTryAdmit at hreported hleases
  unfold memoryTryAdmit at hleases hgone
  dsimp only at hreported hleases hgone
  split_ifs at hreported hleases hgone with hfull htaken
  · -- an expired lease would be stored in SQL only
    refine ⟨fun _ => List.eq_nil_iff_forall_not_mem.mpr ?_, fun hnot => absurd hfull hnot⟩
    intro expired hexpired
    obtain ⟨hmem, hexpired⟩ := mem_expiredLeases.mp hexpired
    have hleft : expired ∈ clock.reclaim now lease.policyId leases := by
      rw [mem_iff, ← hleases]
      exact hmem
    rw [(mem_reclaim.mp hleft).2] at hexpired
    cases hexpired
  · have hfree := Option.not_isSome_iff_eq_none.mp htaken
    refine ⟨fun hyes => absurd hyes hfull, fun _ stored hstored => ?_⟩
    have hexpired := get?_reclaim_eq_none.mp hfree stored hstored
    refine ⟨hexpired, ?_⟩
    rintro rfl
    exact hgone stored (mem_expiredLeases.mpr ⟨hstored, hexpired⟩) (mem_upsert.mpr (.inl rfl))

end Attempt

/-! ### Sequences -/

/-- A call of an adapter, or the clock going on. -/
inductive LeaseOperation
  | tryAdmit (lease : WorkflowPackQueueAdmissionLease) (packLimit laneLimit : ℤ)
  | deleteLease (queueItemId : String)
  | advance (microseconds : ℕ)

section Sequences

variable (clock : LeaseClock)
  (order : List WorkflowPackQueueAdmissionLease → List WorkflowPackQueueAdmissionLease)

/-- The adapters agree on every call of a sequence. -/
def AdaptersAgree : ℤ → Leases → Leases → List LeaseOperation → Prop
  | _, sql, memory, [] => SameLeases sql memory
  | now, sql, memory, .tryAdmit lease packLimit laneLimit :: rest =>
    let sql' := sqlTryAdmit clock now lease packLimit laneLimit order sql
    let memory' := memoryTryAdmit clock now lease packLimit laneLimit memory
    AgreeOnAttempt sql' memory' ∧ AdaptersAgree now sql'.2 memory'.2 rest
  | now, sql, memory, .deleteLease queueItemId :: rest =>
    let sql' := deleteLease queueItemId sql
    let memory' := deleteLease queueItemId memory
    sql'.1 = memory'.1 ∧ SameLeases sql'.2 memory'.2 ∧ AdaptersAgree now sql'.2 memory'.2 rest
  | now, sql, memory, .advance microseconds :: rest =>
    AdaptersAgree (now + microseconds) sql memory rest

/-- Every attempt of a sequence is an undivided one, on the leases it finds. -/
def UndividedRun : ℤ → Leases → List LeaseOperation → Prop
  | _, _, [] => True
  | now, leases, .tryAdmit lease packLimit laneLimit :: rest =>
    UndividedAttempt clock now lease packLimit laneLimit leases ∧
      UndividedRun now (memoryTryAdmit clock now lease packLimit laneLimit leases).2 rest
  | now, leases, .deleteLease queueItemId :: rest =>
    UndividedRun now (deleteLease queueItemId leases).2 rest
  | now, leases, .advance microseconds :: rest => UndividedRun (now + microseconds) leases rest

instance decidableUndividedRun : (now : ℤ) → (leases : Leases) →
    (operations : List LeaseOperation) → Decidable (UndividedRun clock now leases operations)
  | _, _, [] => isTrue trivial
  | now, leases, .tryAdmit lease packLimit laneLimit :: rest =>
    have := decidableUndividedRun now
      (memoryTryAdmit clock now lease packLimit laneLimit leases).2 rest
    inferInstanceAs (Decidable (_ ∧ _))
  | now, leases, .deleteLease queueItemId :: rest =>
    decidableUndividedRun now (deleteLease queueItemId leases).2 rest
  | now, leases, .advance microseconds :: rest =>
    decidableUndividedRun (now + microseconds) leases rest

variable {clock order} {now : ℤ} {leases : Leases} {operations : List LeaseOperation}

theorem adaptersAgree_of_undividedRun (horder : ∀ rows, (order rows).Perm rows)
    (h : UndividedRun clock now leases operations) :
    AdaptersAgree clock order now leases leases operations := by
  induction operations generalizing now leases with
  | nil => exact fun _ => rfl
  | cons operation rest ih =>
    cases operation with
    | tryAdmit lease packLimit laneLimit =>
      refine ⟨agreeOnAttempt_of_undivided horder h.1, ?_⟩
      rw [h.1.leases_eq order]
      exact ih h.2
    | deleteLease queueItemId => exact ⟨rfl, fun _ => rfl, ih h⟩
    | advance microseconds => exact ih h

theorem undividedRun_of_adaptersAgree (h : AdaptersAgree clock order now leases leases operations) :
    UndividedRun clock now leases operations := by
  induction operations generalizing now leases with
  | nil => trivial
  | cons operation rest ih =>
    cases operation with
    | tryAdmit lease packLimit laneLimit =>
      -- as long as the adapters agree, they store the same leases
      have hundivided := undivided_of_agreeOnAttempt h.1
      refine ⟨hundivided, ih ?_⟩
      have hrest := h.2
      rw [hundivided.leases_eq order] at hrest
      exact hrest
    | deleteLease queueItemId => exact ih h.2.2
    | advance microseconds => exact ih h

/-- The adapters agree on a sequence of calls exactly when none of its rejected attempts has
anything to reclaim, and none of its admitted ones finds its key taken. -/
theorem adaptersAgree_iff (horder : ∀ rows, (order rows).Perm rows) :
    AdaptersAgree clock order now leases leases operations ↔
      UndividedRun clock now leases operations :=
  ⟨undividedRun_of_adaptersAgree, adaptersAgree_of_undividedRun horder⟩

end Sequences

/-! ### Runs -/

section Runs

/-- Leases live for a minute; the instants that are asked for lie a minute before the three
attempts below. -/
def sampleClock : LeaseClock where
  ttlSeconds := 60
  isoformat instant :=
    if instant ≤ -60000000 then "2026-01-01T08:59:00+00:00"
    else if instant ≤ -10000000 then "2026-01-01T08:59:50+00:00"
    else "2026-01-01T09:00:10+00:00"

def sampleLease (queueItemId admittedAt : String) (lane : WorkflowPackQueueLane) :
    WorkflowPackQueueAdmissionLease where
  queueItemId := queueItemId
  policyId := "p"
  workflowPackId := "pack"
  workflowPackVersion := "v1"
  lane := lane
  state := .running
  admittedAt := admittedAt

/-- Two leases in two lanes, with at most one per lane; a third is asked for when the first has
expired. -/
def threeAttempts (lane : WorkflowPackQueueLane) : List LeaseOperation :=
  [.tryAdmit (sampleLease "a" "2026-01-01T09:00:00Z" .batch) 3 1, .advance 50000000,
    .tryAdmit (sampleLease "b" "2026-01-01T09:00:50Z" .nightly) 3 1, .advance 20000000,
    .tryAdmit (sampleLease "c" "2026-01-01T09:01:10Z" lane) 3 1]

/-- In a lane of its own the third lease is admitted, and the first one reclaimed. -/
theorem adaptersAgree_threeAttempts :
    AdaptersAgree sampleClock List.reverse 0 .empty .empty (threeAttempts .operator) :=
  (adaptersAgree_iff List.reverse_perm).mpr (by decide +kernel)

/-- In the lane of the second lease the third is rejected. The first one is reported as
reclaimed: in memory it is gone, in SQL the rollback has brought it back. -/
theorem rejected_attempt_divides :
    ¬ AdaptersAgree sampleClock id 0 .empty .empty (threeAttempts .nightly) :=
  fun hagree => absurd (undividedRun_of_adaptersAgree hagree) (by decide +kernel)

end Runs

end LotusAI.Admission
