import LotusAI.AsyncRuntime.Runs
import LotusAI.Lib.Civil
import LotusAI.Lib.Datetime

/-!
# Timestamps that are compared as texts

The runtime stores its instants as ISO texts with `Z` for the offset, and compares the texts:
to find a lease expired, to fence a worker's step, to recover a claim, and to take the oldest
queued job. A text carries a fraction only where the microseconds are not zero, and the `.` of
a fraction sorts before the `Z` that stands in its place otherwise. Within one second a whole
instant therefore comes after all the others.
-/

namespace LotusAI.AsyncRuntime

open Lib Store Option

/-! ### Writing instants -/

/-- `value.replace("+00:00", "Z")`. -/
def abbreviateUtcOffset : List Char → List Char
  | '+' :: '0' :: '0' :: ':' :: '0' :: '0' :: rest => 'Z' :: abbreviateUtcOffset rest
  | c :: rest => c :: abbreviateUtcOffset rest
  | [] => []

/-- `_isoformat`, and `_fresh_now` at the instant the clock shows. -/
def isoformat (t : CivilDatetime) : String :=
  String.ofList (abbreviateUtcOffset t.isoformat.toList)

/-- `_extend_lease`. A text that is no date-time, or an instant past the last one, raises. -/
def extendLease? (now : String) (seconds : ℕ) : Option String := do
  let t ← CivilDatetime.fromIsoformat (spellUtcOffset now)
  let later ← t.addSeconds seconds
  return isoformat later

/-- `_extend_lease` as the store uses it. -/
def extendLease (now : String) (seconds : ℕ) : String := (extendLease? now seconds).getD ""

theorem abbreviateUtcOffset_append {front : List Char} (h : '+' ∉ front) :
    abbreviateUtcOffset (front ++ "+00:00".toList) = front ++ ['Z'] := by
  induction front with
  | nil => rfl
  | cons c front ih =>
    obtain ⟨hc, hfront⟩ := not_or.mp (mt List.mem_cons.mpr h)
    rw [List.cons_append, abbreviateUtcOffset, ih hfront, List.cons_append]
    intro rest hplus
    exact absurd hplus.symm hc

/-- Neither a sign nor a `Z` stands before the offset. -/
theorem of_mem_chars_append_fraction (t : CivilDatetime) :
    ∀ c ∈ t.chars ++ t.fraction, c ≠ '+' ∧ c ≠ 'Z' := by
  have hdigits : ∀ {width n : ℕ}, ∀ c ∈ fixedDigits width n, c ≠ '+' ∧ c ≠ 'Z' := by
    intro width n c hc
    have hdigit := isDigit_of_mem_fixedDigits hc
    constructor
    · rintro rfl
      cases hdigit
    · rintro rfl
      cases hdigit
  have hfraction : ∀ c ∈ t.fraction, c ≠ '+' ∧ c ≠ 'Z' := by
    unfold CivilDatetime.fraction
    split_ifs
    · simp
    · exact List.forall_mem_cons.mpr ⟨by decide, hdigits⟩
  simp only [CivilDatetime.chars, List.forall_mem_append, List.forall_mem_cons]
  exact ⟨⟨hdigits, by decide, hdigits, by decide, hdigits, by decide, hdigits, by decide, hdigits,
    by decide, hdigits⟩, hfraction⟩

/-- The text of an instant: up to the second, then the fraction, if any, then `Z`. -/
theorem toList_isoformat (t : CivilDatetime) :
    (isoformat t).toList = t.chars ++ (t.fraction ++ ['Z']) := by
  have hplus : '+' ∉ t.chars ++ t.fraction := fun h =>
    (of_mem_chars_append_fraction t _ h).1 rfl
  rw [isoformat, String.toList_ofList, CivilDatetime.isoformat, String.toList_ofList,
    ← List.append_assoc, abbreviateUtcOffset_append hplus, List.append_assoc]

theorem spellUtcOffset_isoformat (t : CivilDatetime) :
    spellUtcOffset (isoformat t) = t.isoformat := by
  have hkeep : ∀ front : List Char, (∀ c ∈ front, c ≠ 'Z') →
      front.flatMap (fun c => if c = 'Z' then "+00:00".toList else [c]) = front := by
    intro front hfront
    induction front with
    | nil => rfl
    | cons c front ih =>
      obtain ⟨hc, hrest⟩ := List.forall_mem_cons.mp hfront
      rw [List.flatMap_cons, if_neg hc, ih hrest]
      rfl
  rw [spellUtcOffset, toList_isoformat, ← List.append_assoc, List.flatMap_append,
    hkeep _ fun c hc => (of_mem_chars_append_fraction t c hc).2, CivilDatetime.isoformat,
    List.append_assoc]
  rfl

variable {t u : CivilDatetime} {now : String} {s : Store} {seconds : ℕ} {args : TransitionArgs}
  {lease : LeaseRecord} {j : String}

/-- Extending a lease from a written instant writes the later instant. -/
theorem extendLease_isoformat (h : t.addSeconds seconds = some u) :
    extendLease (isoformat t) seconds = isoformat u := by
  have hread : CivilDatetime.fromIsoformat (spellUtcOffset (isoformat t)) = some t := by
    rw [spellUtcOffset_isoformat, CivilDatetime.fromIsoformat_isoformat]
  have hlater : extendLease? (isoformat t) seconds = some (isoformat u) := by
    unfold extendLease?
    rw [hread, bind_eq_bind, bind_some, h, bind_some, pure_def]
  rw [extendLease, hlater, getD_some]

/-! ### Comparing them -/

/-- Not a whole and a broken instant of the same second. -/
def Comparable (t u : CivilDatetime) : Prop :=
  t.seconds = u.seconds → (t.microsecond = 0 ↔ u.microsecond = 0)

instance (t u : CivilDatetime) : Decidable (Comparable t u) :=
  inferInstanceAs (Decidable (_ → _))

theorem Comparable.symm (h : Comparable t u) : Comparable u t :=
  fun hsecond => (h hsecond.symm).symm

theorem isoformat_lt_iff_seconds (t u : CivilDatetime) :
    isoformat t < isoformat u ↔ t.seconds < u.seconds ∨
      t.seconds = u.seconds ∧ t.fraction ++ ['Z'] < u.fraction ++ ['Z'] := by
  rw [String.lt_iff_toList_lt, toList_isoformat, toList_isoformat, CivilDatetime.chars_append_lt]

/-- Comparable instants are ordered like their texts. -/
theorem isoformat_lt_iff (h : Comparable t u) : isoformat t < isoformat u ↔ t < u := by
  rw [isoformat_lt_iff_seconds, CivilDatetime.lt_iff]
  refine or_congr_right (and_congr_right fun hsecond => ?_)
  by_cases ht : t.microsecond = 0
  · have hu := (h hsecond).mp ht
    simp [CivilDatetime.fraction, ht, hu]
  · have hu : u.microsecond ≠ 0 := fun hu => ht ((h hsecond).mpr hu)
    rw [CivilDatetime.fraction_append_lt ht hu]
    simp

/-- Within one second a whole instant comes last. -/
theorem isoformat_lt_of_whole (hsecond : t.seconds = u.seconds) (ht : t.microsecond = 0)
    (hu : u.microsecond ≠ 0) : isoformat u < isoformat t := by
  rw [isoformat_lt_iff_seconds]
  refine .inr ⟨hsecond.symm, ?_⟩
  rw [CivilDatetime.fraction, if_neg hu, CivilDatetime.fraction, if_pos ht, List.cons_append,
    List.nil_append, List.cons_lt_cons_iff]
  exact .inl (by decide)

/-! ### The store's comparisons -/

/-- A worker's step is accepted when the store's clock shows `now`. -/
def Accepts (s : Store) (args : TransitionArgs) (now : String) : Prop :=
  ∃ transition, (s.transitionCurrentClaim extendLease { args with nowFactory := some now }).1 =
    .ok (some transition)

/-- A claim is recovered when the store's clock shows `now`. -/
def Recovers (s : Store) (args : RecoveryArgs) (now : String) : Prop :=
  ∃ recovered, (s.recoverExpiredClaim { args with nowFactory := some now }).1 =
    .ok (some recovered)

/-- The lease is the caller's: it is for the worker and the attempt named, the attempt exists, and
the job is active. -/
def Owns (s : Store) (args : TransitionArgs) (lease : LeaseRecord) : Prop :=
  lease.workerId = args.workerId ∧ lease.attemptId = args.attemptId ∧
    (s.getAttempt args.attemptId).isSome ∧
    ∃ job, s.jobs.get? args.jobId = some job ∧ job.lifecycleStatus.isActive

/-- The lease is one of an active job and of an attempt that exists. -/
def Recoverable (s : Store) (jobId : String) (lease : LeaseRecord) : Prop :=
  (s.getAttempt lease.attemptId).isSome ∧
    ∃ job, s.jobs.get? jobId = some job ∧ job.lifecycleStatus.isActive

/-- The job may be claimed by a worker of these types, and was submitted at this time. -/
def QueuedAt (s : Store) (jobTypes : Option (List String)) (jobId submittedAt : String) : Prop :=
  s.hasType jobTypes jobId ∧ (s.runnable jobId).isSome ∧
    ∃ job, s.jobs.get? jobId = some job ∧ job.submittedAt = submittedAt

theorem accepts_iff (hlease : s.leasesByJob.get? args.jobId = some lease) :
    Accepts s args now ↔ Owns s args lease ∧ now < lease.leaseExpiresAt := by
  have hclaim : Accepts s args now ↔
      (s.currentClaim { args with nowFactory := some now } now).isSome := by
    unfold Accepts transitionCurrentClaim
    simp only [some_or]
    cases s.currentClaim { args with nowFactory := some now } now <;> simp
  rw [hclaim, currentClaim, hlease, Owns]
  cases hattempt : s.getAttempt args.attemptId with
  | none => simp
  | some attempt =>
    cases hjob : s.jobs.get? args.jobId with
    | none => simp
    | some job =>
      dsimp only
      split_ifs with hguard
      · simp only [isSome_none, Bool.false_eq_true, false_iff]
        rintro ⟨⟨hworker, hid, -, owner, howner, hactive⟩, hlt⟩
        cases howner
        rcases hguard with h | h | h | h
        · exact h hworker
        · exact h hid
        · exact absurd hlt (not_lt_of_ge h)
        · rw [hactive] at h
          cases h
      · simp only [not_or, not_not, Bool.not_eq_false, not_le] at hguard
        simp only [isSome_some, true_iff]
        exact ⟨⟨hguard.1, hguard.2.1, trivial, job, rfl, hguard.2.2.2⟩, hguard.2.2.1⟩

theorem recovers_iff {args : RecoveryArgs} (hlease : s.leasesByJob.get? args.jobId = some lease) :
    Recovers s args now ↔ Recoverable s args.jobId lease ∧ lease.leaseExpiresAt ≤ now := by
  have hclaim : Recovers s args now ↔ (s.expiredClaim args.jobId now).isSome := by
    unfold Recovers recoverExpiredClaim
    simp only [some_or]
    cases s.expiredClaim args.jobId now <;> simp
  rw [hclaim, expiredClaim, hlease, Recoverable]
  cases hjob : s.jobs.get? args.jobId with
  | none => simp
  | some job =>
    dsimp only
    split_ifs with hguard
    · simp only [isSome_none, Bool.false_eq_true, false_iff]
      rintro ⟨⟨-, owner, howner, hactive⟩, hle⟩
      cases howner
      rcases hguard with h | h
      · exact absurd h (not_lt_of_ge hle)
      · rw [hactive] at h
        cases h
    · simp only [not_or, not_lt, Bool.not_eq_false] at hguard
      rw [isSome_map]
      exact ⟨fun hsome => ⟨⟨hsome, job, rfl, hguard.2⟩, hguard.1⟩, fun h => h.1.1⟩

/-- What a search in a sorted list finds comes before all else that it looks for. -/
theorem rel_of_find? {α : Type} {R : α → α → Prop} {l : List α} (hl : l.Pairwise R) {p : α → Bool}
    {a b : α} (ha : l.find? p = some a) (hb : b ∈ l) (hpb : p b) : b = a ∨ R a b := by
  obtain ⟨-, front, back, rfl, hfront⟩ := List.find?_eq_some_iff_append.mp ha
  rcases List.mem_append.mp hb with hmem | hmem
  · have := hfront b hmem
    simp [hpb] at this
  · rcases List.mem_cons.mp hmem with rfl | hback
    · exact .inl rfl
    · exact .inr ((List.pairwise_cons.mp (List.pairwise_append.mp hl).2.1).1 b hback)

/-- Jobs are looked at in the order of their submission texts. -/
theorem pairwise_jobIdsBySubmission (s : Store) :
    s.jobIdsBySubmission.Pairwise fun a b => ∀ first second, s.jobs.get? a = some first →
      s.jobs.get? b = some second → first.submittedAt ≤ second.submittedAt := by
  rw [jobIdsBySubmission, List.pairwise_map]
  have hentries : ∀ entry ∈ s.jobs.entries.insertionSort
      (fun a b => a.2.submittedAt ≤ b.2.submittedAt), s.jobs.get? entry.1 = some entry.2 := by
    intro entry hentry
    exact Dict.get?_eq_some_iff.mpr ((List.mem_insertionSort _).mp hentry)
  apply (List.pairwise_insertionSort _ _).imp_of_mem
  intro a b ha hb hle first second hfirst hsecond
  rw [hentries a ha] at hfirst
  rw [hentries b hb] at hsecond
  cases hfirst
  cases hsecond
  exact hle

theorem mem_jobIdsBySubmission {job : JobRecord} (hjob : s.jobs.get? j = some job) :
    j ∈ s.jobIdsBySubmission := by
  rw [jobIdsBySubmission, List.mem_map]
  exact ⟨(j, job), (List.mem_insertionSort _).mpr (Dict.get?_eq_some_iff.mp hjob), rfl⟩

/-- The job that is claimed is the oldest, going by the texts. -/
theorem submittedAt_le_of_claimNextRunnableJob {jobTypes : Option (List String)} {args : ClaimArgs}
    {claim : ClaimRecord} {submittedAt : String}
    (hclaim : (s.claimNextRunnableJob jobTypes args).1 = some claim)
    (hj : QueuedAt s jobTypes j submittedAt) : claim.job.submittedAt ≤ submittedAt := by
  obtain ⟨htype, hrun, job, hjob, rfl⟩ := hj
  unfold claimNextRunnableJob at hclaim
  split at hclaim
  · cases hclaim
  rename_i k hfind
  -- the claim is of the job found
  obtain ⟨found, hfound, hsubmitted⟩ : ∃ found, s.jobs.get? k = some found ∧
      claim.job.submittedAt = found.submittedAt := by
    unfold claimRunnableJobById at hclaim
    split at hclaim
    · cases hclaim
    · rename_i found current hrunk
      cases hclaim
      exact ⟨found, (runnable_eq_some hrunk).1, rfl⟩
  rw [hsubmitted]
  rcases rel_of_find? (pairwise_jobIdsBySubmission s) hfind (mem_jobIdsBySubmission hjob)
    (by simp [htype, hrun]) with rfl | hrel
  · rw [mem_unique hfound hjob]
  · exact hrel found job hfound hjob

/-! ### When the comparisons follow time -/

/-- The store's comparisons at the texts of two instants come out as they do in time. -/
structure OrdersLikeTime (t u : CivilDatetime) : Prop where
  lt : isoformat t < isoformat u ↔ t < u
  le : isoformat t ≤ isoformat u ↔ t ≤ u
  /-- Under a lease until `t`, a worker's step at `u` is accepted exactly when the lease is its own
  and has not expired. -/
  accepted : ∀ (s : Store) (args : TransitionArgs) (lease : LeaseRecord),
    s.leasesByJob.get? args.jobId = some lease → lease.leaseExpiresAt = isoformat t →
      (Accepts s args (isoformat u) ↔ Owns s args lease ∧ u < t)
  /-- Under a lease until `t`, a claim is recovered at `u` exactly when the lease has expired. -/
  recovered : ∀ (s : Store) (args : RecoveryArgs) (lease : LeaseRecord),
    s.leasesByJob.get? args.jobId = some lease → lease.leaseExpiresAt = isoformat t →
      (Recovers s args (isoformat u) ↔ Recoverable s args.jobId lease ∧ t ≤ u)
  /-- A renewal at `u` is until so many seconds after `u`. -/
  renewed : ∀ (s : Store) (args : TransitionArgs) (seconds : ℕ) (later : CivilDatetime)
    (transition : ClaimTransition), args.leaseExtensionSeconds = some seconds →
      u.addSeconds seconds = some later →
      (s.transitionCurrentClaim extendLease { args with nowFactory := some (isoformat u) }).1 =
        .ok (some transition) →
      ∃ lease, transition.lease = some lease ∧ lease.leaseExpiresAt = isoformat later
  /-- A job submitted at `u` is not claimed while one submitted at an earlier `t` is queued. -/
  oldest : ∀ (s : Store) (jobTypes : Option (List String)) (args : ClaimArgs) (claim : ClaimRecord)
    (jobId : String), (s.claimNextRunnableJob jobTypes args).1 = some claim →
      claim.job.submittedAt = isoformat u → QueuedAt s jobTypes jobId (isoformat t) → u ≤ t

/-- An accepted renewal is until the text that the extension writes. -/
theorem leaseExpiresAt_of_renewed {transition : ClaimTransition}
    (hseconds : args.leaseExtensionSeconds = some seconds)
    (h : (s.transitionCurrentClaim extendLease { args with nowFactory := some now }).1 =
      .ok (some transition)) :
    ∃ lease, transition.lease = some lease ∧ lease.leaseExpiresAt = extendLease now seconds := by
  unfold transitionCurrentClaim at h
  simp only [some_or] at h
  cases hclaim : s.currentClaim { args with nowFactory := some now } now with
  | none => simp [hclaim] at h
  | some claim =>
    simp only [hclaim, Except.ok.injEq, some.injEq] at h
    subst h
    simp [transitionedLease, hseconds]

theorem isoformat_le_iff (h : Comparable t u) : isoformat t ≤ isoformat u ↔ t ≤ u := by
  rw [← not_lt, isoformat_lt_iff h.symm, CivilDatetime.lt_def, CivilDatetime.le_def, Nat.not_lt]

/-- The texts of two instants are compared as the instants are, unless one of them is whole, the
other is not, and both lie in the same second. -/
theorem ordersLikeTime_iff (t u : CivilDatetime) : OrdersLikeTime t u ↔ Comparable t u := by
  constructor
  · intro h hsecond
    by_contra hshape
    rcases Nat.eq_zero_or_pos t.microsecond with ht | ht
    · have hu : u.microsecond ≠ 0 := fun hu => hshape (by simp [ht, hu])
      have hlt : t < u := CivilDatetime.lt_iff.mpr (.inr ⟨hsecond, by omega⟩)
      exact lt_asymm (h.lt.mpr hlt) (isoformat_lt_of_whole hsecond ht hu)
    · have hu : u.microsecond = 0 := by
        by_contra hu
        exact hshape (by simp [hu]; omega)
      have hlt := h.lt.mp (isoformat_lt_of_whole hsecond.symm hu (by omega))
      rcases CivilDatetime.lt_iff.mp hlt with hlt | ⟨-, hlt⟩ <;> omega
  · intro h
    refine ⟨isoformat_lt_iff h, isoformat_le_iff h, ?_, ?_, ?_, ?_⟩
    · intro s args lease hlease hexpiry
      rw [accepts_iff hlease, hexpiry, isoformat_lt_iff h.symm]
    · intro s args lease hlease hexpiry
      rw [recovers_iff hlease, hexpiry, isoformat_le_iff h]
    · intro s args seconds later transition hseconds hlater htransition
      obtain ⟨lease, hlease, hexpiry⟩ := leaseExpiresAt_of_renewed hseconds htransition
      exact ⟨lease, hlease, hexpiry.trans (extendLease_isoformat hlater)⟩
    · intro s jobTypes args claim jobId hclaim hsubmitted hqueued
      have hle := submittedAt_le_of_claimNextRunnableJob hclaim hqueued
      rw [hsubmitted] at hle
      exact (isoformat_le_iff h.symm).mp hle

/-! ### A lease that ends within a second -/

def fivePastNine : CivilDatetime where
  year := 2026
  month := 1
  day := 5
  hour := 9
  minute := 5
  second := 0
  microsecond := 0
  year_mem := by decide
  month_mem := by decide
  day_mem := by decide
  hour_lt := by decide
  minute_lt := by decide
  second_lt := by decide
  microsecond_lt := by decide

def halfSecondLater : CivilDatetime :=
  { fivePastNine with microsecond := 500000, microsecond_lt := by decide }

/-- The sample job, claimed until an instant. -/
def storeLeasedUntil (expiry : CivilDatetime) : Store :=
  (submittedStore.claimRunnableJobById sampleSubmission.jobId
    { sampleClaim with leaseExpiresAt := isoformat expiry }).2

/-- The heartbeat of the worker that holds the sample job. -/
def sampleHeartbeat : TransitionArgs :=
  heartbeatArgs sampleSubmission.jobId sampleClaim.workerId sampleSubmission.attemptRecord.attemptId

/-- Half a second before its lease ends, on the full second, a worker's heartbeat is refused and
its claim is recovered. Half a second after the end of a lease on the full second, the heartbeat
is accepted. -/
theorem whole_second_outlasts_its_fractions :
    fivePastNine < halfSecondLater ∧ ¬ OrdersLikeTime halfSecondLater fivePastNine ∧
      (¬ Accepts (storeLeasedUntil halfSecondLater) sampleHeartbeat (isoformat fivePastNine) ∧
        Recovers (storeLeasedUntil halfSecondLater) ⟨sampleSubmission.jobId, none, "retry", none⟩
          (isoformat fivePastNine)) ∧
      Accepts (storeLeasedUntil fivePastNine) sampleHeartbeat (isoformat halfSecondLater) := by
  have horder : isoformat halfSecondLater < isoformat fivePastNine :=
    isoformat_lt_of_whole rfl rfl (by decide)
  have hlease : ∀ expiry, ∃ lease, (storeLeasedUntil expiry).leasesByJob.get?
      sampleSubmission.jobId = some lease ∧ lease.leaseExpiresAt = isoformat expiry ∧
      Owns (storeLeasedUntil expiry) sampleHeartbeat lease ∧
      Recoverable (storeLeasedUntil expiry) sampleSubmission.jobId lease := fun expiry =>
    ⟨_, rfl, rfl, ⟨rfl, rfl, rfl, _, rfl, rfl⟩, rfl, _, rfl, rfl⟩
  obtain ⟨lease, hget, hexpiry, hown, hrecoverable⟩ := hlease halfSecondLater
  obtain ⟨whole, hgetWhole, hexpiryWhole, howns, -⟩ := hlease fivePastNine
  have hearlier : fivePastNine < halfSecondLater := by decide
  have hrefused :
      ¬ Accepts (storeLeasedUntil halfSecondLater) sampleHeartbeat (isoformat fivePastNine) := by
    rw [accepts_iff hget, hexpiry]
    exact fun h => lt_asymm h.2 horder
  refine ⟨hearlier, fun h => ?_, ⟨hrefused, ?_⟩, ?_⟩
  · exact hrefused ((h.accepted _ _ lease hget hexpiry).mpr ⟨hown, hearlier⟩)
  · rw [recovers_iff hget, hexpiry]
    exact ⟨hrecoverable, horder.le⟩
  · rw [accepts_iff hgetWhole, hexpiryWhole]
    exact ⟨howns, horder⟩

end LotusAI.AsyncRuntime
