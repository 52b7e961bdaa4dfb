import LotusAI.AsyncRuntime.Deliveries
import LotusAI.AsyncRuntime.Runs

/-!
# Attempt ids over the life of a job

An attempt id is minted from the job's counter, in three places, and a fourth takes it from a
message: around a delivery whose job is gone, a job is rebuilt with the delivery's attempt id and
the counter 1. Retention deletes terminal jobs, and messages may outlive them. While every
unhandled delivery finds its job, no id is used twice.
-/

namespace LotusAI.AsyncRuntime

open Lib Store Setting

/-! ### Retention -/

namespace Store

/-- `delete_job_records`, its counts left out. -/
def deleteJobRecords (s : Store) (jobIds : List String) : Store := jobIds.foldl deleteJobRecord s

variable {s : Store} (jobId k : String)

theorem jobs_deleteJobRecord :
    (s.deleteJobRecord jobId).jobs.get? k = if k = jobId then none else s.jobs.get? k :=
  Dict.get?_erase ..

theorem attemptsOf_deleteJobRecord :
    (s.deleteJobRecord jobId).attemptsOf k = if k = jobId then [] else s.attemptsOf k := by
  unfold attemptsOf deleteJobRecord
  rw [Dict.get?_erase]
  split_ifs <;> rfl

end Store

variable {extendLease : String → ℕ → String} {s s' : Store} {α : Type}

theorem Coherent.deleteJobRecord (h : Coherent s) (jobId : String) :
    Coherent (s.deleteJobRecord jobId) where
  present k job hk := by
    rw [jobs_deleteJobRecord] at hk
    split_ifs at hk with hne
    have hlease : (s.deleteJobRecord jobId).leasesByJob.get? k = s.leasesByJob.get? k :=
      Dict.get?_erase_of_ne _ hne
    rw [attemptsOf_deleteJobRecord, if_neg hne, hlease]
    exact h.present k job hk
  absent k hk := by
    have hlease : (s.deleteJobRecord jobId).leasesByJob.get? k =
        if k = jobId then none else s.leasesByJob.get? k := Dict.get?_erase ..
    rw [jobs_deleteJobRecord] at hk
    rw [attemptsOf_deleteJobRecord, hlease]
    split_ifs at hk ⊢ with hk'
    · exact ⟨rfl, rfl⟩
    · exact h.absent k hk
  inverse := leasesInverse_deleteJobRecord h.inverse jobId

/-- What retention leaves was there before. -/
structure Spares (s s' : Store) : Prop where
  jobs : ∀ j job, s'.jobs.get? j = some job → s.jobs.get? j = some job
  attempts : ∀ j, ∀ a ∈ s'.attemptsOf j, a ∈ s.attemptsOf j

theorem deleteJobRecords_spares (h : Coherent s) (jobIds : List String) :
    Coherent (s.deleteJobRecords jobIds) ∧ Spares s (s.deleteJobRecords jobIds) := by
  induction jobIds generalizing s with
  | nil => exact ⟨h, fun _ _ hjob => hjob, fun _ _ ha => ha⟩
  | cons jobId rest ih =>
    obtain ⟨hcoherent, hspares⟩ := ih (h.deleteJobRecord jobId)
    refine ⟨hcoherent, fun j job hjob => ?_, fun j a ha => ?_⟩
    · have hkept := hspares.jobs j job hjob
      rw [jobs_deleteJobRecord] at hkept
      split_ifs at hkept
      exact hkept
    · have hkept := hspares.attempts j a ha
      rw [attemptsOf_deleteJobRecord] at hkept
      split_ifs at hkept
      · cases hkept
      · exact hkept

/-! ### Histories -/

/-- The store, and the id of every attempt that it ever held. -/
structure AttemptHistory where
  store : Store
  used : List String

def Store.attemptIds (s : Store) : List String :=
  s.attempts.values.flatten.map AttemptRecord.attemptId

theorem Store.mem_attemptIds {id : String} :
    id ∈ s.attemptIds ↔ ∃ j, ∃ a ∈ s.attemptsOf j, a.attemptId = id := by
  simp only [attemptIds, List.mem_map, List.mem_flatten, Dict.mem_values_iff]
  constructor
  · rintro ⟨a, ⟨attempts, ⟨j, hj⟩, ha⟩, rfl⟩
    exact ⟨j, a, by rw [attemptsOf, hj]; exact ha, rfl⟩
  · rintro ⟨j, a, ha, rfl⟩
    unfold attemptsOf at ha
    cases hj : s.attempts.get? j with
    | none => rw [hj] at ha; cases ha
    | some attempts => rw [hj] at ha; exact ⟨a, ⟨attempts, ⟨j, hj⟩, ha⟩, rfl⟩

namespace AttemptHistory

/-- Nothing has happened yet. -/
def empty : AttemptHistory := ⟨.empty, []⟩

/-- The history with the store that a step left. -/
def next (h : AttemptHistory) (s' : Store) : AttemptHistory := ⟨s', h.used ++ s'.attemptIds⟩

end AttemptHistory

/-- What happens to the store. -/
inductive RuntimeEvent
  | submit (sub : Submission)
  | service (call : ServiceCall)
  | retain (jobIds : List String)
  | unhandled (m : DeliveryMessage) (workerId reason : String)

/-- A store that a program, run to its end, leaves. -/
def Ends (extendLease : String → ℕ → String) {α : Type} (p : Service α) (s s' : Store) : Prop :=
  ∃ choices result, (machine extendLease).run () p.run s choices = some (result, s')

theorem Ends.of_wp {p : Service α} (h : Ends extendLease p s s') (Q : Store → Prop)
    (hp : (unobserved extendLease).wp p (fun _ σ => Q σ.store) ⟨s, ()⟩) : Q s' := by
  obtain ⟨choices, result, hrun⟩ := h
  have hwp : (machine extendLease).wp () p.run (fun _ s' => Q s') s := wp_unobserved hp
  exact Machine.wp_run hwp hrun

/-- One step of a history. The id of a submitted job is minted anew, retention deletes terminal
jobs, and a delivery is of an attempt that was stored once. -/
def AttemptHistory.Step (extendLease : String → ℕ → String) (h : AttemptHistory) (s' : Store) :
    RuntimeEvent → Prop
  | .submit sub => (h.store.jobs.get? sub.jobId = none ∧ ∀ n, attemptIdOf sub.jobId n ∉ h.used) ∧
      Ends extendLease (submitAsyncJob sub) h.store s'
  | .service call => Ends extendLease (call.program extendLease) h.store s'
  | .retain jobIds => (∀ j ∈ jobIds, ∀ job, h.store.jobs.get? j = some job →
      job.lifecycleStatus.isTerminal) ∧ s' = h.store.deleteJobRecords jobIds
  | .unhandled m workerId reason => m.attemptId ∈ h.used ∧
      Ends extendLease (recoverUnhandledDelivery m workerId reason) h.store s'

/-- The histories reached by steps that all meet a condition on the store they start from. -/
inductive AttemptHistory.Reached (extendLease : String → ℕ → String)
    (ok : Store → RuntimeEvent → Prop) : AttemptHistory → Prop
  | empty : Reached extendLease ok .empty
  | step {h : AttemptHistory} {s' : Store} (event : RuntimeEvent)
      (reached : Reached extendLease ok h) (stepped : h.Step extendLease s' event)
      (allowed : ok h.store event) : Reached extendLease ok (h.next s')

/-- The step to `s'` gives no attempt an id that another had. -/
structure IdentitiesKept (h : AttemptHistory) (s' : Store) : Prop where
  /-- An id that appears was never used. -/
  fresh : ∀ id ∈ s'.attemptIds, id ∈ h.store.attemptIds ∨ id ∉ h.used
  /-- A queued attempt was there before, or its id was never used. -/
  queued : ∀ j, ∀ a ∈ s'.attemptsOf j, a.lifecycleStatus = .queued →
    a ∈ h.store.attemptsOf j ∨ a.attemptId ∉ h.used
  /-- A terminal attempt is not overwritten by a queued one. -/
  terminal : ∀ j, ∀ a ∈ h.store.attemptsOf j, a.lifecycleStatus.isTerminal →
    ∀ a' ∈ s'.attemptsOf j, a'.attemptId = a.attemptId → a'.lifecycleStatus ≠ .queued
  /-- An id ends in the number of its attempt. -/
  numbered : ∀ j, ∀ a ∈ s'.attemptsOf j, a.attemptId = attemptIdOf j a.attemptNumber

def DeliveryFindsJob (s : Store) : RuntimeEvent → Prop
  | .unhandled m _ _ => (s.jobs.get? m.jobId).isSome
  | _ => True

/-! ### While deliveries find their jobs -/

/-- Every used id of a stored job is below the job's counter. -/
structure AttemptHistory.Counted (h : AttemptHistory) : Prop where
  coherent : Coherent h.store
  counted : ∀ j job, h.store.jobs.get? j = some job → ∀ n, attemptIdOf j n ∈ h.used →
    n ≤ job.attemptCount

variable {h : AttemptHistory}

theorem Coherent.exists_stored (hc : Coherent s) {j : String} {a : AttemptRecord}
    (ha : a ∈ s.attemptsOf j) : ∃ job, s.jobs.get? j = some job := by
  cases hjob : s.jobs.get? j with
  | none => rw [(hc.absent j hjob).1] at ha; cases ha
  | some job => exact ⟨job, rfl⟩

/-- A step after which each job is either new or counts at least as far as before. -/
theorem AttemptHistory.Counted.kept (hcount : h.Counted) (hc' : Coherent s')
    (hjobs : ∀ j job', s'.jobs.get? j = some job' →
      (∃ job, h.store.jobs.get? j = some job ∧ job.attemptCount ≤ job'.attemptCount) ∨
      ∀ n, attemptIdOf j n ∉ h.used)
    (hqueued : ∀ j, ∀ a ∈ s'.attemptsOf j, a.lifecycleStatus = .queued →
      a ∈ h.store.attemptsOf j ∨ ∀ b ∈ h.store.attemptsOf j, b.attemptId ≠ a.attemptId) :
    IdentitiesKept h s' ∧ (h.next s').Counted := by
  have hnumbered : ∀ j, ∀ a ∈ s'.attemptsOf j, a.attemptId = attemptIdOf j a.attemptNumber := by
    intro j a ha
    obtain ⟨job', hjob'⟩ := hc'.exists_stored ha
    exact ((hc'.present j job' hjob').attempt a ha).2
  -- an attempt is one of before, or its id was never used
  have hfresh : ∀ j, ∀ a ∈ s'.attemptsOf j,
      (∃ b ∈ h.store.attemptsOf j, b.attemptId = a.attemptId) ∨ a.attemptId ∉ h.used := by
    intro j a ha
    obtain ⟨job', hjob'⟩ := hc'.exists_stored ha
    rw [hnumbered j a ha]
    rcases hjobs j job' hjob' with ⟨job, hjob, -⟩ | hnew
    · by_cases hle : a.attemptNumber ≤ job.attemptCount
      · have hpos := ((hc'.present j job' hjob').mem_numbers.mp ⟨a, ha, rfl⟩).1
        have hcj := hcount.coherent.present j job hjob
        obtain ⟨b, hb, hnum⟩ := hcj.mem_numbers.mpr ⟨hpos, hle⟩
        exact .inl ⟨b, hb, by rw [(hcj.attempt b hb).2, hnum]⟩
      · exact .inr fun hused => hle (hcount.counted j job hjob _ hused)
    · exact .inr (hnew _)
  refine ⟨⟨fun id hid => ?_, fun j a ha hstatus => ?_,
    fun j a ha hterminal a' ha' hid hstatus => ?_, hnumbered⟩, hc', fun j job' hjob' n hn => ?_⟩
  · obtain ⟨j, a, ha, rfl⟩ := mem_attemptIds.mp hid
    exact (hfresh j a ha).imp_left fun ⟨b, hb, heq⟩ => mem_attemptIds.mpr ⟨j, b, hb, heq⟩
  · rcases hqueued j a ha hstatus with hold | hnone
    · exact .inl hold
    · exact (hfresh j a ha).imp_left fun ⟨b, hb, heq⟩ => absurd heq (hnone b hb)
  · rcases hqueued j a' ha' hstatus with hold | hnone
    · -- two attempts of one job with one id are the same
      obtain ⟨job, hjob⟩ := hcount.coherent.exists_stored ha
      have hcj := hcount.coherent.present j job hjob
      have hnum : a'.attemptNumber = a.attemptNumber :=
        (attemptIdOf_inj (((hcj.attempt a' hold).2.symm.trans hid).trans (hcj.attempt a ha).2)).2
      have hnodup : ((h.store.attemptsOf j).map AttemptRecord.attemptNumber).Nodup :=
        hcj.numbers.nodup_iff.mpr List.nodup_range'
      rw [List.inj_on_of_nodup_map hnodup hold ha hnum] at hstatus
      rw [hstatus] at hterminal
      cases hterminal
    · exact hnone a ha hid.symm
  · rcases List.mem_append.mp hn with hold | hnew
    · rcases hjobs j job' hjob' with ⟨job, hjob, hle⟩ | hunused
      · exact (hcount.counted j job hjob n hold).trans hle
      · exact absurd hold (hunused n)
    · obtain ⟨k, a, ha, hid⟩ := mem_attemptIds.mp hnew
      obtain ⟨rfl, rfl⟩ := attemptIdOf_inj ((hnumbered k a ha).symm.trans hid)
      exact ((hc'.present k job' hjob').mem_numbers.mp ⟨a, ha, rfl⟩).2

theorem AttemptHistory.Counted.step (hcount : h.Counted) {event : RuntimeEvent}
    (hstep : h.Step extendLease s' event) (hfinds : DeliveryFindsJob h.store event) :
    IdentitiesKept h s' ∧ (h.next s').Counted := by
  have hc := hcount.coherent
  -- programs that end by moves
  have hmoves : ∀ p : Service Unit, (unobserved extendLease).Keeps ⟨h.store, ()⟩ p →
      Ends extendLease p h.store s' → IdentitiesKept h s' ∧ (h.next s').Counted := by
    intro p hp hends
    have hend : Coherent s' ∧ Grows h.store s' :=
      hends.of_wp (fun t => Coherent t ∧ Grows h.store t)
        (Setting.wp_mono (fun _ _ hm => ⟨hm.coherent hc, hm.grows hc⟩) hp)
    refine hcount.kept hend.1 (fun j job' hjob' => ?_) hend.2.queued
    cases hjob : h.store.jobs.get? j with
    | none => exact nomatch (hend.2.absent j hjob).symm.trans hjob'
    | some job =>
      obtain ⟨found, hfound, -, hle⟩ := hend.2.jobs j job hjob
      obtain rfl := Option.mem_unique hfound hjob'
      exact .inl ⟨job, rfl, hle⟩
  cases event with
  | submit sub =>
    obtain ⟨⟨hnone, hunused⟩, hends⟩ := hstep
    obtain rfl : s' = h.store.submit sub :=
      hends.of_wp (· = h.store.submit sub)
        (Setting.wp_mono (fun _ _ hsaved => hsaved.1) (wp_submitAsyncJob sub))
    have ht := Touches.submit hc hnone
    refine hcount.kept (hc.submit hnone) (fun j job' hjob' => ?_) fun j a ha hstatus => ?_
    · rw [ht.jobs] at hjob'
      split_ifs at hjob' with hj
      · exact .inr (hj ▸ hunused)
      · exact .inl ⟨job', hjob', le_refl _⟩
    · rw [ht.attempts] at ha
      split_ifs at ha with hj
      · rw [List.mem_singleton.mp ha] at hstatus
        cases hstatus
      · exact .inl ha
  | service call => exact hmoves _ (call.keeps hc) hstep
  | retain jobIds =>
    obtain ⟨-, rfl⟩ := hstep
    obtain ⟨hc', hspares⟩ := deleteJobRecords_spares hc jobIds
    exact hcount.kept hc' (fun j job' hjob' => .inl ⟨job', hspares.jobs j job' hjob', le_refl _⟩)
      fun j a ha _ => .inl (hspares.attempts j a ha)
  | unhandled m workerId reason =>
    obtain ⟨job, hjob⟩ := Option.isSome_iff_exists.mp hfinds
    exact hmoves _ (keeps_recoverUnhandledDelivery hc hjob workerId reason) hstep.2

theorem AttemptHistory.Reached.counted (hreached : h.Reached extendLease DeliveryFindsJob) :
    h.Counted := by
  induction hreached with
  | empty => exact ⟨coherent_empty, nofun⟩
  | step event _ stepped allowed ih => exact (ih.step stepped allowed).2

/-! ### A late delivery

A job is quarantined, requeued and quarantined again, and retention deletes it. The message of its
second attempt is still in the queue. -/

/-- Where a program leads under these choices. -/
def performed {α : Type} (p : Service α) (choices : List Choice) (s : Store) : Store :=
  (((machine fun now _ => now).run () p.run s choices).map Prod.snd).getD s

theorem ends_performed {p : Service α} {choices : List Choice}
    (h : ((machine fun now _ => now).run () p.run s choices).isSome) :
    Ends (fun now _ => now) p s (performed p choices s) := by
  obtain ⟨⟨result, s'⟩, hrun⟩ := Option.isSome_iff_exists.mp h
  exact ⟨choices, result, by rw [performed, hrun]; rfl⟩

def lateSubmission : Submission := { sampleSubmission with jobId := "j" }

/-- An operator's action on the job. -/
def lateAction (actionType : ControlActionType) : ServiceCall :=
  .control ⟨"ops", "j", actionType, "operator", none, "stuck"⟩

def quarantineChoices : List Choice :=
  [.authorization ⟨"ops", true, ""⟩, .store, .store, .store, .time "1", .store, .store, .uuid "",
    .time "1", .store]

def requeueChoices : List Choice :=
  [.authorization ⟨"ops", true, ""⟩, .store, .store, .store, .store, .neighbour (.ok true),
    .uuid "", .time "1", .store]

def quarantined (s : Store) : Store :=
  performed ((lateAction .quarantineQueuedJob).program fun now _ => now) quarantineChoices s

def requeued (s : Store) : Store :=
  performed ((lateAction .requeueAbandonedJob).program fun now _ => now) requeueChoices s

/-- The job with its first attempt, and with its second. -/
def firstStore : Store := performed (submitAsyncJob lateSubmission)
  [.store, .store, .neighbour (.ok true)] .empty

abbrev secondStore : Store := requeued (quarantined firstStore)

/-- The history up to the second attempt, and up to the job's deletion. -/
def secondHistory : AttemptHistory :=
  ((AttemptHistory.empty.next firstStore).next (quarantined firstStore)).next secondStore

def lateHistory : AttemptHistory :=
  (secondHistory.next (quarantined secondStore)).next
    ((quarantined secondStore).deleteJobRecords ["j"])

theorem reached_secondHistory : secondHistory.Reached (fun now _ => now) DeliveryFindsJob := by
  refine .step (.service (lateAction .requeueAbandonedJob))
    (.step (.service (lateAction .quarantineQueuedJob)) (.step (.submit lateSubmission) .empty
      ⟨⟨rfl, nofun⟩, ends_performed ?_⟩ trivial) (ends_performed ?_) trivial)
    (ends_performed ?_) trivial
  all_goals decide +kernel

theorem reached_lateHistory : lateHistory.Reached (fun now _ => now) DeliveryFindsJob := by
  refine .step (.retain ["j"]) (.step (.service (lateAction .quarantineQueuedJob))
    reached_secondHistory (ends_performed ?_) trivial) ⟨?_, rfl⟩ trivial
  · decide +kernel
  · intro j hj job hjob
    obtain rfl := List.mem_singleton.mp hj
    have hterminal : ((quarantined secondStore).jobs.get? "j").all
        (·.lifecycleStatus.isTerminal) := by decide +kernel
    rw [show (quarantined secondStore).jobs.get? "j" = some job from hjob] at hterminal
    exact hterminal

/-- The delivery of the second attempt. -/
def lateDelivery : DeliveryMessage :=
  deliveryMessage lateSubmission.jobRecord (queuedAttempt "j" 2 "") none

/-- In every history whose unhandled deliveries found their jobs, no step uses an id again. -/
theorem identitiesKept_of_run (extendLease : String → ℕ → String) (h : AttemptHistory)
    (hreached : h.Reached extendLease DeliveryFindsJob) (event : RuntimeEvent) (s' : Store)
    (hstep : h.Step extendLease s' event) (hfinds : DeliveryFindsJob h.store event) :
    IdentitiesKept h s' :=
  (hreached.counted.step hstep hfinds).1

/-- The delivery of a queued second attempt, unhandled, is made again. -/
theorem identitiesKept_redriven :
    (secondStore.jobs.get? "j").isSome ∧ IdentitiesKept secondHistory
      (performed (recoverUnhandledDelivery lateDelivery "worker-1" "late")
        [.store, .store, .store, .uuid "", .neighbour (.ok true), .store, .uuid "", .time "2",
          .store] secondStore) :=
  ⟨by decide +kernel, identitiesKept_of_run _ secondHistory reached_secondHistory
    (.unhandled lateDelivery "worker-1" "late") _
    ⟨by decide +kernel, ends_performed (by decide +kernel)⟩ (by decide +kernel : Option.isSome _)⟩

/-- The store after the delivery was recovered. -/
def orphanedStore : Store :=
  performed (recoverUnhandledDelivery lateDelivery "worker-1" "late")
    [.store, .time "2", .store, .store] lateHistory.store

/-- The recovery gives the id of the second attempt to an attempt that it numbers 1, and the next
requeue mints that id again, over an attempt that is terminal. -/
theorem exists_reused_attempt :
    lateHistory.Reached (fun now _ => now) DeliveryFindsJob ∧
    lateHistory.Step (fun now _ => now) orphanedStore (.unhandled lateDelivery "worker-1" "late") ∧
    (∃ a ∈ orphanedStore.attemptsOf "j", a.attemptId ∈ lateHistory.used ∧
      a.attemptId ∉ lateHistory.store.attemptIds ∧ a.attemptId = "j_attempt_002" ∧
      a.attemptNumber = 1 ∧ a.lifecycleStatus.isTerminal) ∧
    (lateHistory.next orphanedStore).Step (fun now _ => now) (requeued orphanedStore)
      (.service (lateAction .requeueAbandonedJob)) ∧
    ∃ a ∈ (requeued orphanedStore).attemptsOf "j",
      a.attemptId = "j_attempt_002" ∧ a.lifecycleStatus = .queued := by
  refine ⟨reached_lateHistory, ⟨?_, ends_performed ?_⟩, ?_, ends_performed ?_, ?_⟩
  all_goals decide +kernel

end LotusAI.AsyncRuntime
