import LotusAI.AsyncRuntime.System

/-!
# What a service can do

Whatever a service is answered, and whether it returns or raises, it changes the store by a
sequence of moves: a job is claimed, reported on, recovered, or moved by an operator.
Each move comes with the requests that the service makes of its neighbours for it, in order and
until one raises. One lemma for each service says so; what every move keeps, every service keeps.
-/

namespace LotusAI.AsyncRuntime

open Lib Store Option

/-! ### Moves of the store -/

/-- Requests about the evaluation run of a job, if it has one. -/
def JobRecord.onRun (job : JobRecord) (requests : String → List Neighbour) : List Neighbour :=
  job.relatedEvaluationRunId.elim [] requests

/-- What a claim asks of the evaluation runtime. -/
def claimRequests (workerId runId : String) : List Neighbour :=
  [.claimActiveEvaluationAttempt runId workerId
    (s!"Evaluation attempt claimed by worker '{workerId}' and is waiting for explicit " ++
      "execution start.")]

/-- What a recovery asks of it. -/
def recoveryRequests (runId : String) : List Neighbour :=
  [.abandonActiveEvaluationAttempt runId
      "Evaluation attempt abandoned after async lease expiry recovery." "LEASE_EXPIRED",
    .queueNextEvaluationAttempt runId "Evaluation retry queued after async lease expiry recovery."]

/-- What an operator asks of it who queues a job again. -/
def requeueRequests (manner reason runId : String) : List Neighbour :=
  [.queueNextEvaluationAttempt runId s!"{manner} queued after operator action: {reason}"]

/-- What an operator asks of it who abandons a job. -/
def abandonRequests (reason runId : String) : List Neighbour :=
  [.abandonActiveEvaluationAttempt runId s!"Evaluation attempt manually abandoned: {reason}"
    "MANUAL_ABANDON"]

variable {extendLease : String → ℕ → String} {s s' : Store} {job : JobRecord}

variable (extendLease) in
/-- One move of the store, with the requests that follow it. -/
inductive StoreMove : Store → List Neighbour → Store → Prop
  | claim {s : Store} {jobId : String} {job : JobRecord} {current : AttemptRecord}
      (args : ClaimArgs) (runnable : s.runnable jobId = some (job, current)) :
      StoreMove s (job.onRun (claimRequests args.workerId))
        (s.recordClaim (claimRecord args job current))
  | report {s s' : Store} {args : TransitionArgs} {transition : ClaimTransition}
      (shape : args.Renews ∨ args.Ends) (last : args.nextAttemptMessage = none)
      (moved : args.attemptStatus ≠ some .queued)
      (performed : s.transitionCurrentClaim extendLease args = (.ok (some transition), s')) :
      StoreMove s [] s'
  | retry {s s' : Store} {args : TransitionArgs} {transition : ClaimTransition}
      {next : AttemptRecord} (shape : args.Ends) (moved : args.attemptStatus ≠ some .queued)
      (performed : s.transitionCurrentClaim extendLease args = (.ok (some transition), s'))
      (minted : transition.nextAttempt = some next) :
      StoreMove s [.publishAttempt transition.job next none] s'
  | recover {s s' : Store} {args : RecoveryArgs} {recovery : RecoveryTransition}
      (performed : s.recoverExpiredClaim args = (.ok (some recovery), s')) :
      StoreMove s (.publishAttempt recovery.job recovery.nextAttempt none ::
        recovery.job.onRun recoveryRequests) s'
  | requeue {s : Store} {job : JobRecord} (stored : s.jobs.get? job.jobId = some job)
      (terminal : job.lifecycleStatus.isTerminal) (message manner reason : String) :
      StoreMove s (.publishAttempt (job.requeued message)
          (queuedAttempt job.jobId (job.attemptCount + 1) message) none ::
        job.onRun (requeueRequests manner reason)) (s.requeue job message)
  | abandon {s : Store} {job : JobRecord} {lease : LeaseRecord} {attempt : AttemptRecord}
      (stored : s.jobs.get? job.jobId = some job)
      (leased : s.leasesByJob.get? job.jobId = some lease)
      (found : s.getAttempt lease.attemptId = some attempt) (now reason : String) :
      StoreMove s (job.onRun (abandonRequests reason)) (s.abandon job lease attempt now reason)
  /-- A queued attempt is offered again, before its job is written. -/
  | offer {s : Store} {job : JobRecord} {attempt : AttemptRecord}
      (stored : s.jobs.get? job.jobId = some job) (deliveryId : String) :
      StoreMove s [.publishAttempt job attempt (some deliveryId)] s
  | redrive {s : Store} {job : JobRecord} (stored : s.jobs.get? job.jobId = some job)
      (queued : job.lifecycleStatus = .queued) (reason : String) :
      StoreMove s [] (s.redrive job reason)
  | quarantine {s : Store} {job : JobRecord} {attempt : AttemptRecord}
      (stored : s.jobs.get? job.jobId = some job) (queued : job.lifecycleStatus = .queued)
      (latest : latestAttemptOf (s.attemptsOf job.jobId) = some attempt) (now reason : String) :
      StoreMove s [] (s.quarantine job attempt now reason)
  | note {s : Store} (event : ControlEventRecord) : StoreMove s [] (s.saveControlEvent event)

variable {requests : List Neighbour}

/-- Moves keep the store coherent. -/
theorem StoreMove.coherent (h : StoreMove extendLease s requests s')
    (hc : Coherent s) : Coherent s' := by
  cases h with
  | claim args runnable => exact hc.recordClaim runnable args
  | report shape last moved performed =>
    have hkept := hc.transitionCurrentClaim extendLease shape
    rwa [performed] at hkept
  | retry shape moved performed =>
    have hkept := hc.transitionCurrentClaim extendLease (.inr shape)
    rwa [performed] at hkept
  | @recover _ args _ performed =>
    have hkept := hc.recoverExpiredClaim args
    rwa [performed] at hkept
  | requeue stored terminal message =>
    exact hc.requeue stored (LifecycleStatus.isActive_eq_false_of_isTerminal terminal) message
  | abandon stored leased found now reason => exact hc.abandon stored leased found now reason
  | offer => exact hc
  | redrive stored queued reason => exact hc.redrive stored queued reason
  | quarantine stored queued latest now reason =>
    exact hc.quarantine stored queued latest now reason
  | note event => exact ⟨hc.present, hc.absent, hc.inverse⟩

/-- Two records of one job: what a submission fixes for good is the same. -/
structure JobRecord.SameJob (job job' : JobRecord) : Prop where
  jobId : job'.jobId = job.jobId
  jobType : job'.jobType = job.jobType
  run : job'.relatedEvaluationRunId = job.relatedEvaluationRunId

theorem JobRecord.SameJob.refl (job : JobRecord) : job.SameJob job := ⟨rfl, rfl, rfl⟩

variable {job' : JobRecord} {a : AttemptRecord} {j : String} {attempts : List AttemptRecord}

theorem JobRecord.SameJob.trans {job'' : JobRecord} (h : job.SameJob job')
    (h' : job'.SameJob job'') : job.SameJob job'' :=
  ⟨h'.jobId.trans h.jobId, h'.jobType.trans h.jobType, h'.run.trans h.run⟩

/-- Jobs are neither lost nor invented, and an attempt that is queued now either was before, or is
under an id that no attempt had. -/
structure Grows (s s' : Store) : Prop where
  jobs : ∀ j job, s.jobs.get? j = some job → ∃ job', s'.jobs.get? j = some job' ∧
    job.SameJob job' ∧ job.attemptCount ≤ job'.attemptCount
  absent : ∀ j, s.jobs.get? j = none → s'.jobs.get? j = none
  queued : ∀ j, ∀ a ∈ s'.attemptsOf j, a.lifecycleStatus = .queued →
    a ∈ s.attemptsOf j ∨ ∀ b ∈ s.attemptsOf j, b.attemptId ≠ a.attemptId

theorem Grows.refl (s : Store) : Grows s s :=
  ⟨fun _ job hjob => ⟨job, hjob, .refl job, le_refl _⟩, fun _ h => h, fun _ _ ha _ => .inl ha⟩

/-- Of a job whose counter does not fall, every attempt id is kept. -/
theorem Grows.attemptId_kept (h : Grows s s') (hc : Coherent s) (hc' : Coherent s')
    (ha : a ∈ s.attemptsOf j) : ∃ a' ∈ s'.attemptsOf j, a'.attemptId = a.attemptId := by
  cases hjob : s.jobs.get? j with
  | none => rw [(hc.absent j hjob).1] at ha; cases ha
  | some job =>
    obtain ⟨job', hjob', -, hle⟩ := h.jobs j job hjob
    have hbounds := (hc.present j job hjob).mem_numbers.mp ⟨a, ha, rfl⟩
    obtain ⟨a', ha', hnum⟩ := (hc'.present j job' hjob').mem_numbers.mpr
      ⟨hbounds.1, hbounds.2.trans hle⟩
    refine ⟨a', ha', ?_⟩
    rw [((hc'.present j job' hjob').attempt a' ha').2, hnum,
      ((hc.present j job hjob).attempt a ha).2]

theorem Grows.trans {s'' : Store} (h : Grows s s') (h' : Grows s' s'') (hc : Coherent s)
    (hc' : Coherent s') : Grows s s'' where
  jobs j job hjob := by
    obtain ⟨job', hjob', hsame, hle⟩ := h.jobs j job hjob
    obtain ⟨job'', hjob'', hsame', hle'⟩ := h'.jobs j job' hjob'
    exact ⟨job'', hjob'', hsame.trans hsame', hle.trans hle'⟩
  absent j hjob := h'.absent j (h.absent j hjob)
  queued j a ha hqueued := by
    rcases h'.queued j a ha hqueued with hmid | hfresh
    · exact h.queued j a hmid hqueued
    · refine .inr fun b hb hid => ?_
      obtain ⟨b', hb', hid'⟩ := h.attemptId_kept hc hc' hb
      exact hfresh b' hb' (hid'.trans hid)

/-- A step on one job that queues at most the next attempt. -/
theorem Touches.grows {lease? : Option LeaseRecord} (h : Touches s s' j job' attempts lease?)
    (hc : Coherent s) (hjob : s.jobs.get? j = some job) (hsame : job.SameJob job')
    (hcount : job.attemptCount ≤ job'.attemptCount)
    (hqueued : ∀ a ∈ attempts, a.lifecycleStatus = .queued →
      a ∈ s.attemptsOf j ∨ a.attemptId = attemptIdOf j (job.attemptCount + 1)) : Grows s s' where
  jobs k found hfound := by
    by_cases hk : k = j
    · subst hk
      obtain rfl := mem_unique hjob hfound
      exact ⟨job', h.jobs_self, hsame, hcount⟩
    · exact ⟨found, by rw [h.jobs_of_ne hk, hfound], .refl found, le_refl _⟩
  absent k hk := by
    have hne : k ≠ j := by
      rintro rfl
      exact nomatch hjob.symm.trans hk
    rw [h.jobs_of_ne hne, hk]
  queued k a ha hstatus := by
    rw [h.attempts] at ha
    by_cases hk : k = j
    · subst hk
      rw [if_pos rfl] at ha
      refine (hqueued a ha hstatus).imp_right fun hid b hb heq => ?_
      have hcanon := ((hc.present k job hjob).attempt b hb).2
      have hle := ((hc.present k job hjob).mem_numbers.mp ⟨b, hb, rfl⟩).2
      have hnum := (attemptIdOf_inj (hcanon.symm.trans (heq.trans hid))).2
      omega
    · rw [if_neg hk] at ha
      exact .inl ha

theorem mem_withNext {b : AttemptRecord} {next? : Option AttemptRecord}
    (h : b ∈ withNext a next? attempts) : b = a ∨ next? = some b ∨ b ∈ attempts := by
  have hupsert : b ∈ upsertAttempt a attempts → b = a ∨ next? = some b ∨ b ∈ attempts := fun h =>
    (mem_upsertAttempt.mp h).imp id fun hb => .inr hb.1
  cases next? with
  | none => exact hupsert h
  | some next =>
    rcases mem_upsertAttempt.mp h with rfl | ⟨hb, -⟩
    · exact .inr (.inl rfl)
    · exact hupsert hb

/-- What a performed transition leaves of the attempts. -/
theorem grows_transition (hc : Coherent s) {args : TransitionArgs} {transition : ClaimTransition}
    (hmoved : args.attemptStatus ≠ some .queued)
    (hperformed : s.transitionCurrentClaim extendLease args = (.ok (some transition), s')) :
    Grows s s' := by
  obtain ⟨now, lease, attempt, job, hlease, hjob, -, hmem, hnum, rfl, ht⟩ :=
    touches_transition hc hperformed
  have hcj := hc.present _ job hjob
  refine ht.grows hc hjob ⟨rfl, rfl, rfl⟩ ?_ fun a ha hstatus => ?_
  · unfold transitionedJob successorAttempt
    cases args.nextAttemptMessage <;> simp [queuedAttempt]
  · rcases mem_withNext ha with rfl | hnext | hold
    · -- the moved attempt was active and is not queued
      cases hargs : args.attemptStatus with
      | none =>
        have hactive := (hcj.active attempt hmem).mpr ⟨by simp [hlease], hnum⟩
        simp only [transitionedAttempt, hargs, getD_none] at hstatus
        rw [hstatus] at hactive
        cases hactive
      | some status =>
        simp only [transitionedAttempt, hargs, getD_some] at hstatus
        exact absurd (hargs.trans (congrArg some hstatus)) hmoved
    · obtain ⟨message, -, rfl⟩ := map_eq_some_iff.mp hnext
      exact .inr (by rw [queuedAttempt, hcj.jobId])
    · exact .inl hold

theorem StoreMove.grows (h : StoreMove extendLease s requests s')
    (hc : Coherent s) : Grows s s' := by
  have hupsert : ∀ {j : String} {a b : AttemptRecord}, b ∈ withNext a none (s.attemptsOf j) →
      a.lifecycleStatus ≠ .queued → b.lifecycleStatus = .queued → b ∈ s.attemptsOf j := by
    intro j a b hb hne hstatus
    rcases mem_withNext hb with rfl | hnext | hold
    · exact absurd hstatus hne
    · cases hnext
    · exact hold
  cases h with
  | claim args runnable =>
    exact (touches_claim hc runnable args).grows hc (runnable_eq_some runnable).1 ⟨rfl, rfl, rfl⟩
      (le_refl _) fun a ha hstatus => .inl (hupsert ha (by simp [claimRecord]) hstatus)
  | report shape last moved performed | retry shape moved performed =>
    exact grows_transition hc moved performed
  | recover performed =>
    rcases touches_recover hc performed with ⟨-, hnot⟩ |
      ⟨job, _, _, -, hjob, _, _, _, _, habandoned, ht⟩
    · exact absurd rfl (hnot _)
    · refine ht.grows hc hjob ⟨rfl, rfl, rfl⟩ (Nat.le_succ _) fun a ha hstatus => ?_
      rcases mem_withNext ha with rfl | hnext | hold
      · cases habandoned.symm.trans hstatus
      · cases hnext
        exact .inr rfl
      · exact .inl hold
  | requeue stored terminal message =>
    refine (Touches.requeue hc stored (LifecycleStatus.isActive_eq_false_of_isTerminal terminal)
      message).grows hc stored ⟨rfl, rfl, rfl⟩ (Nat.le_succ _) fun a ha _ => ?_
    rcases mem_upsertAttempt.mp ha with rfl | ⟨hold, -⟩
    · exact .inr rfl
    · exact .inl hold
  | abandon stored leased attempt now reason =>
    exact (Touches.abandon hc stored leased attempt now reason).grows hc stored ⟨rfl, rfl, rfl⟩
      (le_refl _) fun a ha hstatus => .inl (hupsert ha (by simp [withdrawnAttempt]) hstatus)
  | offer => exact .refl _
  | redrive stored queued reason =>
    exact (Touches.redrive hc stored queued reason).grows hc stored ⟨rfl, rfl, rfl⟩ (le_refl _)
      fun a ha _ => .inl ha
  | quarantine stored queued latest now reason =>
    exact (Touches.quarantine hc stored queued latest now reason).grows hc stored ⟨rfl, rfl, rfl⟩
      (le_refl _) fun a ha hstatus => .inl (hupsert ha (by simp [withdrawnAttempt]) hstatus)
  | note event => exact ⟨(Grows.refl s).jobs, (Grows.refl s).absent, (Grows.refl s).queued⟩

/-! ### Services that leave the system as it is -/

theorem passive_orRaise {α : Type} (r : Except Raised α) :
    (orRaise r : Service α).run.CallsOnly Call.Passive := by
  cases r <;> trivial

theorem passive_getRuntimeJob (jobId : String) : (getRuntimeJob jobId).run.CallsOnly Call.Passive :=
  ⟨trivial, fun r => by cases r <;> trivial⟩

theorem passive_requireCurrentClaim (jobId workerId : String) (t : Option ClaimTransition) :
    (requireCurrentClaim jobId workerId t).run.CallsOnly Call.Passive := by
  cases t <;> trivial

theorem passive_stageTerminalOutput (job : JobRecord) (workerId : String) :
    (stageTerminalOutput job workerId).run.CallsOnly Call.Passive :=
  ⟨trivial, fun _ => ⟨trivial, fun r => by cases r <;> trivial⟩⟩

theorem passive_publishTerminalArtifactOrReject (t : Option ClaimTransition)
    (artifact : ArtifactRecord) (jobId workerId : String) :
    (publishTerminalArtifactOrReject t artifact jobId workerId).run.CallsOnly Call.Passive := by
  have hrequest : ∀ request : Neighbour, request.isArtifact = true →
      (askNeighbour request).run.CallsOnly Call.Passive := fun request h =>
    ⟨h, fun r => by cases r <;> trivial⟩
  unfold publishTerminalArtifactOrReject
  split
  · exact (hrequest (.deleteObject _) rfl).bindRaising fun _ =>
      (passive_requireCurrentClaim jobId workerId t).bindRaising fun _ => trivial
  · exact (hrequest (.saveArtifact _) rfl).bindRaising fun _ => trivial

theorem passive_controlEvent (job : JobRecord) (request : ControlActionRequest)
    (authorization : AuthorizationDecision) (status : LifecycleStatus) (id : Option String) :
    (controlEvent job request authorization status id).run.CallsOnly Call.Passive :=
  ⟨trivial, fun _ => ⟨trivial, fun _ => trivial⟩⟩

/-! ### Requests -/

namespace Setting

variable {N : Type} (E : Setting N) {α β : Type}

/-- Requests are made in order, either to the last (`true`) or until one raises. -/
inductive Asks : List Neighbour → N → Bool → N → Prop
  | done {n : N} : Asks [] n true n
  | answered {request : Neighbour} {rest : List Neighbour} {n n' n'' : N} {choice : Choice}
      {answer ended : Bool} (first : E.answer n request choice = some (.ok answer, n'))
      (others : Asks rest n' ended n'') : Asks (request :: rest) n ended n''
  | raised {request : Neighbour} {rest : List Neighbour} {n n' : N} {choice : Choice} {e : Raised}
      (first : E.answer n request choice = some (.error e, n')) : Asks (request :: rest) n false n'

/-- A service that makes these requests and nothing else. -/
def Asking (requests : List Neighbour) (p : Service α) : Prop :=
  ∀ (σ : System N) (Q : Except Raised α → System N → Prop),
    (∀ a n, E.Asks requests σ.beside true n → Q (.ok a) ⟨σ.store, n⟩) →
    (∀ e n, E.Asks requests σ.beside false n → Q (.error e) ⟨σ.store, n⟩) → E.wp p Q σ

variable {E} {requests : List Neighbour} {f : α → Service β} {p : Service α} {n n' : N}
  {others : List Neighbour} {request : Neighbour} {args : TransitionArgs}

theorem Asks.append {n'' : N} {ended : Bool} (h : E.Asks requests n true n')
    (h' : E.Asks others n' ended n'') : E.Asks (requests ++ others) n ended n'' := by
  generalize htrue : true = all at h
  induction h with
  | done => exact h'
  | answered first _ ih => exact .answered first (ih h' htrue)
  | raised => cases htrue

theorem Asks.append_of_raised (h : E.Asks requests n false n') (others : List Neighbour) :
    E.Asks (requests ++ others) n false n' := by
  generalize hfalse : false = all at h
  induction h with
  | done => cases hfalse
  | answered first _ ih => exact .answered first (ih hfalse)
  | raised first => exact .raised first

theorem asking_pure (a : α) : E.Asking [] (pure a : Service α) :=
  fun _ _ hok _ => hok a _ .done

theorem asking_ask_bind {call : Call} {f : call.Answer → Service β}
    (hf : ∀ r, E.Asking requests (f r)) (hpassive : call.Passive := by trivial) :
    E.Asking requests (ask call >>= f) :=
  fun _ _ hok herror => wp_ask_bind (fun r => hf r _ _ hok herror) hpassive

theorem asking_request (hrequest : request.isArtifact = false) :
    E.Asking [request] (askNeighbour request) := by
  intro σ Q hok herror
  rw [← bind_pure (askNeighbour request)]
  refine wp_request_bind hrequest fun choice r n hanswer => ?_
  cases r with
  | ok answer => exact hok answer n (.answered hanswer .done)
  | error e => exact herror e n (.raised hanswer)

theorem Asking.bind (hp : E.Asking requests p) (hf : ∀ a, E.Asking others (f a)) :
    E.Asking (requests ++ others) (p >>= f) := by
  intro σ Q hok herror
  rw [wp_bind]
  refine hp σ _ (fun a n hasks => ?_) fun e n hasks => herror e n (hasks.append_of_raised others)
  exact hf a _ _ (fun b n' hasks' => hok b n' (hasks.append hasks'))
    fun e n' hasks' => herror e n' (hasks.append hasks')

theorem asking_cons (hrequest : request.isArtifact = false) {rest : List Neighbour}
    {f : Bool → Service β} (hf : ∀ b, E.Asking rest (f b)) :
    E.Asking (request :: rest) (askNeighbour request >>= f) :=
  (asking_request hrequest).bind hf

theorem asking_controlEvent (job : JobRecord) (request : ControlActionRequest)
    (authorization : AuthorizationDecision) (status : LifecycleStatus) (id : Option String) :
    E.Asking [] (controlEvent job request authorization status id) := by
  exact asking_ask_bind fun _ => asking_ask_bind fun _ => asking_pure _

theorem asking_syncEvaluationClaim (claim : ClaimRecord) (workerId : String) :
    E.Asking (claim.job.onRun (claimRequests workerId)) (syncEvaluationClaim claim workerId) := by
  unfold syncEvaluationClaim JobRecord.onRun
  cases claim.job.relatedEvaluationRunId with
  | none => exact asking_pure ()
  | some runId => exact asking_cons rfl fun _ => asking_pure ()

theorem asking_syncEvaluationRetryableAction (job : JobRecord) (reason manner : String) :
    E.Asking (job.onRun (requeueRequests manner reason))
      (syncEvaluationRetryableAction job reason manner) := by
  unfold syncEvaluationRetryableAction JobRecord.onRun
  cases job.relatedEvaluationRunId with
  | none => exact asking_pure ()
  | some runId => exact asking_cons rfl fun _ => asking_pure ()

theorem asking_syncEvaluationAbandon (job : JobRecord) (reason : String) :
    E.Asking (job.onRun (abandonRequests reason)) (syncEvaluationAbandon job reason) := by
  unfold syncEvaluationAbandon JobRecord.onRun
  cases job.relatedEvaluationRunId with
  | none => exact asking_pure ()
  | some runId => exact asking_cons rfl fun _ => asking_pure ()

/-! ### Services end by moves -/

variable (E) in
/-- One move, with its requests. -/
def Move (σ σ' : System N) : Prop :=
  ∃ requests ended, StoreMove E.extendLease σ.store requests σ'.store ∧
    E.Asks requests σ.beside ended σ'.beside

variable (E) in
/-- Any number of moves. -/
abbrev Moves : System N → System N → Prop := Relation.ReflTransGen E.Move

variable {σ σ' : System N}

theorem Moves.coherent (h : E.Moves σ σ') (hc : Coherent σ.store) : Coherent σ'.store := by
  induction h with
  | refl => exact hc
  | tail _ hmove ih =>
    obtain ⟨_, _, hstore, -⟩ := hmove
    exact hstore.coherent ih

theorem Moves.grows (h : E.Moves σ σ') (hc : Coherent σ.store) : Grows σ.store σ'.store := by
  induction h with
  | refl => exact .refl _
  | tail hmoves hmove ih =>
    obtain ⟨_, _, hstore, -⟩ := hmove
    have hmid := Moves.coherent hmoves hc
    exact ih.trans (hstore.grows hmid) hc hmid

variable (E) in
/-- A service, started in `σ`, ends by moves, whether it returns or raises. -/
def Keeps (σ : System N) (p : Service α) : Prop := E.wp p (fun _ σ' => E.Moves σ σ') σ

theorem keeps_of_passive (hp : p.run.CallsOnly Call.Passive) : E.Keeps σ p :=
  wp_of_passive hp fun _ => .refl

theorem Keeps.passive_bind (hp : p.run.CallsOnly Call.Passive) (hf : ∀ a, E.Keeps σ (f a)) :
    E.Keeps σ (p >>= f) :=
  wp_passive_bind hp hf fun _ => .refl

theorem Keeps.bind (hp : E.Keeps σ p) (hf : ∀ a σ', E.Moves σ σ' → E.Keeps σ' (f a)) :
    E.Keeps σ (p >>= f) := by
  unfold Keeps
  rw [wp_bind]
  refine wp_mono (fun r σ' hmoves => ?_) hp
  cases r with
  | ok a => exact wp_mono (fun _ _ hrest => hmoves.trans hrest) (hf a σ' hmoves)
  | error e => exact hmoves

/-- A move of the store, and a service that makes its requests. -/
theorem wp_move (hmove : StoreMove E.extendLease σ.store requests s')
    (hp : E.Asking requests p) : E.wp p (fun _ σ' => E.Moves σ σ') ⟨s', σ.beside⟩ :=
  hp _ _ (fun _ _ hasks => .single ⟨_, _, hmove, hasks⟩)
    fun _ _ hasks => .single ⟨_, _, hmove, hasks⟩

/-- A submission: its saves, and its request. -/
theorem wp_submitAsyncJob (sub : Submission) :
    E.wp (submitAsyncJob sub) (fun _ σ' => σ'.store = σ.store.submit sub ∧
      ∃ ended, E.Asks [.publishAttempt sub.jobRecord sub.attemptRecord none] σ.beside ended
        σ'.beside) σ :=
  wp_store_bind rfl (wp_store_bind rfl (asking_request rfl _ _ (fun _ _ h => ⟨rfl, _, h⟩)
    fun _ _ h => ⟨rfl, _, h⟩))

/-! #### Reports of a worker -/

/-- A transition finds no current claim, or is performed under the clock it reads. -/
theorem wp_freshTransition_bind {f : Option ClaimTransition → Service β}
    {Q : Except Raised β → System N → Prop} (hnone : E.wp (f none) Q σ)
    (hsome : ∀ now transition s',
      σ.store.transitionCurrentClaim E.extendLease { args with nowFactory := some now } =
        (.ok (some transition), s') → E.wp (f (some transition)) Q ⟨s', σ.beside⟩) :
    E.wp (freshTransition args >>= f) Q σ := by
  intro choice r σ' hexec
  obtain ⟨⟨answer, s'⟩, hcall, heq⟩ := map_eq_some_iff.mp hexec
  cases choice <;> simp only [Call.exec, reduceCtorEq, some.injEq] at hcall
  rename_i now
  cases heq
  -- a clock is read, so only the claim itself can be missing
  cases hclaim : σ.store.currentClaim { args with nowFactory := some now } now with
  | none =>
    have hperformed : σ.store.transitionCurrentClaim E.extendLease
        { args with nowFactory := some now } = (.ok none, σ.store) := by
      simp only [transitionCurrentClaim, some_or, hclaim]
    cases hperformed.symm.trans hcall
    exact hnone
  | some found =>
    obtain ⟨transition, s'', hperformed⟩ : ∃ transition s'',
        σ.store.transitionCurrentClaim E.extendLease { args with nowFactory := some now } =
          (.ok (some transition), s'') := by
      simp only [transitionCurrentClaim, some_or, hclaim]
      exact ⟨_, _, rfl⟩
    cases hperformed.symm.trans hcall
    exact hsome now transition _ hperformed

section Shapes

variable (jobId workerId attemptId : String) (failureReason : String)

theorem renews_startArgs : (startArgs jobId workerId attemptId).Renews :=
  ⟨.inl rfl, by simp [startArgs], by simp [startArgs], rfl, rfl⟩

theorem renews_heartbeatArgs : (heartbeatArgs jobId workerId attemptId).Renews :=
  ⟨.inl rfl, by simp [heartbeatArgs], by simp [heartbeatArgs], rfl, rfl⟩

theorem ends_completeArgs (message : String) (artifact : ArtifactRecord) :
    (completeArgs jobId workerId attemptId message artifact).Ends :=
  ⟨⟨rfl, rfl⟩, ⟨_, rfl, rfl, .inr ⟨rfl, rfl⟩⟩, ⟨_, rfl, rfl⟩⟩

theorem ends_retryArgs :
    (retryArgs jobId workerId attemptId failureReason).Ends :=
  ⟨⟨rfl, rfl⟩, ⟨_, rfl, rfl, .inl rfl⟩, ⟨_, rfl, rfl⟩⟩

theorem ends_failArgs (artifact : ArtifactRecord) :
    (failArgs jobId workerId attemptId failureReason artifact).Ends :=
  ⟨⟨rfl, rfl⟩, ⟨_, rfl, rfl, .inr ⟨rfl, rfl⟩⟩, ⟨_, rfl, rfl⟩⟩

end Shapes

/-- A report without a successor attempt, and what follows it. -/
theorem keeps_report_bind (hshape : args.Renews ∨ args.Ends)
    (hlast : args.nextAttemptMessage = none) (hmoved : args.attemptStatus ≠ some .queued)
    {f : Option ClaimTransition → Service β} (hf : ∀ t, (f t).run.CallsOnly Call.Passive) :
    E.Keeps σ (freshTransition args >>= f) := by
  refine wp_freshTransition_bind (wp_of_passive (hf none) fun _ => .refl)
    fun now transition s' hperformed => ?_
  have hshape' : ({ args with nowFactory := some now } : TransitionArgs).Renews ∨
      ({ args with nowFactory := some now } : TransitionArgs).Ends := by
    rcases hshape with h | h
    · exact .inl ⟨h.lease, h.job, h.attempt, h.successor, h.artifact⟩
    · exact .inr ⟨h.lease, h.job, h.attempt⟩
  exact wp_of_passive (hf _) fun _ =>
    .single ⟨[], true, .report hshape' hlast hmoved hperformed, .done⟩

section Reports

variable (jobId workerId attemptId : String)

theorem keeps_startAsyncJob : E.Keeps σ (startAsyncJob jobId workerId attemptId) :=
  keeps_report_bind (.inl (renews_startArgs ..)) rfl nofun fun t =>
    (passive_requireCurrentClaim jobId workerId t).bindRaising fun _ => trivial

theorem keeps_heartbeatAsyncJob : E.Keeps σ (heartbeatAsyncJob jobId workerId attemptId) :=
  keeps_report_bind (.inl (renews_heartbeatArgs ..)) rfl nofun fun t =>
    (passive_requireCurrentClaim jobId workerId t).bindRaising fun _ => trivial

theorem keeps_completeAsyncJob (message : String) :
    E.Keeps σ (completeAsyncJob jobId workerId attemptId message) :=
  .passive_bind (passive_getRuntimeJob jobId) fun job =>
    .passive_bind (passive_stageTerminalOutput job workerId) fun artifact =>
      keeps_report_bind (.inr (ends_completeArgs ..)) rfl (by simp [completeArgs]) fun t =>
        passive_publishTerminalArtifactOrReject t artifact jobId workerId

theorem keeps_failAsyncJob (reason : String) (retryable : Bool) :
    E.Keeps σ (failAsyncJob jobId workerId attemptId reason retryable) := by
  refine .passive_bind (passive_getRuntimeJob jobId) fun job => ?_
  cases retryable with
  | true =>
    refine wp_freshTransition_bind Relation.ReflTransGen.refl fun now transition s' hperformed => ?_
    rcases transitionCurrentClaim_cases hperformed with ⟨-, hnot⟩ |
      ⟨_, _, _, found, _, -, rfl, hanswer, -⟩
    · exact absurd rfl (hnot transition)
    cases hanswer
    have hends : ({ retryArgs jobId workerId attemptId reason with
        nowFactory := some now } : TransitionArgs).Ends :=
      ⟨⟨rfl, rfl⟩, ⟨_, rfl, rfl, .inl rfl⟩, ⟨_, rfl, rfl⟩⟩
    exact wp_move (.retry hends nofun hperformed rfl) (asking_cons rfl fun _ => asking_pure ())
  | false =>
    exact .passive_bind (passive_stageTerminalOutput job workerId) fun artifact =>
      keeps_report_bind (.inr (ends_failArgs ..)) rfl (by simp [failArgs]) fun t =>
        passive_publishTerminalArtifactOrReject t artifact jobId workerId

end Reports

/-! #### Recovery and claims -/

/-- One round of a recovery, for a job whose run is as it was listed. -/
theorem keeps_recoverExpiredAsyncJob (hc : Coherent σ.store) (now : Option String)
    {stored : JobRecord} (hstored : σ.store.jobs.get? job.jobId = some stored)
    (hrun : stored.relatedEvaluationRunId = job.relatedEvaluationRunId) :
    E.Keeps σ (recoverExpiredAsyncJob now job) := by
  unfold recoverExpiredAsyncJob
  split_ifs
  · exact .refl
  apply wp_store_bind rfl
  cases σ.store.getActiveLease job.jobId with
  | none => exact .refl
  | some lease =>
    intro choice answer σ' hexec
    obtain ⟨⟨answer', s'⟩, hcall, heq⟩ := map_eq_some_iff.mp hexec
    cases choice <;> simp only [Call.exec, reduceCtorEq, some.injEq] at hcall
    cases heq
    rcases touches_recover hc hcall with ⟨rfl, hnot⟩ |
      ⟨found, _, _, rfl, hfound, _, _, _, _, _, _⟩
    · rcases answer with e | (_ | recovery)
      · exact .refl
      · exact .refl
      · exact absurd rfl (hnot recovery)
    · obtain rfl := mem_unique hstored hfound
      refine wp_move (.recover hcall) (asking_cons rfl fun _ => ?_)
      unfold JobRecord.onRun JobRecord.requeued
      simp only [hrun]
      cases job.relatedEvaluationRunId with
      | none => exact asking_pure _
      | some runId => exact asking_cons rfl fun _ => asking_cons rfl fun _ => asking_pure _

/-- The listed jobs, each with the run it is stored with. -/
def Listed (σ : System N) (jobs : List JobRecord) : Prop :=
  ∀ job ∈ jobs, ∃ stored, σ.store.jobs.get? job.jobId = some stored ∧
    stored.relatedEvaluationRunId = job.relatedEvaluationRunId

theorem Listed.of_moves {jobs : List JobRecord} (h : Listed σ jobs) (hc : Coherent σ.store)
    (hmoves : E.Moves σ σ') : Listed σ' jobs := by
  intro job hjob
  obtain ⟨stored, hstored, hrun⟩ := h job hjob
  obtain ⟨stored', hstored', hsame, -⟩ := (hmoves.grows hc).jobs _ _ hstored
  exact ⟨stored', hstored', hsame.run.trans hrun⟩

theorem keeps_recoverEach (now : Option String) (jobs : List JobRecord) (hc : Coherent σ.store)
    (hlisted : Listed σ jobs) : E.Keeps σ (recoverEach now jobs) := by
  induction jobs generalizing σ with
  | nil => exact .refl
  | cons job rest ih =>
    obtain ⟨stored, hstored, hrun⟩ := hlisted job ((.head _) ..)
    refine .bind (keeps_recoverExpiredAsyncJob hc now hstored hrun) fun _ σ' hmoves => ?_
    have hrest : Listed σ' rest :=
      Listed.of_moves (fun j hj => hlisted j (.tail _ hj)) hc hmoves
    exact .bind (ih (hmoves.coherent hc) hrest) fun _ _ _ => .refl

theorem keeps_recoverExpiredAsyncJobs (hc : Coherent σ.store) (now : Option String) :
    E.Keeps σ (recoverExpiredAsyncJobs now) := by
  refine wp_store_bind rfl (keeps_recoverEach now _ hc fun job hjob => ?_)
  obtain ⟨⟨key, found⟩, hentry, rfl⟩ := List.mem_map.mp hjob
  have hget := Dict.get?_eq_some_iff.mpr ((List.mem_insertionSort _).mp hentry)
  exact ⟨found, by rw [(hc.present key found hget).jobId, hget], rfl⟩

/-- A claim finds nothing to run, or is recorded. -/
theorem claimRunnableJobById_cases (s : Store) (jobId : String) (args : ClaimArgs) :
    s.claimRunnableJobById jobId args = (none, s) ∨
    ∃ job current, s.runnable jobId = some (job, current) ∧ s.claimRunnableJobById jobId args =
      (some (claimRecord args job current), s.recordClaim (claimRecord args job current)) := by
  unfold claimRunnableJobById
  cases hrun : s.runnable jobId with
  | none => exact .inl rfl
  | some found => exact .inr ⟨found.1, found.2, rfl, rfl⟩

theorem claimNextRunnableJob_cases (s : Store) (jobTypes : Option (List String))
    (args : ClaimArgs) : s.claimNextRunnableJob jobTypes args = (none, s) ∨
    ∃ jobId, s.claimNextRunnableJob jobTypes args = s.claimRunnableJobById jobId args := by
  unfold claimNextRunnableJob
  split
  · exact .inl rfl
  · exact .inr ⟨_, rfl⟩

/-- What follows a claim by id. -/
theorem wp_claimed (jobId : String) (args : ClaimArgs) :
    E.wp (match (σ.store.claimRunnableJobById jobId args).1 with
      | none => return none
      | some claim => do
        syncEvaluationClaim claim args.workerId
        return some claim) (fun _ σ' => E.Moves σ σ')
      ⟨(σ.store.claimRunnableJobById jobId args).2, σ.beside⟩ := by
  rcases claimRunnableJobById_cases σ.store jobId args with h | ⟨job, current, hrun, h⟩
  · rw [h]
    exact .refl
  · rw [h]
    have hasks := (asking_syncEvaluationClaim (claimRecord args job current) args.workerId).bind
      fun _ => asking_pure (E := E) (some (claimRecord args job current))
    rw [List.append_nil] at hasks
    exact wp_move (.claim args hrun) hasks

theorem keeps_claimAfterRecovery (hc : Coherent σ.store) (workerId : String)
    {take : ClaimArgs → Service (Option ClaimRecord)}
    (htake : ∀ (σ' : System N) (args : ClaimArgs), E.Keeps σ' (do
      match ← take args with
      | none => return none
      | some claim =>
        syncEvaluationClaim claim args.workerId
        return some claim)) :
    E.Keeps σ (claimAfterRecovery E.extendLease workerId take) := by
  refine wp_ask_bind fun now => ?_
  exact Keeps.bind (keeps_recoverExpiredAsyncJobs hc (some now)) fun _ σ' _ => htake σ' _

theorem keeps_claimAsyncJobById (hc : Coherent σ.store) (jobId workerId : String) :
    E.Keeps σ (claimAsyncJobById E.extendLease jobId workerId) :=
  keeps_claimAfterRecovery hc workerId fun _ args => wp_store_bind rfl (wp_claimed jobId args)

theorem keeps_claimNextAsyncJobForTypes (hc : Coherent σ.store) (workerId : String)
    (jobTypes : Option (List String)) :
    E.Keeps σ (claimNextAsyncJobForTypes E.extendLease workerId jobTypes) := by
  refine keeps_claimAfterRecovery hc workerId fun σ' args => ?_
  rcases claimNextRunnableJob_cases σ'.store jobTypes args with h | ⟨jobId, h⟩
  · exact wp_store_bind (congrArg some h) .refl
  · exact wp_store_bind (congrArg some h) (wp_claimed jobId args)

/-! #### Operator actions -/

/-- A job is queued again, and its run with it. -/
theorem keeps_queueAgain_bind (hstored : σ.store.jobs.get? job.jobId = some job)
    {allowed : LifecycleStatus → Bool} (hallowed : ∀ st, allowed st → st.isTerminal)
    (refusal manner reason runManner : String) {f : AttemptRecord → Service β}
    (hf : ∀ a, E.Asking (job.onRun (requeueRequests runManner reason)) (f a)) :
    E.Keeps σ (queueAgain job allowed refusal manner reason >>= f) := by
  unfold queueAgain
  split_ifs with hstatus
  · unfold queueNextAsyncAttempt
    have hread : ((σ.store.saveAttempt (queuedAttempt job.jobId (job.attemptCount + 1)
        s!"Manual {manner} queued after operator action: {reason}")).saveJob
        (job.requeued s!"Manual {manner} queued after operator action: {reason}")).getJob
        job.jobId =
          some (job.requeued s!"Manual {manner} queued after operator action: {reason}") :=
      (get?_jobs_saveJob ..).trans (if_pos rfl)
    refine wp_store_bind rfl (wp_store_bind rfl
      (wp_store_bind (congrArg (fun q => some (q, _)) hread) ?_))
    exact wp_move (.requeue hstored (hallowed _ hstatus) _ runManner reason)
      ((asking_cons rfl fun _ => asking_pure _).bind hf)
  · exact .refl

theorem keeps_abandonActiveJob_bind (hstored : σ.store.jobs.get? job.jobId = some job)
    (reason : String) {f : String → Service β}
    (hf : ∀ a, E.Asking (job.onRun (abandonRequests reason)) (f a)) :
    E.Keeps σ (abandonActiveJob job reason >>= f) := by
  unfold abandonActiveJob
  split_ifs with hactive
  · exact .refl
  apply wp_store_bind rfl
  cases hlease : σ.store.getActiveLease job.jobId with
  | none => exact .refl
  | some lease =>
    apply wp_store_bind rfl
    cases hget : σ.store.getAttempt lease.attemptId with
    | none => exact .refl
    | some attempt =>
      refine wp_ask_bind fun now => ?_
      exact wp_store_bind rfl (wp_store_bind rfl (wp_store_bind rfl
        (wp_move (.abandon hstored hlease hget now reason) (hf _))))

/-- Past the guard the job was read as queued. -/
theorem keeps_requireQueuedWithoutLease_bind (action : String) {f : Unit → Service β}
    (hf : job.lifecycleStatus = .queued → E.Keeps σ (f ())) :
    E.Keeps σ (requireQueuedWithoutLease job action >>= f) := by
  unfold requireQueuedWithoutLease
  split_ifs with hstatus
  · exact .refl
  apply wp_store_bind rfl
  cases σ.store.getActiveLease job.jobId with
  | some lease => exact .refl
  | none => exact hf (not_not.mp hstatus)

theorem keeps_redriveQueuedAsyncJob (hstored : σ.store.jobs.get? job.jobId = some job)
    (request : ControlActionRequest) (authorization : AuthorizationDecision) :
    E.Keeps σ (redriveQueuedAsyncJob job request authorization) := by
  refine keeps_requireQueuedWithoutLease_bind "redriven" fun hstatus => ?_
  unfold latestAttempt
  apply wp_store_bind rfl
  cases (σ.store.listAttempts job.jobId).getLast? with
  | none => exact .refl
  | some attempt =>
    dsimp only
    split_ifs with hqueued
    · exact .refl
    refine wp_ask_bind fun hex => ?_
    rw [wp_bind]
    -- the message is published before the job is written
    refine asking_request rfl _ _ (fun published n hasks => ?_)
      fun e n hasks => .single ⟨_, _, .offer hstored _, hasks⟩
    have hoffered : E.Moves σ ⟨σ.store, n⟩ := .single ⟨_, _, .offer hstored _, hasks⟩
    dsimp only
    split_ifs
    · refine wp_mono (fun _ _ hrest => hoffered.trans hrest) (wp_store_bind rfl ?_)
      exact wp_move (.redrive hstored hstatus request.reason) (asking_controlEvent _ _ _ _ _)
    · exact hoffered

theorem keeps_quarantineQueuedAsyncJob (hc : Coherent σ.store)
    (hstored : σ.store.jobs.get? job.jobId = some job) (request : ControlActionRequest)
    (authorization : AuthorizationDecision) :
    E.Keeps σ (quarantineQueuedAsyncJob job request authorization) := by
  refine keeps_requireQueuedWithoutLease_bind "quarantined" fun hstatus => ?_
  obtain ⟨attempt, hlatest⟩ := hc.exists_latestAttempt hstored
  refine wp_store_bind rfl (wp_ask_bind fun now => ?_)
  have hread : (σ.store.listAttempts job.jobId).getLast? = some attempt := hlatest
  rw [hread]
  exact wp_store_bind rfl (wp_store_bind rfl
    (wp_move (.quarantine hstored hstatus hlatest now request.reason)
      (asking_controlEvent _ _ _ _ _)))

theorem keeps_applyControlAction (hc : Coherent σ.store)
    (hstored : σ.store.jobs.get? job.jobId = some job) (request : ControlActionRequest)
    (authorization : AuthorizationDecision) :
    E.Keeps σ (applyControlAction job request authorization) := by
  have hrequeue : ∀ manner status id, E.Asking (job.onRun (requeueRequests manner request.reason))
      (do
        syncEvaluationRetryableAction job request.reason manner
        controlEvent job request authorization status id) := by
    intro manner status id
    simpa using (asking_syncEvaluationRetryableAction job request.reason manner).bind
      fun _ => asking_controlEvent job request authorization status id
  unfold applyControlAction
  cases request.actionType with
  | retryFailedJob | requeueAbandonedJob =>
    exact keeps_queueAgain_bind hstored (by simp [LifecycleStatus.isTerminal]) _ _ _ _ fun _ =>
      hrequeue _ _ _
  | replayTerminalJob =>
    exact keeps_queueAgain_bind hstored (fun _ h => h) _ _ _ _ fun _ => hrequeue _ _ _
  | abandonActiveJob =>
    refine keeps_abandonActiveJob_bind hstored request.reason fun _ => ?_
    simpa using (asking_syncEvaluationAbandon job request.reason).bind
      fun _ => asking_controlEvent job request authorization .abandoned (some _)
  | redriveQueuedJob => exact keeps_redriveQueuedAsyncJob hstored request authorization
  | quarantineQueuedJob => exact keeps_quarantineQueuedAsyncJob hc hstored request authorization

/-- An operator's action, performed without interruption: every record it writes is built from
what it has just read. -/
theorem keeps_applyAsyncControlAction (hc : Coherent σ.store) (request : ControlActionRequest) :
    E.Keeps σ (applyAsyncControlAction request) := by
  refine wp_ask_bind fun decision => ?_
  unfold requireAuthorized
  split_ifs
  · apply wp_store_bind rfl
    cases hjob : σ.store.getJob request.jobId with
    | none => exact .refl
    | some job =>
      have hid := (hc.present _ job hjob).jobId
      have hstored : σ.store.jobs.get? job.jobId = some job := by rw [hid]; exact hjob
      exact Keeps.bind (keeps_applyControlAction hc hstored request decision) fun event σ' _ =>
        wp_store_bind rfl (wp_move (.note event) (asking_pure event))
  · exact .refl

end Setting

end LotusAI.AsyncRuntime
