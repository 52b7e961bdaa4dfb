import LotusAI.AsyncRuntime.Store

/-!
# What the async services call

The services above the store are programs: they call the store, the clock, the
identifier source, the access-control layer and a few neighbouring services, and
decide what to do next from the answers. `Call` lists those calls; `exec` gives
each its effect on the store. Calls to neighbours leave the store alone and are
answered by the environment, which may also raise.
-/

namespace LotusAI.AsyncRuntime

open Lib

/-- Requests to neighbouring services: the delivery queue, the evaluation
runtime and the artifact stores. None of them touches the async store. -/
inductive Neighbour
  | publishAttempt (job : JobRecord) (attempt : AttemptRecord) (deliveryId : Option String)
  | queueNextEvaluationAttempt (runId reasonMessage : String)
  | abandonActiveEvaluationAttempt (runId reasonMessage failureReason : String)
  | claimActiveEvaluationAttempt (runId workerId reasonMessage : String)
  | saveArtifact (artifact : ArtifactRecord)
  | deleteObject (storageReference : String)
  deriving DecidableEq

/-- One call of an async service. -/
inductive Call
  | getJob (jobId : String)
  | listJobs
  | listAttempts (jobId : String)
  | getAttempt (attemptId : String)
  | getActiveLease (jobId : String)
  | saveJob (record : JobRecord)
  | saveAttempt (record : AttemptRecord)
  | deleteLease (leaseId : String)
  | saveControlEvent (record : ControlEventRecord)
  | claimNextRunnableJob (jobTypes : Option (List String)) (args : Store.ClaimArgs)
  | claimRunnableJobById (jobId : String) (args : Store.ClaimArgs)
  | transitionCurrentClaim (args : Store.TransitionArgs)
  | recoverExpiredClaim (args : Store.RecoveryArgs)
  | authorizeRequest (callerApp : String)
  | utcnow
  | uuid4
  | stageJsonArtifact (jobId createdBy createdAt : String)
  | neighbour (request : Neighbour)

@[reducible] def Call.Answer : Call → Type
  | getJob _ => Option JobRecord
  | listJobs => List JobRecord
  | listAttempts _ => List AttemptRecord
  | getAttempt _ => Option AttemptRecord
  | getActiveLease _ => Option LeaseRecord
  | saveJob _ => Unit
  | saveAttempt _ => Unit
  | deleteLease _ => ℕ
  | saveControlEvent _ => Unit
  | claimNextRunnableJob _ _ => Option Store.ClaimRecord
  | claimRunnableJobById _ _ => Option Store.ClaimRecord
  | transitionCurrentClaim _ => Except String (Option Store.ClaimTransition)
  | recoverExpiredClaim _ => Except String (Option Store.RecoveryTransition)
  | authorizeRequest _ => AuthorizationDecision
  | utcnow => String
  | uuid4 => String
  | stageJsonArtifact _ _ _ => Except Raised ArtifactRecord
  | neighbour _ => Except Raised Bool

/-- What the environment contributes to a call. Store calls need nothing. -/
inductive Choice
  | store
  | authorization (decision : AuthorizationDecision)
  | time (now : String)
  | uuid (hex : String)
  | artifact (result : Except Raised ArtifactRecord)
  | neighbour (result : Except Raised Bool)

/-- The jobs in the order of their submission. -/
def Store.listJobs (s : Store) : List JobRecord :=
  (s.jobs.entries.insertionSort fun a b => a.2.submittedAt ≤ b.2.submittedAt).map Prod.snd

/-- The effect of a call. `none` where the environment's choice is of the wrong kind. -/
def Call.exec (extendLease : String → ℕ → String) (s : Store) :
    (call : Call) → Choice → Option (call.Answer × Store)
  | getJob jobId, .store => some (s.getJob jobId, s)
  | listJobs, .store => some (s.listJobs, s)
  | listAttempts jobId, .store => some (s.listAttempts jobId, s)
  | getAttempt attemptId, .store => some (s.getAttempt attemptId, s)
  | getActiveLease jobId, .store => some (s.getActiveLease jobId, s)
  | saveJob record, .store => some ((), s.saveJob record)
  | saveAttempt record, .store => some ((), s.saveAttempt record)
  | deleteLease leaseId, .store => some (s.deleteLease leaseId)
  | saveControlEvent record, .store => some ((), s.saveControlEvent record)
  | claimNextRunnableJob jobTypes args, .store => some (s.claimNextRunnableJob jobTypes args)
  | claimRunnableJobById jobId args, .store => some (s.claimRunnableJobById jobId args)
  -- the services pass a clock, which the store reads inside its lock
  | transitionCurrentClaim args, .time now =>
    some (s.transitionCurrentClaim extendLease { args with nowFactory := some now })
  | recoverExpiredClaim args, .time now =>
    some (s.recoverExpiredClaim { args with nowFactory := some (args.nowFactory.getD now) })
  | authorizeRequest _, .authorization decision => some (decision, s)
  | utcnow, .time now => some (now, s)
  | uuid4, .uuid hex => some (hex, s)
  | stageJsonArtifact _ _ _, .artifact result => some (result, s)
  | neighbour _, .neighbour result => some (result, s)
  | _, _ => none

/-- What a call may do to the store. -/
def Call.Effect (extendLease : String → ℕ → String) (s s' : Store) : Call → Prop
  | saveJob record => s' = s.saveJob record
  | saveAttempt record => s' = s.saveAttempt record
  | deleteLease leaseId => s' = (s.deleteLease leaseId).2
  | saveControlEvent record => s' = s.saveControlEvent record
  | claimNextRunnableJob jobTypes args => s' = (s.claimNextRunnableJob jobTypes args).2
  | claimRunnableJobById jobId args => s' = (s.claimRunnableJobById jobId args).2
  | transitionCurrentClaim args => ∃ now,
      s' = (s.transitionCurrentClaim extendLease { args with nowFactory := some now }).2
  | recoverExpiredClaim args => ∃ now,
      s' = (s.recoverExpiredClaim { args with nowFactory := some (args.nowFactory.getD now) }).2
  | _ => s' = s

variable {call : Call}

theorem Call.effect_of_exec {extendLease : String → ℕ → String} {s s' : Store}
    {choice : Choice} {r : call.Answer} (h : call.exec extendLease s choice = some (r, s')) :
    call.Effect extendLease s s' := by
  cases call <;> cases choice <;> simp only [exec, reduceCtorEq] at h
  all_goals have hs' := (congrArg Prod.snd (Option.some.inj h)).symm
  case transitionCurrentClaim.time args now => exact ⟨now, hs'⟩
  case recoverExpiredClaim.time args now => exact ⟨now, hs'⟩
  all_goals exact hs'

/-- The async store as a machine. -/
def machine (extendLease : String → ℕ → String) : Machine Call.Answer Unit Store Choice where
  exec _ s call choice := call.exec extendLease s choice

/-- A service: a program over these calls that may raise. -/
abbrev Service (α : Type) := Prog.Raising Call.Answer Raised α

/-- Perform a call. -/
abbrev ask (call : Call) : Service call.Answer := Prog.ask call

/-- Ask a neighbour, passing on what it raises. -/
def askNeighbour (request : Neighbour) : Service Bool := do
  let result ← ask (.neighbour request)
  orRaise result

/-! ### Preconditions of single calls -/

section Preconditions

open Machine

variable {extendLease : String → ℕ → String} {α : Type} {Q : α → Store → Prop} {s : Store}

/-- A call that only the store answers has one outcome. -/
theorem wp_storeCall {k : call.Answer → Prog Call.Answer α} {r : call.Answer}
    {s' : Store} (hstore : call.exec extendLease s .store = some (r, s'))
    (honly : ∀ choice out, call.exec extendLease s choice = some out → choice = .store) :
    (machine extendLease).wp () (.call call k) Q s ↔
      (machine extendLease).wp () (k r) Q s' := by
  rw [wp_call]
  constructor
  · intro h
    exact h .store r s' hstore
  · intro h choice r' s'' hexec
    obtain rfl := honly choice _ hexec
    obtain ⟨rfl, rfl⟩ := Prod.mk.inj (Option.mem_unique hstore hexec)
    exact h

theorem wp_getActiveLease {jobId : String} {k : Option LeaseRecord → Prog Call.Answer α} :
    (machine extendLease).wp () (.call (.getActiveLease jobId) k) Q s ↔
      (machine extendLease).wp () (k (s.getActiveLease jobId)) Q s :=
  wp_storeCall rfl fun choice _ h => by cases choice <;> first | rfl | cases h

end Preconditions

end LotusAI.AsyncRuntime
