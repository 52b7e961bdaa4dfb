import LotusAI.Http
import LotusAI.Lib.CanonicalJson

/-!
# Reservations of synchronous executions

A workflow pack executed under an idempotency key first reserves a record for the
key. The record is owned by the execution that reserved it until that execution
completes it, marks it indeterminate, or releases it; each of these is refused to
anyone else. Both repositories, in memory and SQL, implement the same four methods.

The repository is modelled with what an observer would have seen: to whom owner
tokens were handed, and when executions were reserved, began, ended, and were
completed or released. Only `records` is read back by the service.
-/

namespace LotusAI.Idempotency

open Lib Option Prod

/-! ### Requests and responses -/

/-- A workflow-pack execution request without its idempotency key. `content` is everything
but the caller identity. -/
structure RequestInput (κ : Type) where
  callerApp : String
  tenantId : Option String
  content : κ

/-- `WorkflowPackExecutionRequest`. -/
structure Request (κ : Type) extends RequestInput κ where
  idempotencyKey : Option String

/-- `WorkflowPackExecutionIdempotencyStatus`. -/
inductive IdempotencyStatus
  | created
  | replayed
  deriving DecidableEq

/-- `WorkflowPackExecutionIdempotencyDescriptor`. -/
structure IdempotencyDescriptor where
  status : IdempotencyStatus
  recordId : String
  requestFingerprint : String
  deriving DecidableEq

/-- `WorkflowPackExecutionResponse`. -/
structure Response (β : Type) where
  body : β
  idempotency : Option IdempotencyDescriptor
  deriving DecidableEq

/-- How an execution ends: with a response, or by raising. -/
inductive Ending (β : Type)
  | returned (response : Response β)
  | raised (e : Raised)
  deriving DecidableEq

/-- An execution that ended in an `HTTPException`. -/
def Ending.isHttp {β : Type} : Ending β → Bool
  | raised (.http _ _) => true
  | _ => false

/-! ### Records -/

/-- `WorkflowPackExecutionIdempotencyState`. -/
inductive RecordState
  | inProgress
  | completed
  | indeterminate
  deriving DecidableEq

/-- `WorkflowPackExecutionIdempotencyRecord`. -/
structure Record (π : Type) where
  recordId : String
  callerApp : String
  tenantScope : String
  idempotencyKey : String
  requestFingerprint : String
  state : RecordState
  ownerToken : String
  responsePayload : Option π
  responseChecksumSha256 : Option String
  failureCode : Option String
  createdAt : String
  updatedAt : String
  deriving DecidableEq

/-- `WorkflowPackExecutionReservation`. -/
structure Reservation (π : Type) where
  record : Record π
  acquired : Bool

/-- What a repository method raises: the two refusals of the contract, or a failure of the
store that leaves it as it was. -/
inductive RepositoryError
  | conflict
  | ownership
  | unavailable (text : String)
  deriving DecidableEq

/-- What an observer sees happen. -/
inductive Event (ι β π : Type)
  | reserved (session : ι)
  | began (session : ι)
  | ended (session : ι) (ending : Ending β)
  | completed (session : ι) (payload : π)
  | released (session : ι)

variable {ι κ β π : Type}

def Event.session : Event ι β π → ι
  | reserved i => i
  | began i => i
  | ended i _ => i
  | completed i _ => i
  | released i => i

/-- The reservations, and what was observed. -/
structure World (ι β π : Type) where
  records : Dict String (Record π)
  /-- Owner tokens and the executions they were handed to. -/
  tokens : List (String × ι)
  /-- Newest first. -/
  history : List (Event ι β π)

namespace World

/-- Before anything happened. -/
def initial : World ι β π := ⟨.empty, [], []⟩

/-- `_require_owned_in_progress`. -/
def ownedInProgress (w : World ι β π) (recordId ownerToken : String) : Option (Record π) :=
  match w.records.get? recordId with
  | none => none
  | some current =>
    if current.ownerToken ≠ ownerToken ∨ current.state ≠ .inProgress then none else some current

theorem ownedInProgress_eq_some {w : World ι β π} {recordId ownerToken : String}
    {record : Record π} (h : w.ownedInProgress recordId ownerToken = some record) :
    w.records.get? recordId = some record ∧ record.ownerToken = ownerToken ∧
      record.state = .inProgress := by
  unfold ownedInProgress at h
  split at h
  · cases h
  · rename_i current hcurrent
    split_ifs at h with howner
    cases h
    push Not at howner
    exact ⟨hcurrent, howner⟩

/-- Something is observed. -/
def note (w : World ι β π) (event : Event ι β π) : World ι β π :=
  { w with history := event :: w.history }

/-- A record is written. -/
def save (w : World ι β π) (recordId : String) (record : Record π) : World ι β π :=
  { w with records := w.records.insert recordId record }

def delete (w : World ι β π) (recordId : String) : World ι β π :=
  { w with records := w.records.erase recordId }

/-- An owner token is handed out. -/
def hand (w : World ι β π) (i : ι) (token : String) : World ι β π :=
  { w with tokens := (token, i) :: w.tokens }

end World

/-- The record of a completed execution. -/
def Record.complete (record : Record π) (payload : π) (checksum updatedAt : String) : Record π :=
  { record with
    state := .completed
    responsePayload := some payload
    responseChecksumSha256 := some checksum
    failureCode := none
    updatedAt := updatedAt }

/-- The record of an execution whose outcome was not retained. -/
def Record.markIndeterminate (record : Record π) (failureCode updatedAt : String) : Record π :=
  { record with
    state := .indeterminate
    responsePayload := none
    responseChecksumSha256 := none
    failureCode := some failureCode
    updatedAt := updatedAt }

/-! ### Calls -/

/-- One call of the service. -/
inductive Call (κ π : Type)
  | utcnow
  | newOwnerToken
  | reserve (record : Record π)
  | complete (recordId ownerToken : String) (payload : π) (checksum updatedAt : String)
  | markIndeterminate (recordId ownerToken failureCode updatedAt : String)
  | release (recordId ownerToken : String)
  /-- The executor is entered. -/
  | beginExecute (request : Request κ)
  /-- The executor returns or raises. -/
  | endExecute (request : Request κ)

@[reducible] def Call.Answer (κ β π : Type) : Call κ π → Type
  | utcnow => String
  | newOwnerToken => String
  | reserve _ => Except RepositoryError (Reservation π)
  | complete _ _ _ _ _ => Except RepositoryError Unit
  | markIndeterminate _ _ _ _ => Except RepositoryError Unit
  | release _ _ => Except RepositoryError Unit
  | beginExecute _ => Unit
  | endExecute _ => Ending β

/-- What the environment contributes to a call. -/
inductive Choice (β : Type)
  | repository
  | unavailable (text : String)
  | time (now : String)
  | uuid (hex : String)
  | executor
  | ending (ending : Ending β)

/-- The effect of a call of execution `i`. `none` where the environment's choice is of the
wrong kind or out of its range. -/
def Call.exec (i : ι) (w : World ι β π) :
    (call : Call κ π) → Choice β → Option (call.Answer κ β π × World ι β π)
  | utcnow, .time now => some (now, w)
  -- owner tokens are fresh and distinct
  | newOwnerToken, .uuid hex =>
    if hex ∈ w.tokens.map Prod.fst then none else some (hex, w.hand i hex)
  | reserve record, .repository =>
    match w.records.get? record.recordId with
    | none =>
      some (.ok ⟨record, true⟩, (w.save record.recordId record).note (.reserved i))
    | some existing =>
      if existing.requestFingerprint ≠ record.requestFingerprint then some (.error .conflict, w)
      else some (.ok ⟨existing, false⟩, w)
  | complete recordId ownerToken payload checksum updatedAt, .repository =>
    match w.ownedInProgress recordId ownerToken with
    | none => some (.error .ownership, w)
    | some current => some (.ok (),
        (w.save recordId (current.complete payload checksum updatedAt)).note
          (.completed i payload))
  | markIndeterminate recordId ownerToken failureCode updatedAt, .repository =>
    match w.ownedInProgress recordId ownerToken with
    | none => some (.error .ownership, w)
    | some current => some (.ok (),
        w.save recordId (current.markIndeterminate failureCode updatedAt))
  | release recordId ownerToken, .repository =>
    match w.ownedInProgress recordId ownerToken with
    | none => some (.error .ownership, w)
    | some _ => some (.ok (), (w.delete recordId).note (.released i))
  | reserve _, .unavailable text => some (.error (.unavailable text), w)
  | complete _ _ _ _ _, .unavailable text => some (.error (.unavailable text), w)
  | markIndeterminate _ _ _ _, .unavailable text => some (.error (.unavailable text), w)
  | release _ _, .unavailable text => some (.error (.unavailable text), w)
  | beginExecute _, .executor => some ((), w.note (.began i))
  | endExecute _, .ending ending => some (ending, w.note (.ended i ending))
  | _, _ => none

/-- What a call may answer and how it may leave the repository. -/
def Call.Outcome (i : ι) (w w' : World ι β π) : (call : Call κ π) → call.Answer κ β π → Prop
  | utcnow, _ => w' = w
  | newOwnerToken, token => token ∉ w.tokens.map Prod.fst ∧ w' = w.hand i token
  | reserve record, result =>
    (∃ e, result = .error e ∧ w' = w) ∨
    (result = .ok ⟨record, true⟩ ∧ w.records.get? record.recordId = none ∧
      w' = (w.save record.recordId record).note (.reserved i)) ∨
    ∃ existing, result = .ok ⟨existing, false⟩ ∧
      w.records.get? record.recordId = some existing ∧
      existing.requestFingerprint = record.requestFingerprint ∧ w' = w
  | complete recordId ownerToken payload checksum updatedAt, result =>
    (∃ e, result = .error e ∧ w' = w) ∨
    result = .ok () ∧ ∃ current, w.ownedInProgress recordId ownerToken = some current ∧
      w' = (w.save recordId (current.complete payload checksum updatedAt)).note
        (.completed i payload)
  | markIndeterminate recordId ownerToken failureCode updatedAt, result =>
    (∃ e, result = .error e ∧ w' = w) ∨
    result = .ok () ∧ ∃ current, w.ownedInProgress recordId ownerToken = some current ∧
      w' = w.save recordId (current.markIndeterminate failureCode updatedAt)
  | release recordId ownerToken, result =>
    (∃ e, result = .error e ∧ w' = w) ∨
    result = .ok () ∧ ∃ current, w.ownedInProgress recordId ownerToken = some current ∧
      w' = (w.delete recordId).note (.released i)
  | beginExecute _, _ => w' = w.note (.began i)
  | endExecute _, ending => w' = w.note (.ended i ending)

theorem Call.outcome_of_exec {i : ι} {w w' : World ι β π} {call : Call κ π} {choice : Choice β}
    {r : call.Answer κ β π} (h : call.exec i w choice = some (r, w')) : call.Outcome i w w' r := by
  cases call <;> cases choice <;> simp only [exec, reduceCtorEq] at h
  case newOwnerToken.uuid =>
    split_ifs at h with htoken
    cases h
    exact ⟨htoken, rfl⟩
  case reserve.repository =>
    split at h
    · cases h
      exact .inr (.inl ⟨rfl, ‹_›, rfl⟩)
    · rename_i existing hexisting
      split_ifs at h with hfingerprint <;> cases h
      · exact .inl ⟨_, rfl, rfl⟩
      · exact .inr (.inr ⟨existing, rfl, hexisting, not_not.mp hfingerprint, rfl⟩)
  case complete.repository | markIndeterminate.repository | release.repository =>
    split at h <;> cases h
    · exact .inl ⟨_, rfl, rfl⟩
    · exact .inr ⟨rfl, _, ‹_›, rfl⟩
  case endExecute.ending =>
    cases h
    rfl
  case utcnow.time | beginExecute.executor => exact (congrArg snd (some.inj h)).symm
  -- the repository is unavailable
  all_goals
    cases h
    exact .inl ⟨_, rfl, rfl⟩

/-- The repository as a machine shared by the executions `ι`. -/
def machine (ι κ β π : Type) :
    Machine (Call.Answer κ β π) ι (World ι β π) (Choice β) where
  exec i w call choice := call.exec i w choice

/-- A service: a program over these calls that may raise. -/
abbrev Service (κ β π α : Type) := Prog.Raising (Call.Answer κ β π) Raised α

/-- Perform a call. -/
abbrev ask (call : Call κ π) : Service κ β π (call.Answer κ β π) := Prog.ask call

end LotusAI.Idempotency
