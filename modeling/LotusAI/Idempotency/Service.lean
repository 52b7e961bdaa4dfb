import LotusAI.Idempotency.Repository

/-!
# Idempotent synchronous execution

`execute_workflow_pack_idempotently`: normalize the key, reserve its record, and
either execute and retain the response or answer from the record.

What the service takes from pydantic, `json` and `hashlib` is a `Codec`: the
canonical text of a request, the dump of a response and its validation, and the
digest of a text.
-/

namespace LotusAI.Idempotency

open Lib

/-- The libraries the service is written against. -/
structure Codec (κ β π : Type) where
  /-- The canonical JSON of `model_dump(mode="json", exclude={"idempotency_key"})`. -/
  requestText : RequestInput κ → String
  /-- `response.model_dump(mode="json")`. -/
  dump : Response β → π
  /-- `WorkflowPackExecutionResponse.model_validate`; `none` where it raises. -/
  validate : π → Option (Response β)
  /-- The canonical JSON of a retained payload. -/
  payloadText : π → String
  /-- The hexadecimal SHA-256 digest of a text. -/
  sha256 : String → String

variable {ι κ β π : Type} {requests : ι → Request κ} {codec : Codec κ β π}

/-- The first 32 digits of a digest. -/
def Codec.shortDigest (codec : Codec κ β π) (text : String) : String :=
  String.ofList ((codec.sha256 text).toList.take 32)

/-! ### Keys and records -/

/-- The characters `str.strip` removes. -/
def isPySpace (c : Char) : Bool :=
  let n := c.toNat
  (0x09 ≤ n && n ≤ 0x0D) || (0x1C ≤ n && n ≤ 0x20) || n == 0x85 || n == 0xA0 || n == 0x1680 ||
    (0x2000 ≤ n && n ≤ 0x200A) || n == 0x2028 || n == 0x2029 || n == 0x202F || n == 0x205F ||
    n == 0x3000

/-- `str.strip`. -/
def strip (text : String) : String :=
  String.ofList (((text.toList.dropWhile isPySpace).reverse.dropWhile isPySpace).reverse)

/-- `_NO_TENANT_SCOPE`. -/
def noTenantScope : String := "__NO_TENANT__"

/-- `_SYNC_EXECUTION_OPERATION`. -/
def syncExecutionOperation : String := "workflow-pack-execute-sync"

/-- What a key is scoped to: the caller, its tenant and the normalized key. -/
structure Scope where
  callerApp : String
  tenantScope : String
  idempotencyKey : String
  deriving DecidableEq

/-- `tenant_id or _NO_TENANT_SCOPE`. -/
def tenantScopeOf (tenantId : Option String) : String :=
  match tenantId with
  | some tenant => if tenant = "" then noTenantScope else tenant
  | none => noTenantScope

/-- The scope of a request, if it carries a key with something in it. -/
def scopeOf (request : Request κ) : Option Scope :=
  match request.idempotencyKey with
  | none => none
  | some key =>
    if strip key = "" then none
    else some ⟨request.callerApp, tenantScopeOf request.tenantId, strip key⟩

/-- The canonical JSON that names a scope. -/
def scopeText (scope : Scope) : String :=
  canonicalJson
    ((((Dict.empty.insert "operation" (some syncExecutionOperation)).insert
      "caller_app" (some scope.callerApp)).insert
      "tenant_scope" (some scope.tenantScope)).insert
      "idempotency_key" (some scope.idempotencyKey))

theorem scopeText_injective : Function.Injective scopeText := by
  intro scope scope' htext
  have hcaller := get?_eq_of_canonicalJson_eq htext "caller_app"
  have htenant := get?_eq_of_canonicalJson_eq htext "tenant_scope"
  have hkey := get?_eq_of_canonicalJson_eq htext "idempotency_key"
  cases scope
  cases scope'
  simp [Dict.get?_insert] at hcaller htenant hkey
  simp [hcaller, htenant, hkey]

/-- `build_workflow_pack_execution_idempotency_record_id`. -/
def Codec.recordId (codec : Codec κ β π) (scope : Scope) : String :=
  "wpe_sync_" ++ codec.shortDigest (scopeText scope)

/-- `fingerprint_workflow_pack_execution_request`. -/
def Codec.fingerprint (codec : Codec κ β π) (request : Request κ) : String :=
  codec.sha256 (codec.requestText request.toRequestInput)

/-- `checksum_response_payload`. -/
def Codec.checksum (codec : Codec κ β π) (payload : π) : String :=
  codec.sha256 (codec.payloadText payload)

/-- What is assumed of the libraries. A digest tells texts apart, and so does its beginning
for the scopes in use; the text of a request tells requests apart; a dumped response
validates to itself. -/
structure Codec.Faithful (codec : Codec κ β π) (requests : ι → Request κ) : Prop where
  sha256_injective : Function.Injective codec.sha256
  shortDigest_injOn : Set.InjOn codec.shortDigest
    {text | ∃ i scope, scopeOf (requests i) = some scope ∧ text = scopeText scope}
  requestText_injective : Function.Injective codec.requestText
  validate_dump : ∀ response, codec.validate (codec.dump response) = some response

theorem Codec.Faithful.recordId_inj
    (h : codec.Faithful requests) {i j : ι} {scope scope' : Scope}
    (hi : scopeOf (requests i) = some scope) (hj : scopeOf (requests j) = some scope')
    (heq : codec.recordId scope = codec.recordId scope') : scope = scope' :=
  scopeText_injective (h.shortDigest_injOn ⟨i, scope, hi, rfl⟩ ⟨j, scope', hj, rfl⟩
    (String.append_right_inj _ |>.mp heq))

theorem Codec.Faithful.fingerprint_inj
    (h : codec.Faithful requests) {request request' : Request κ}
    (heq : codec.fingerprint request = codec.fingerprint request') :
    request.toRequestInput = request'.toRequestInput :=
  h.requestText_injective (h.sha256_injective heq)

/-! ### The service -/

/-- `_with_idempotency_status`. -/
def withIdempotencyStatus (response : Response β) (status : IdempotencyStatus)
    (recordId requestFingerprint : String) : Response β :=
  { response with idempotency := some ⟨status, recordId, requestFingerprint⟩ }

/-- `_conflict`. -/
def conflictFor (reasonCode message : String) : Raised := conflict s!"{reasonCode}: {message}"

/-- What a repository failure raises past the service. -/
def RepositoryError.raised : RepositoryError → Raised
  | conflict => conflictFor "workflow_pack_execution_idempotency_conflict"
      "The idempotency key was already used with different workflow-pack input."
  | ownership => .other "workflow-pack execution reservation is not owned by this execution"
  | unavailable text => .other text

/-- `_resolve_existing_reservation`. -/
def Codec.resolveExistingReservation (codec : Codec κ β π) (record : Record π) :
    Except Raised (Response β) :=
  match record.state with
  | .completed =>
    match record.responsePayload with
    | none => .error (conflictFor "workflow_pack_execution_idempotency_result_missing"
        "The completed idempotent execution is missing its retained response.")
    | some payload =>
      if record.responseChecksumSha256 ≠ some (codec.checksum payload) then
        .error (conflictFor "workflow_pack_execution_idempotency_result_integrity_mismatch"
          ("The retained response failed integrity verification; automated replay is " ++
            "blocked."))
      else match codec.validate payload with
        | none => .error (.other "ValidationError")
        | some response => .ok (withIdempotencyStatus response .replayed record.recordId
            record.requestFingerprint)
  | .indeterminate =>
    .error (conflictFor "workflow_pack_execution_idempotency_outcome_indeterminate"
      ("The original execution did not retain a completed response; automated replay is " ++
        "blocked to avoid duplicate AI execution."))
  | .inProgress =>
    .error (conflictFor "workflow_pack_execution_idempotency_in_progress"
      ("The original workflow-pack execution is still in progress; no duplicate AI " ++
        "execution was started."))

/-- The executor, entered and left. -/
def execute (request : Request κ) : Service κ β π (Ending β) := do
  ask (.beginExecute request)
  ask (.endExecute request)

/-- `_mark_indeterminate_without_masking`, and raise what led to it. -/
def markIndeterminateAndRaise (recordId ownerToken : String) (e : Raised) :
    Service κ β π (Response β) := do
  let now ← ask .utcnow
  let _ ← ask (.markIndeterminate recordId ownerToken "execution_result_not_persisted" now)
  throw e

/-- Retain the response of an execution and return it as created. -/
def Codec.retain (codec : Codec κ β π) (recordId ownerToken requestFingerprint : String)
    (response : Response β) : Service κ β π (Response β) := do
  let created := withIdempotencyStatus response .created recordId requestFingerprint
  let payload := codec.dump created
  let now ← ask .utcnow
  match ← ask (.complete recordId ownerToken payload (codec.checksum payload) now) with
  | .ok _ => return created
  | .error e => markIndeterminateAndRaise recordId ownerToken e.raised

/-- The reservation is released for an `HTTPException`, and only for that. -/
def settleFailure (recordId ownerToken : String) (e : Raised) : Service κ β π (Response β) :=
  match e with
  | .http statusCode detail => do
    match ← ask (.release recordId ownerToken) with
    | .ok _ => throw (.http statusCode detail)
    | .error failure => throw failure.raised
  | .other text => markIndeterminateAndRaise recordId ownerToken (.other text)

/-- What follows the execution of a reserved request. -/
def Codec.settle (codec : Codec κ β π) (recordId ownerToken requestFingerprint : String)
    (ending : Ending β) : Service κ β π (Response β) :=
  match ending with
  | .returned response => codec.retain recordId ownerToken requestFingerprint response
  | .raised e => settleFailure recordId ownerToken e

/-- The record a request proposes. -/
def Codec.proposed (codec : Codec κ β π) (request : Request κ) (scope : Scope)
    (ownerToken timestamp : String) : Record π where
  recordId := codec.recordId scope
  callerApp := request.callerApp
  tenantScope := scope.tenantScope
  idempotencyKey := scope.idempotencyKey
  requestFingerprint := codec.fingerprint request
  state := .inProgress
  ownerToken := ownerToken
  responsePayload := none
  responseChecksumSha256 := none
  failureCode := none
  createdAt := timestamp
  updatedAt := timestamp

/-- Reserve, then execute or answer from the record. -/
def Codec.executeReserved (codec : Codec κ β π) (request : Request κ) (scope : Scope) :
    Service κ β π (Response β) := do
  let timestamp ← ask .utcnow
  let ownerToken ← ask .newOwnerToken
  match ← ask (.reserve (codec.proposed request scope ownerToken timestamp)) with
  | .error e => throw e.raised
  | .ok reservation =>
    if reservation.acquired then do
      let ending ← execute request
      codec.settle (codec.recordId scope) ownerToken (codec.fingerprint request) ending
    else orRaise (codec.resolveExistingReservation reservation.record)

/-- An execution without a key: the executor's outcome as it is. -/
def executeUnkeyed (request : Request κ) : Service κ β π (Response β) := do
  match ← execute request with
  | .returned response => return response
  | .raised e => throw e

/-- `execute_workflow_pack_idempotently`. -/
def Codec.executeIdempotently (codec : Codec κ β π) (request : Request κ) :
    Service κ β π (Response β) :=
  match request.idempotencyKey with
  | none => executeUnkeyed request
  | some _ =>
    match scopeOf request with
    | none => throw (.http 422 ("workflow_pack_execution_idempotency_key_invalid: " ++
        "Idempotency key must contain a non-whitespace character."))
    | some scope => codec.executeReserved request scope

/-- Calls of the service over an empty repository, one for each `i`. -/
def Codec.pool (codec : Codec κ β π) (requests : ι → Request κ) :
    Machine.Config (Call.Answer κ β π) ι (World ι β π) (Except Raised (Response β)) where
  store := .initial
  threads i := (codec.executeIdempotently (requests i)).run

end LotusAI.Idempotency
