import LotusAI.Idempotency.Service
import LotusAI.Lib.Checks
import LotusAI.Lib.Double

/-!
# Caller credentials

`verify_caller_credential`: a bearer token is a compact JWS whose payload names the caller. What
the service takes from Python is a `Python`: base64, `json.loads` with its exceptions, and the
verification of a signature. `json.loads` reads more than JSON has: `NaN` is a number to it, and a
`NaN` passes every check that is made by a comparison which has to fail.
-/

namespace LotusAI.Callers

open Lib Double
open Idempotency (strip)

/-! ### What is read -/

/-- A value of `json.loads`. -/
inductive Json
  | null
  | bool (value : Bool)
  | int (value : ℤ)
  | float (value : Double)
  | str (value : String)
  | arr (items : List Json)
  | obj (members : List (String × Json))

/-- A JSON object; of two members with one name, the later counts. -/
abbrev Members := List (String × Json)

/-- `get`: a missing member is read as a null. -/
def Members.member (members : Members) (name : String) : Json :=
  ((members.reverse.find? (·.1 = name)).map Prod.snd).getD .null

/-- The text of a value that is one. -/
def Json.text? : Json → Option String
  | str text => some text
  | _ => none

/-- `isinstance(value, (int, float))`; a Boolean is an integer. -/
def Json.isNumber : Json → Bool
  | bool _ => true
  | int _ => true
  | float _ => true
  | _ => false

/-- `float(value)`, unless it is out of range. -/
def Json.double? : Json → Option Double
  | bool value => some (.finite (if value then 1 else 0))
  | int value => Double.ofInt? value
  | float value => some value
  | _ => none

/-- Why `json.loads` does not return. -/
inductive LoadsError
  /-- `JSONDecodeError` or `UnicodeDecodeError`. -/
  | malformed
  /-- `ValueError`: an integer literal beyond the digit limit. -/
  | integerTooLong
  /-- `RecursionError`. -/
  | tooDeep
  deriving DecidableEq

/-- What the service takes from Python and its libraries, over a type of public keys. -/
structure Python (κ : Type) where
  /-- `base64.urlsafe_b64decode`. -/
  urlsafeB64decode : List UInt8 → Option (List UInt8)
  loads : List UInt8 → Except LoadsError Json
  /-- `str(value)`. -/
  display : Json → String
  /-- The signature of a message verifies under a key. -/
  verify : κ → List UInt8 → List UInt8 → Bool

/-- An exception of the verification. -/
inductive CredentialError
  /-- HTTP 401 with `CALLER_CREDENTIAL_INVALID`. -/
  | invalid (detail : String)
  | valueError
  | recursionError
  | overflowError
  | unicodeEncodeError
  deriving DecidableEq

/-- The settings of the verifier. The keys are what `parse_caller_credential_public_keys` makes of
their setting, with a `ValueError` of it turned into a refusal. -/
structure CredentialSettings (κ : Type) where
  publicKeys : Except CredentialError (Dict String κ)
  issuer : Option String
  audience : Option String
  maxLifetimeSeconds : ℤ

/-- `VerifiedCallerCredential`. -/
structure VerifiedCallerCredential where
  subject : String
  keyId : String
  tokenId : Option String
  deriving DecidableEq

variable {κ α β : Type}

def refuseIf (condition : Bool) (detail : String) : Except CredentialError Unit :=
  if condition then .error (.invalid detail) else .ok ()

def orRefuse (value : Option α) (detail : String) : Except CredentialError α :=
  value.elim (.error (.invalid detail)) .ok

/-! ### Decoding -/

/-- `_extract_bearer_token`. -/
def extractBearerToken (authorization : Option String) : Except CredentialError String := do
  let value := strip (authorization.getD "")
  refuseIf (value = "")
    "a platform-issued service credential is required in the Authorization header"
  let parts := value.toList.span (· ≠ ' ')
  let token := strip (String.ofList parts.2.tail)
  refuseIf ((String.ofList parts.1).toLower ≠ "bearer" ∨ token = "")
    "the Authorization header must carry a Bearer credential"
  return token

/-- `encode("ascii")`. -/
def encodeAscii (text : String) : Option (List UInt8) :=
  if text.toList.all (·.toNat < 128) then some (text.toList.map (·.toNat.toUInt8)) else none

variable (py : Python κ)

/-- `_decode_base64url`, without its refusal. -/
def Python.decodeBase64url? (segment : String) : Option (List UInt8) :=
  (encodeAscii (segment ++ String.ofList (.replicate ((4 - segment.length % 4) % 4) '='))).bind
    py.urlsafeB64decode

/-- `_decode_json_segment`. -/
def Python.decodeJsonSegment (segment name : String) : Except CredentialError Members := do
  let raw ← orRefuse (py.decodeBase64url? segment) s!"credential {name} is not valid base64url"
  match py.loads raw with
  | .ok (.obj members) => return members
  | .ok _ => throw (.invalid s!"credential {name} is not a JSON object")
  | .error .malformed => throw (.invalid s!"credential {name} is not valid JSON")
  | .error .integerTooLong => throw .valueError
  | .error .tooDeep => throw .recursionError

/-- A decoded token. -/
structure Jws where
  header : Members
  payload : Members
  signingInput : List UInt8
  signature : List UInt8

/-- `_decode_compact_jws`, of the segments. -/
def Python.decodeSegments (headerSegment payloadSegment signatureSegment : String) :
    Except CredentialError Jws := do
  let header ← py.decodeJsonSegment headerSegment "header"
  let payload ← py.decodeJsonSegment payloadSegment "payload"
  let signature ← orRefuse (py.decodeBase64url? signatureSegment)
    "credential signature is not valid base64url"
  let signingInput ← (encodeAscii (headerSegment ++ "." ++ payloadSegment)).elim
    (.error .unicodeEncodeError) .ok
  return ⟨header, payload, signingInput, signature⟩

/-- `token.split(".")`. -/
def segments (token : String) : List String := (token.toList.splitOn '.').map String.ofList

/-- `_decode_compact_jws`. -/
def Python.decodeCompactJws (token : String) : Except CredentialError Jws :=
  match segments token with
  | [header, payload, signature] => py.decodeSegments header payload signature
  | _ => .error (.invalid "credential is not a compact JWS")

/-! ### Checks -/

variable (settings : CredentialSettings κ) {maxLifetimeSeconds : ℤ}

/-- The key id of a header that declares what it has to. -/
def Python.requireKeyId (header : Members) : Except CredentialError String := do
  let algorithm := header.member "alg"
  refuseIf (algorithm.text? ≠ some "EdDSA")
    s!"credential algorithm '{py.display algorithm}' is not EdDSA"
  refuseIf ((header.member "typ").text? ≠ some "JWT") "credential header must declare typ JWT"
  orRefuse ((header.member "kid").text?.filter (· ≠ "")) "credential does not name a key id"

/-- The signature, the issuer and the audience. -/
def Python.requireAuthentic (jws : Jws) (keyId : String) (keys : Dict String κ) :
    Except CredentialError Unit := do
  let publicKey ← orRefuse (keys.get? keyId)
    s!"credential key id '{keyId}' is not an accepted key"
  refuseIf (¬ py.verify publicKey jws.signature jws.signingInput)
    "credential signature verification failed"
  refuseIf (settings.issuer ∈ [none, some ""] ∨ (jws.payload.member "iss").text? ≠ settings.issuer)
    "credential issuer is not the configured platform issuer"
  refuseIf (settings.audience ∈ [none, some ""] ∨
      (jws.payload.member "aud").text? ≠ settings.audience)
    "credential audience is not this service"

/-- A time claim: a number, converted. -/
def requireTime (claim : Json) (detail : String) : Except CredentialError Double := do
  refuseIf (¬ claim.isNumber) detail
  claim.double?.elim (.error .overflowError) .ok

/-- The checks of `nbf`. -/
def requireNotBefore (now : ℚ) : Json → Except CredentialError Unit
  | .null => .ok ()
  | claim => do
    let notBefore ← requireTime claim "credential not-before claim is not numeric"
    refuseIf ((Double.finite now).lt notBefore) "credential is not valid yet"

/-- The checks of the times of a payload, at an instant. -/
def requireTimeBounds (maxLifetimeSeconds : ℤ) (now : ℚ) (payload : Members) :
    Except CredentialError Unit := do
  let expiry ← requireTime (payload.member "exp") "credential does not carry a numeric expiry"
  refuseIf (expiry.le (.finite now)) "credential has expired"
  let issuedAt ← requireTime (payload.member "iat")
    "credential does not carry a numeric issued-at claim"
  refuseIf ((Double.finite now).lt issuedAt) "credential is issued in the future"
  refuseIf ((Double.finite maxLifetimeSeconds).lt (expiry.sub issuedAt))
    s!"credential lifetime exceeds the accepted maximum of {maxLifetimeSeconds} seconds"
  requireNotBefore now (payload.member "nbf")

/-- The `jti` of a payload. -/
def tokenId : Json → Except CredentialError (Option String)
  | .null => .ok none
  | claim => do
    let text ← orRefuse (claim.text?.filter (strip · ≠ ""))
      "credential token id must be a non-empty string"
    refuseIf (128 < text.length) "credential token id exceeds 128 characters"
    return some (strip text)

/-- The identity that a payload states. -/
def identity (payload : Members) (keyId : String) :
    Except CredentialError VerifiedCallerCredential := do
  let tokenId ← tokenId (payload.member "jti")
  let subject ← orRefuse ((payload.member "sub").text?.filter (strip · ≠ ""))
    "credential does not carry a caller subject"
  return ⟨strip subject, keyId, tokenId⟩

/-- `verify_caller_credential` at an instant. -/
def verifyCallerCredential (now : ℚ) (authorization : Option String) :
    Except CredentialError VerifiedCallerCredential := do
  let token ← extractBearerToken authorization
  let jws ← py.decodeCompactJws token
  let keyId ← py.requireKeyId jws.header
  let keys ← settings.publicKeys
  py.requireAuthentic settings jws keyId keys
  requireTimeBounds settings.maxLifetimeSeconds now jws.payload
  identity jws.payload keyId

/-! ### Accepted credentials -/

section Accepted

variable {py settings} {now : ℚ} {authorization : Option String} {token : String} {jws : Jws}
  {caller : VerifiedCallerCredential} {detail : String} {u : Unit} {claim : Json}

theorem refuseIf_eq_ok {condition : Bool} :
    refuseIf condition detail = .ok u ↔ condition = false := by
  cases condition <;> simp [refuseIf]

theorem orRefuse_eq_ok {value : Option α} {a : α} :
    orRefuse value detail = .ok a ↔ value = some a := by
  cases value <;> simp [orRefuse]

theorem requireTime_eq_ok {x : Double} :
    requireTime claim detail = .ok x ↔ claim.double? = some x := by
  unfold requireTime
  rw [bind_eq_ok]
  simp only [refuseIf_eq_ok]
  cases claim with
  | int value => cases h : ofInt? value <;> simp [Json.isNumber, Json.double?, h]
  | _ => simp [Json.isNumber, Json.double?]

/-- Only a `NaN` is read as one. -/
theorem Json.double?_eq_nan : claim.double? = some .nan ↔ claim = .float .nan := by
  cases claim <;> simp [Json.double?, ofInt?_ne_nan]

/-- The key that is named verified the signature of the segments that were decoded. -/
def SignedBy (py : Python κ) (settings : CredentialSettings κ) (token : String) (jws : Jws)
    (keyId : String) : Prop :=
  ∃ header payload signature keys key, segments token = [header, payload, signature] ∧
    py.decodeJsonSegment header "header" = .ok jws.header ∧
    py.decodeJsonSegment payload "payload" = .ok jws.payload ∧
    py.decodeBase64url? signature = some jws.signature ∧
    (jws.header.member "kid").text? = some keyId ∧
    settings.publicKeys = .ok keys ∧ keys.get? keyId = some key ∧
    encodeAscii (header ++ "." ++ payload) = some jws.signingInput ∧
    py.verify key jws.signature jws.signingInput

/-- The times of a credential that is accepted at an instant, in the arithmetic of doubles; at a
fixed instant within its lifetime it stops being accepted. -/
def TimeBounded (py : Python κ) (settings : CredentialSettings κ) (now : ℚ)
    (authorization : Option String) (payload : Members) : Prop :=
  ∃ expiry issuedAt, (payload.member "exp").double? = some expiry ∧
    (payload.member "iat").double? = some issuedAt ∧
    issuedAt.le (.finite now) ∧ (Double.finite now).lt expiry ∧
    (expiry.sub issuedAt).le (.finite settings.maxLifetimeSeconds) ∧
    (payload.member "nbf" ≠ .null → ∃ notBefore, (payload.member "nbf").double? = some notBefore ∧
      notBefore.le (.finite now)) ∧
    ∃ stop, ((Double.finite stop).sub issuedAt).le (.finite settings.maxLifetimeSeconds) ∧
      ∀ later, stop ≤ later →
        ¬ (verifyCallerCredential py settings later authorization).isOk

/-- What the checks of the times leave, comparisons that failed. -/
theorem requireTimeBounds_eq_ok {payload : Members} :
    requireTimeBounds maxLifetimeSeconds now payload = .ok u ↔
      ∃ expiry issuedAt, (payload.member "exp").double? = some expiry ∧
        expiry.le (.finite now) = false ∧ (payload.member "iat").double? = some issuedAt ∧
        (finite now).lt issuedAt = false ∧
        (finite maxLifetimeSeconds).lt (expiry.sub issuedAt) = false ∧
        requireNotBefore now (payload.member "nbf") = .ok () := by
  simp only [requireTimeBounds, bind_eq_ok, requireTime_eq_ok, refuseIf_eq_ok]
  constructor
  · rintro ⟨expiry, hexp, -, hlive, issuedAt, hiat, -, hpast, -, hlifetime, hnbf⟩
    exact ⟨expiry, issuedAt, hexp, hlive, hiat, hpast, hlifetime, hnbf⟩
  · rintro ⟨expiry, issuedAt, hexp, hlive, hiat, hpast, hlifetime, hnbf⟩
    exact ⟨expiry, hexp, (), hlive, issuedAt, hiat, (), hpast, (), hlifetime, hnbf⟩

/-- The checks of `nbf` leave a comparison that failed, where there is one. -/
theorem requireNotBefore_eq_ok :
    requireNotBefore now claim = .ok u ↔ (claim ≠ .null →
      ∃ notBefore, claim.double? = some notBefore ∧ (finite now).lt notBefore = false) := by
  cases claim with
  | null => simp [requireNotBefore]
  | _ => simp only [requireNotBefore, bind_eq_ok, requireTime_eq_ok, refuseIf_eq_ok, ne_eq,
      reduceCtorEq, not_false_eq_true, true_implies]

theorem decodeCompactJws_eq_ok :
    py.decodeCompactJws token = .ok jws ↔ ∃ header payload signature,
      segments token = [header, payload, signature] ∧
      py.decodeSegments header payload signature = .ok jws := by
  unfold Python.decodeCompactJws
  split <;> simp_all

/-- What the stages of an accepted credential have found. -/
theorem of_accepted (h : verifyCallerCredential py settings now authorization = .ok caller) :
    ∃ token jws, extractBearerToken authorization = .ok token ∧
      py.decodeCompactJws token = .ok jws ∧ SignedBy py settings token jws caller.keyId ∧
      requireTimeBounds settings.maxLifetimeSeconds now jws.payload = .ok () := by
  simp only [verifyCallerCredential, bind_eq_ok] at h
  obtain ⟨token, htoken, jws, hjws, keyId, hkeyId, keys, hkeys, ⟨⟩, hauthentic, ⟨⟩, htimes,
    hidentity⟩ := h
  refine ⟨token, jws, htoken, hjws, ?_, htimes⟩
  simp only [identity, bind_eq_ok, pure_eq_ok] at hidentity
  obtain ⟨_, -, _, -, rfl⟩ := hidentity
  simp only [Python.requireKeyId, bind_eq_ok, orRefuse_eq_ok, Option.filter_eq_some_iff] at hkeyId
  simp only [Python.requireAuthentic, bind_eq_ok, orRefuse_eq_ok, refuseIf_eq_ok] at hauthentic
  obtain ⟨-, -, -, -, hkid, -⟩ := hkeyId
  obtain ⟨key, hkey, -, hverified, -⟩ := hauthentic
  obtain ⟨header, payload, signature, hsegments, hdecoded⟩ := decodeCompactJws_eq_ok.mp hjws
  simp only [Python.decodeSegments, bind_eq_ok, orRefuse_eq_ok, pure_eq_ok] at hdecoded
  obtain ⟨_, hheader, _, hpayload, _, hsignature, input, hinput, rfl⟩ := hdecoded
  refine ⟨header, payload, signature, keys, key, hsegments, hheader, hpayload, hsignature, hkid,
    hkeys, hkey, ?_, by simpa using hverified⟩
  cases hascii : encodeAscii (header ++ "." ++ payload) <;> simp_all

/-- Once its expiry is not later than the instant, a credential is refused. -/
theorem not_isOk_of_expired {expiry : Double}
    (htoken : extractBearerToken authorization = .ok token)
    (hjws : py.decodeCompactJws token = .ok jws)
    (hexp : (jws.payload.member "exp").double? = some expiry) (hexpired : expiry.le (.finite now)) :
    ¬ (verifyCallerCredential py settings now authorization).isOk := by
  cases h : verifyCallerCredential py settings now authorization with
  | error e => simp [Except.isOk, Except.toBool]
  | ok found =>
    simp only [verifyCallerCredential, bind_eq_ok, requireTimeBounds_eq_ok] at h
    obtain ⟨_, htoken', _, hjws', _, _, _, _, _, _, _, ⟨expiry', _, hexp', hlive, _⟩, _⟩ := h
    cases htoken.symm.trans htoken'
    cases hjws.symm.trans hjws'
    cases hexp.symm.trans hexp'
    simp [hexpired] at hlive

/-- An accepted credential is signed by the key it names, and it is bounded in time exactly if
none of its times is `NaN`. -/
theorem timeBounded_iff (h : verifyCallerCredential py settings now authorization = .ok caller) :
    ∃ token jws, extractBearerToken authorization = .ok token ∧
      py.decodeCompactJws token = .ok jws ∧ SignedBy py settings token jws caller.keyId ∧
      (TimeBounded py settings now authorization jws.payload ↔
        ∀ name ∈ ["exp", "iat", "nbf"], jws.payload.member name ≠ .float .nan) := by
  obtain ⟨token, jws, htoken, hjws, hsigned, htimes⟩ := of_accepted h
  obtain ⟨expiry, issuedAt, hexp, hlive, hiat, hpast, hlifetime, hnbf⟩ :=
    requireTimeBounds_eq_ok.mp htimes
  refine ⟨token, jws, htoken, hjws, hsigned, ?_, ?_⟩
  · rintro ⟨expiry', issuedAt', hexp', hiat', hissued, hopen, -, hnbf', -⟩ name hname hnan
    simp only [List.mem_cons, List.not_mem_nil, or_false] at hname
    rcases hname with rfl | rfl | rfl
    · cases hexp'.symm.trans (Json.double?_eq_nan.mpr hnan)
      simp at hopen
    · cases hiat'.symm.trans (Json.double?_eq_nan.mpr hnan)
      simp at hissued
    · obtain ⟨notBefore, hvalue, hle⟩ := hnbf' (by simp [hnan])
      cases hvalue.symm.trans (Json.double?_eq_nan.mpr hnan)
      simp at hle
  · intro hnumbers
    -- where both sides are numbers, a comparison that fails is the opposite one
    have hnumber : ∀ {name x}, name ∈ ["exp", "iat", "nbf"] →
        (jws.payload.member name).double? = some x → x ≠ .nan := by
      rintro name _ hname hx rfl
      exact hnumbers name hname (Json.double?_eq_nan.mp hx)
    have hopen : (Double.finite now).lt expiry := by
      simpa [Double.le_eq_not_lt (hnumber (by simp) hexp)] using hlive
    have hissued : issuedAt.le (.finite now) := by
      rw [Double.le_eq_not_lt (hnumber (by simp) hiat) (by simp), hpast, Bool.not_false]
    have hbounded : (expiry.sub issuedAt).le (.finite settings.maxLifetimeSeconds) := by
      rw [Double.le_eq_not_lt (Double.sub_ne_nan hopen hissued) (by simp), hlifetime,
        Bool.not_false]
    refine ⟨expiry, issuedAt, hexp, hiat, hissued, hopen, hbounded, fun hpresent => ?_, ?_⟩
    · obtain ⟨notBefore, hvalue, hlater⟩ := requireNotBefore_eq_ok.mp hnbf hpresent
      refine ⟨notBefore, hvalue, ?_⟩
      rw [Double.le_eq_not_lt (hnumber (by simp) hvalue) (by simp), hlater, Bool.not_false]
    · obtain ⟨stop, rfl⟩ := Double.exists_finite hopen hissued hbounded
      refine ⟨stop, hbounded, fun later hlater => ?_⟩
      exact not_isOk_of_expired htoken hjws hexp (by simpa [Double.le] using hlater)

/-- A credential whose times are no numbers and that is accepted at one instant is accepted at
every other. -/
theorem accepted_of_nan (h : verifyCallerCredential py settings now authorization = .ok caller)
    (hnan : (do
      let token ← extractBearerToken authorization
      let jws ← py.decodeCompactJws token
      return ["exp", "iat", "nbf"].map fun name => (jws.payload.member name).double?) =
        .ok [some .nan, some .nan, some .nan]) (later : ℚ) :
    verifyCallerCredential py settings later authorization = .ok caller := by
  simp only [bind_eq_ok, pure_eq_ok, List.map_cons, List.map_nil, List.cons.injEq, and_true]
    at hnan
  obtain ⟨token, htoken, jws, hjws, hexp, hiat, hnbf⟩ := hnan
  simp only [verifyCallerCredential, bind_eq_ok] at h ⊢
  obtain ⟨_, htoken', _, hjws', keyId, hkeyId, keys, hkeys, ⟨⟩, hauthentic, _, -, hcaller⟩ := h
  cases htoken.symm.trans htoken'
  cases hjws.symm.trans hjws'
  refine ⟨token, htoken, jws, hjws, keyId, hkeyId, keys, hkeys, (), hauthentic, (), ?_, hcaller⟩
  exact requireTimeBounds_eq_ok.mpr ⟨.nan, .nan, hexp, rfl, hiat, rfl, rfl,
    requireNotBefore_eq_ok.mpr fun _ => ⟨.nan, hnbf, rfl⟩⟩

end Accepted

/-! ### Samples -/

/-- A payload with the given times. -/
def samplePayload (expiry issuedAt notBefore : Json) : Json :=
  .obj [("iss", .str "lotus"), ("aud", .str "lotus-ai"), ("sub", .str "caller"),
    ("exp", expiry), ("iat", issuedAt), ("nbf", notBefore)]

/-- A header, a payload with times, one whose times are `NaN`, and one with a number of more digits
than are read. -/
def sampleValues : List (String × Except LoadsError Json) :=
  [("head", .ok (.obj [("alg", .str "EdDSA"), ("typ", .str "JWT"), ("kid", .str "k1")])),
    ("time", .ok (samplePayload (.int 3) (.int 1) (.int 1))),
    ("nans", .ok (samplePayload (.float .nan) (.float .nan) (.float .nan))),
    ("long", .error .integerTooLong)]

/-- A reader that knows some segments by name. -/
def samplePython (verifies : Bool) : Python Unit where
  urlsafeB64decode := some
  loads raw :=
    ((sampleValues.find? (encodeAscii ·.1 = some raw)).map Prod.snd).getD (.error .malformed)
  display _ := ""
  verify _ _ _ := verifies

def sampleSettings : CredentialSettings Unit where
  publicKeys := .ok (Dict.empty.insert "k1" ())
  issuer := some "lotus"
  audience := some "lotus-ai"
  maxLifetimeSeconds := 3600

/-- A credential whose times are `NaN` is accepted at every instant. -/
theorem exists_unbounded_credential :
    ∃ (py : Python Unit) (settings : CredentialSettings Unit) (authorization : Option String)
      (caller : VerifiedCallerCredential),
      ∀ now, verifyCallerCredential py settings now authorization = .ok caller := by
  have h : verifyCallerCredential (samplePython true) sampleSettings 0
      (some "Bearer head.nans.sign") = .ok ⟨"caller", "k1", none⟩ := by decide +kernel
  exact ⟨_, _, _, _, fun now => accepted_of_nan h (by decide +kernel) now⟩

theorem timeBounded_of_plain_times :
    ∃ token jws, extractBearerToken (some "Bearer head.time.sign") = .ok token ∧
      (samplePython true).decodeCompactJws token = .ok jws ∧
      SignedBy (samplePython true) sampleSettings token jws "k1" ∧
      (TimeBounded (samplePython true) sampleSettings 2 (some "Bearer head.time.sign") jws.payload ↔
        ∀ name ∈ ["exp", "iat", "nbf"], jws.payload.member name ≠ .float .nan) := by
  have h : verifyCallerCredential (samplePython true) sampleSettings 2
      (some "Bearer head.time.sign") = .ok ⟨"caller", "k1", none⟩ := by decide +kernel
  exact timeBounded_iff h

/-! ### Failures -/

section Failures

variable {py settings} {now : ℚ} {authorization : Option String}

/-- Every failure is a refusal. -/
def FailsClosed (outcome : Except CredentialError α) : Prop :=
  ∀ e, outcome = .error e → ∃ detail, e = .invalid detail

@[simp] theorem failsClosed_ok (a : α) : FailsClosed (.ok a) := by simp [FailsClosed]

@[simp] theorem failsClosed_pure (a : α) : FailsClosed (pure a) := failsClosed_ok a

@[simp] theorem failsClosed_refuseIf (condition : Bool) (detail : String) :
    FailsClosed (refuseIf condition detail) := by
  cases condition <;> simp [refuseIf, FailsClosed]

@[simp] theorem failsClosed_orRefuse (value : Option α) (detail : String) :
    FailsClosed (orRefuse value detail) := by
  cases value <;> simp [orRefuse, FailsClosed]

variable {x : Except CredentialError α} {payload : Members} {keyId header : String} {claim : Json}

theorem failsClosed_bind {f : α → Except CredentialError β} :
    FailsClosed (x >>= f) ↔ FailsClosed x ∧ ∀ a, x = .ok a → FailsClosed (f a) := by
  cases x <;> simp [FailsClosed, bind, Except.bind]

@[simp] theorem failsClosed_map {f : α → β} : FailsClosed (f <$> x) ↔ FailsClosed x := by
  cases x <;> simp [FailsClosed, Functor.map, Except.map]

/-- A segment that is decoded is within the limits of `json.loads`. -/
def Python.WithinLimits (py : Python κ) (segment : String) : Prop :=
  ∀ raw, py.decodeBase64url? segment = some raw →
    py.loads raw ≠ .error .integerTooLong ∧ py.loads raw ≠ .error .tooDeep

/-- A number is within the range of a double. -/
def Json.Convertible (claim : Json) : Prop := claim.isNumber → claim.double? ≠ none

/-- Every time is convertible that is reached by the checks of the times before it. -/
def TimesConvertible (maxLifetimeSeconds : ℤ) (now : ℚ) (payload : Members) : Prop :=
  (payload.member "exp").Convertible ∧
    ∀ expiry, (payload.member "exp").double? = some expiry → expiry.le (.finite now) = false →
      (payload.member "iat").Convertible ∧
      ∀ issuedAt, (payload.member "iat").double? = some issuedAt →
        (Double.finite now).lt issuedAt = false →
        (Double.finite maxLifetimeSeconds).lt (expiry.sub issuedAt) = false →
        (payload.member "nbf").Convertible

/-- Whatever is reached is within the limits of what reads it. -/
def ReadsWithin (py : Python κ) (settings : CredentialSettings κ) (now : ℚ)
    (header payload signature : String) : Prop :=
  py.WithinLimits header ∧
    ((py.decodeJsonSegment header "header").isOk → py.WithinLimits payload) ∧
    ∀ jws keyId, py.decodeSegments header payload signature = .ok jws →
      py.requireKeyId jws.header = .ok keyId →
      FailsClosed settings.publicKeys ∧
      ∀ keys, settings.publicKeys = .ok keys →
        py.requireAuthentic settings jws keyId keys = .ok () →
        TimesConvertible settings.maxLifetimeSeconds now jws.payload

theorem failsClosed_decodeJsonSegment {segment name : String} :
    FailsClosed (py.decodeJsonSegment segment name) ↔ py.WithinLimits segment := by
  simp only [Python.decodeJsonSegment, failsClosed_bind, failsClosed_orRefuse, orRefuse_eq_ok,
    true_and]
  refine forall₂_congr fun raw _ => ?_
  split <;> simp_all [FailsClosed, pure, Except.pure, throw, throwThe, MonadExceptOf.throw]

theorem failsClosed_requireTime {detail : String} :
    FailsClosed (requireTime claim detail) ↔ claim.Convertible := by
  simp only [requireTime, failsClosed_bind, failsClosed_refuseIf, refuseIf_eq_ok, true_and,
    Json.Convertible]
  cases claim.double? <;> simp [FailsClosed]

theorem failsClosed_requireNotBefore :
    FailsClosed (requireNotBefore now claim) ↔ claim.Convertible := by
  cases claim with
  | null => simp [requireNotBefore, Json.Convertible, Json.isNumber]
  | _ => simp [requireNotBefore, failsClosed_bind, failsClosed_requireTime]

theorem failsClosed_requireTimeBounds :
    FailsClosed (requireTimeBounds maxLifetimeSeconds now payload) ↔
      TimesConvertible maxLifetimeSeconds now payload := by
  simp [requireTimeBounds, TimesConvertible, failsClosed_bind, failsClosed_requireTime,
    requireTime_eq_ok, refuseIf_eq_ok, failsClosed_requireNotBefore]

theorem failsClosed_requireKeyId {header : Members} : FailsClosed (py.requireKeyId header) := by
  simp [Python.requireKeyId, failsClosed_bind]

theorem failsClosed_requireAuthentic {jws : Jws} {keys : Dict String κ} :
    FailsClosed (py.requireAuthentic settings jws keyId keys) := by
  simp [Python.requireAuthentic, failsClosed_bind]

theorem failsClosed_identity : FailsClosed (identity payload keyId) := by
  have htokenId : FailsClosed (tokenId (payload.member "jti")) := by
    unfold tokenId
    split <;> simp [failsClosed_bind]
  simp [identity, failsClosed_bind, htokenId]

/-- A segment that is decoded is ASCII, so that the signing input of two is. -/
theorem encodeAscii_signingInput {payload : String} {a b : List UInt8}
    (hheader : py.decodeBase64url? header = some a)
    (hpayload : py.decodeBase64url? payload = some b) :
    (encodeAscii (header ++ "." ++ payload)).isSome := by
  have hascii : ∀ {segment : String} {raw}, py.decodeBase64url? segment = some raw →
      segment.toList.all (·.toNat < 128) := by
    intro segment raw h
    simp only [Python.decodeBase64url?, Option.bind_eq_some_iff, encodeAscii] at h
    obtain ⟨_, h, -⟩ := h
    split at h
    · rename_i hall
      simp only [String.toList_append, List.all_append, Bool.and_eq_true] at hall
      exact hall.1
    · cases h
  simp [encodeAscii, hascii hheader, hascii hpayload]

theorem failsClosed_decodeSegments {payload signature : String} :
    FailsClosed (py.decodeSegments header payload signature) ↔ py.WithinLimits header ∧
        ((py.decodeJsonSegment header "header").isOk → py.WithinLimits payload) := by
  simp only [Python.decodeSegments, failsClosed_bind, failsClosed_decodeJsonSegment,
    failsClosed_orRefuse, failsClosed_pure, orRefuse_eq_ok, true_and]
  refine and_congr_right fun _ => ⟨fun h hok => ?_, fun h members hheader => ⟨h ?_, ?_⟩⟩
  · cases hheader : py.decodeJsonSegment header "header" with
    | error e => simp [hheader, Except.isOk, Except.toBool] at hok
    | ok members => exact (h members hheader).1
  · simp [hheader, Except.isOk, Except.toBool]
  · intro _ hpayload _ _
    simp only [Python.decodeJsonSegment, bind_eq_ok, orRefuse_eq_ok] at hheader hpayload
    obtain ⟨⟨_, hheader, -⟩, _, hpayload, -⟩ := And.intro hheader hpayload
    obtain ⟨input, hinput⟩ := Option.isSome_iff_exists.mp (encodeAscii_signingInput hheader hpayload)
    simp [hinput]

theorem failsClosed_decodeCompactJws {token : String} :
    FailsClosed (py.decodeCompactJws token) ↔ ∀ header payload signature,
      segments token = [header, payload, signature] →
      FailsClosed (py.decodeSegments header payload signature) := by
  unfold Python.decodeCompactJws
  split <;> simp_all [FailsClosed]

/-- Every failure is a refusal exactly if whatever is reached of a token of three segments is
within the limits of what reads it. -/
theorem failsClosed_iff :
    FailsClosed (verifyCallerCredential py settings now authorization) ↔
      ∀ token header payload signature, extractBearerToken authorization = .ok token →
        segments token = [header, payload, signature] →
        ReadsWithin py settings now header payload signature := by
  have htoken : FailsClosed (extractBearerToken authorization) := by
    simp [extractBearerToken, failsClosed_bind]
  simp only [verifyCallerCredential, failsClosed_bind, htoken, failsClosed_decodeCompactJws,
    failsClosed_decodeSegments, failsClosed_requireKeyId, failsClosed_requireAuthentic,
    failsClosed_requireTimeBounds, failsClosed_identity, implies_true, true_and, and_true]
  constructor
  · intro h token header payload signature htoken hsegments
    obtain ⟨hlimits, hrest⟩ := h token htoken
    refine ⟨(hlimits _ _ _ hsegments).1, (hlimits _ _ _ hsegments).2,
      fun jws keyId hjws hkeyId => ?_⟩
    have hreached := hrest jws (decodeCompactJws_eq_ok.mpr ⟨_, _, _, hsegments, hjws⟩) keyId hkeyId
    exact ⟨hreached.1, fun keys hkeys => hreached.2 keys hkeys ()⟩
  · intro h token htoken
    refine ⟨fun header payload signature hsegments => ?_, fun jws hjws keyId hkeyId => ?_⟩
    · have hreads := h token header payload signature htoken hsegments
      exact ⟨hreads.1, hreads.2.1⟩
    · obtain ⟨header, payload, signature, hsegments, hjws⟩ := decodeCompactJws_eq_ok.mp hjws
      have hreached := (h token _ _ _ htoken hsegments).2.2 jws keyId hjws hkeyId
      exact ⟨hreached.1, fun keys hkeys _ => hreached.2 keys hkeys⟩

end Failures

/-- An integer of too many digits in the header of a credential that nobody signed. -/
theorem exists_failure_not_closed :
    ∃ (py : Python Unit) (settings : CredentialSettings Unit) (now : ℚ)
      (authorization : Option String),
      (∀ key signature message, py.verify key signature message = false) ∧
      verifyCallerCredential py settings now authorization = .error .valueError :=
  ⟨samplePython false, sampleSettings, 0, some "Bearer long.time.sign", fun _ _ _ => rfl,
    by decide +kernel⟩

end LotusAI.Callers
