import LotusAI.KillSwitch.Switches
import LotusAI.Lib.Checks
import Mathlib.Data.List.Induction

/-!
# When kill-switch enforcement is total

Enforcement reads every stored activation, whatever its scope. It answers every request,
with a refusal or not, exactly when every activation that is not cleared either has no
expiry or has one that names a zone. An expiry without a zone passes the check at
activation and cannot be compared with the current instant afterwards.
-/

namespace LotusAI.KillSwitch

open Lib Governance

/-! ### Operations -/

/-- A completed operation on the switches. A clearance is the effect of an approved governed
action. -/
inductive SwitchOperation
  | activate (decision : AuthorizationDecision) (caller : AuthenticatedCaller)
      (request : KillSwitchActivationRequest) (hex now : String)
  | clear (caller : AuthenticatedCaller) (switchId : String) (clearReason : Option String)
      (now : String)
  | status (now : String)

variable (iso : IsoFormat) (killSwitchStoreMode : String)

/-- The store after an operation; a refused one leaves it unchanged. -/
def SwitchOperation.perform (store : Activations) : SwitchOperation → Activations
  | activate decision caller request hex now =>
    match activateKillSwitch iso killSwitchStoreMode decision caller request hex now with
    | .ok activation => store.upsertActivation activation
    | .error _ => store
  | clear caller switchId clearReason now =>
    match requireActiveActivation switchId (store.get? switchId) with
    | .ok activation => store.upsertActivation (clearActivation caller clearReason now activation)
    | .error _ => store
  | status now => (buildKillSwitchStatus iso now store).2

/-- The store after a sequence of operations on an empty one. -/
def performAll (operations : List SwitchOperation) : Activations :=
  operations.foldl (SwitchOperation.perform iso killSwitchStoreMode) .empty

/-! ### The property -/

/-- An activation that is neither cleared nor, at the instant `t`, expired. -/
def Enforces (t : ℤ) (activation : KillSwitchActivation) : Prop :=
  activation.clearedAt = none ∧ ∀ text expiry, activation.expiresAtUtc = some text →
    iso.parseUtc text = .ok (.aware expiry) → t < expiry

/-- A check that refuses where an activation with `P` is stored, in the words of such an
activation, and raises nothing else. -/
def RefusesExactly (P : KillSwitchActivation → Prop)
    (refuse : KillSwitchActivation → EnforcementError) (store : Activations) :
    Except EnforcementError Unit → Prop
  | .ok _ => ∀ switchId activation, store.get? switchId = some activation → ¬ P activation
  | .error e => ∃ switchId activation, store.get? switchId = some activation ∧ P activation ∧
      e = refuse activation

/-- Whatever the instant and the request, the checks refuse exactly where they should, and
the status page is built. -/
structure TotalEnforcement (store : Activations) : Prop where
  execution : ∀ now t, iso.parseUtc now = .ok (.aware t) → ∀ config request permitted,
    RefusesExactly (fun activation => Enforces iso t activation ∧
        matchesRequest config request activation ∧
        ¬ (activation.semantics = .drain ∧ permitted = true)) refusal store
      (enforceKillSwitches iso config request permitted now store)
  intake : ∀ now t, iso.parseUtc now = .ok (.aware t) → ∀ config request,
    RefusesExactly (fun activation => Enforces iso t activation ∧
        matchesRequest config request activation) intakeRefusal store
      (enforceKillSwitchIntake iso config request now store)
  status : ∀ now t, iso.parseUtc now = .ok (.aware t) →
    ∃ page, (buildKillSwitchStatus iso now store).1 = .ok page

/-- An activation whose expiry matters is one that names a zone. -/
def Comparable (activation : KillSwitchActivation) : Prop :=
  activation.clearedAt = none → ∀ text, activation.expiresAtUtc = some text →
    ∃ expiry, iso.parseUtc text = .ok (.aware expiry)

/-- Every activation that is not cleared has no expiry, or one that names a zone. -/
def Zoned (store : Activations) : Prop :=
  ∀ switchId activation, store.get? switchId = some activation → Comparable iso activation

/-! ### Single activations -/

section Single

variable {iso} {now : String} {t : ℤ} {activation : KillSwitchActivation}

section

variable (hnow : iso.parseUtc now = .ok (.aware t)) {text : String}

include hnow

theorem outlasts_aware {expiry : ℤ}
    (htext : iso.parseUtc text = .ok (.aware expiry)) :
    outlasts iso text now = .ok (t < expiry) := by
  rw [outlasts, htext, hnow]
  rfl

theorem outlasts_naive {wall : ℤ}
    (htext : iso.parseUtc text = .ok (.naive wall)) :
    outlasts iso text now = .error .typeError := by
  rw [outlasts, htext, hnow]
  rfl

/-- A comparable activation is found to enforce exactly when it does. -/
theorem isEnforcing_of_comparable
    (h : Comparable iso activation) :
    ∃ enforcing, isEnforcing iso activation now = .ok enforcing ∧
      (enforcing = true ↔ Enforces iso t activation) := by
  unfold isEnforcing
  by_cases hcleared : activation.clearedAt = none
  · rw [if_neg (not_not.mpr hcleared)]
    cases hexpires : activation.expiresAtUtc with
    | none => exact ⟨true, rfl, by simp [Enforces, hcleared, hexpires]⟩
    | some text =>
      obtain ⟨expiry, htext⟩ := h hcleared text hexpires
      refine ⟨_, outlasts_aware hnow htext, ?_⟩
      rw [decide_eq_true_iff]
      constructor
      · intro hlater
        refine ⟨hcleared, fun text' expiry' hexpires' htext' => ?_⟩
        obtain rfl := Option.mem_unique hexpires hexpires'
        cases htext.symm.trans htext'
        exact hlater
      · intro henforces
        exact henforces.2 text expiry hexpires htext
  · rw [if_pos hcleared]
    exact ⟨false, rfl, by simp [Enforces, hcleared]⟩

/-- An activation with a readable expiry that is found to enforce or not is comparable. -/
theorem comparable_of_isEnforcing
    (hreadable : requireValidExpiry iso activation.expiresAtUtc = .ok ()) {enforcing : Bool}
    (h : isEnforcing iso activation now = .ok enforcing) : Comparable iso activation := by
  intro hcleared text hexpires
  rw [isEnforcing, if_neg (not_not.mpr hcleared), hexpires] at h
  rw [hexpires] at hreadable
  cases htext : iso.parseUtc text with
  | error e =>
    rw [requireValidExpiry, requireValidUtcInstant, htext] at hreadable
    cases e <;> cases hreadable
  | ok parsed =>
    cases parsed with
    | aware expiry => exact ⟨expiry, rfl⟩
    | naive wall =>
      simp only [outlasts_naive hnow htext, reduceCtorEq] at h

end

/-- Whether an activation enforces is decided by its clearance and its expiry alone. -/
theorem isEnforcing_congr {other : KillSwitchActivation}
    (hcleared : other.clearedAt = activation.clearedAt)
    (hexpires : other.expiresAtUtc = activation.expiresAtUtc) :
    isEnforcing iso other now = isEnforcing iso activation now := by
  rw [isEnforcing, isEnforcing, hcleared, hexpires]

/-- The sweep changes neither the clearance nor the expiry of an activation. -/
theorem recordExpiryIfLapsed_some {expired : KillSwitchActivation}
    (h : recordExpiryIfLapsed iso now activation = .ok (some expired)) :
    expired = { activation with expiryRecordedAt := some now } := by
  unfold recordExpiryIfLapsed at h
  split_ifs at h
  · cases h
  · split at h
    · cases h
    · obtain ⟨outlasting, -, h⟩ := bind_eq_ok.mp h
      cases outlasting with
      | true => cases h
      | false => exact (Option.some.inj (Except.ok.inj h)).symm

/-- A comparable activation can be swept. -/
theorem recordExpiryIfLapsed_of_comparable (hnow : iso.parseUtc now = .ok (.aware t))
    (h : Comparable iso activation) : ∃ swept, recordExpiryIfLapsed iso now activation = .ok swept := by
  unfold recordExpiryIfLapsed
  by_cases hdone : activation.clearedAt ≠ none ∨ activation.expiryRecordedAt ≠ none
  · exact ⟨none, if_pos hdone⟩
  · rw [if_neg hdone]
    push Not at hdone
    cases hexpires : activation.expiresAtUtc with
    | none => exact ⟨none, rfl⟩
    | some text =>
      obtain ⟨expiry, htext⟩ := h hdone.1 text hexpires
      by_cases hlater : t < expiry
      · exact ⟨none, by simp [outlasts_aware hnow htext, bind, Except.bind, hlater]⟩
      · exact ⟨some { activation with expiryRecordedAt := some now }, by
          simp [outlasts_aware hnow htext, bind, Except.bind, hlater, hexpires]⟩

end Single

/-! ### The loops -/

section Loops

variable {iso} {now : String} {t : ℤ} {activations : List KillSwitchActivation}
  {store : Activations}

/-- The enforcement loop over comparable activations: it passes when none of them enforces
and stands against the request, and otherwise refuses in the words of one that does. -/
theorem refuseWhere_spec (hnow : iso.parseUtc now = .ok (.aware t))
    (against : KillSwitchActivation → Bool) (refuse : KillSwitchActivation → EnforcementError)
    (h : ∀ activation ∈ activations, Comparable iso activation) :
    match refuseWhere iso against refuse now activations with
    | .ok _ => ∀ activation ∈ activations, ¬ (Enforces iso t activation ∧ against activation)
    | .error e => ∃ activation ∈ activations, (Enforces iso t activation ∧ against activation) ∧
        e = refuse activation := by
  induction activations with
  | nil => simp [refuseWhere]
  | cons activation rest ih =>
    obtain ⟨enforcing, hdecided, henforces⟩ :=
      isEnforcing_of_comparable hnow (h activation (.head _))
    have hrest := ih fun other hother => h other (.tail _ hother)
    -- an activation that does not refuse leaves the verdict to the rest of the list
    have skip (hpass : ¬ (Enforces iso t activation ∧ against activation)) :
        match refuseWhere iso against refuse now rest with
        | .ok _ => ∀ other ∈ activation :: rest, ¬ (Enforces iso t other ∧ against other)
        | .error e => ∃ other ∈ activation :: rest, (Enforces iso t other ∧ against other) ∧
            e = refuse other := by
      cases hverdict : refuseWhere iso against refuse now rest with
      | ok =>
        rw [hverdict] at hrest
        exact List.forall_mem_cons.mpr ⟨hpass, hrest⟩
      | error e =>
        rw [hverdict] at hrest
        obtain ⟨other, hother, hrefused⟩ := hrest
        exact ⟨other, .tail _ hother, hrefused⟩
    cases enforcing with
    | false =>
      simp only [refuseWhere, hdecided]
      exact skip fun hboth => Bool.false_ne_true (henforces.mpr hboth.1)
    | true =>
      simp only [refuseWhere, hdecided]
      cases hagainst : against activation with
      | false =>
        exact skip fun hboth => Bool.false_ne_true (hagainst.symm.trans hboth.2)
      | true =>
        exact ⟨activation, (.head _), ⟨henforces.mp rfl, hagainst⟩, rfl⟩

/-- The sweep keeps what decides whether the listed activations enforce. -/
theorem sweepExpiries_ok {swept : List KillSwitchActivation}
    (h : (sweepExpiries iso now activations store).1 = .ok swept) :
    swept.map (isEnforcing iso · now) = activations.map (isEnforcing iso · now) := by
  induction activations generalizing store swept with
  | nil =>
    cases h
    rfl
  | cons activation rest ih =>
    unfold sweepExpiries at h
    split at h
    · cases h
    · obtain ⟨tail, htail, rfl⟩ := map_eq_ok.mp h
      simp [ih htail]
    · rename_i expired hexpired
      obtain ⟨tail, htail, rfl⟩ := map_eq_ok.mp h
      have hsame : isEnforcing iso expired now = isEnforcing iso activation now := by
        rw [recordExpiryIfLapsed_some hexpired]
        exact isEnforcing_congr rfl rfl
      simp [ih htail, hsame]

theorem exists_sweepExpiries (hnow : iso.parseUtc now = .ok (.aware t))
    (h : ∀ activation ∈ activations, Comparable iso activation) (store : Activations) :
    ∃ swept, (sweepExpiries iso now activations store).1 = .ok swept := by
  induction activations generalizing store with
  | nil => exact ⟨[], rfl⟩
  | cons activation rest ih =>
    obtain ⟨outcome, houtcome⟩ :=
      recordExpiryIfLapsed_of_comparable hnow (h activation (.head _))
    have hrest := ih fun other hother => h other (.tail _ hother)
    cases outcome with
    | none =>
      obtain ⟨swept, hswept⟩ := hrest store
      exact ⟨activation :: swept, by simp [sweepExpiries, houtcome, hswept, Except.map]⟩
    | some expired =>
      obtain ⟨swept, hswept⟩ := hrest (store.upsertActivation expired)
      exact ⟨expired :: swept, by simp [sweepExpiries, houtcome, hswept, Except.map]⟩

/-- The enforcing activations can be counted iff each of them is decided. -/
theorem countEnforcing_iff :
    (∃ count, countEnforcing iso now activations = .ok count) ↔
      ∀ decided ∈ activations.map (isEnforcing iso · now), ∃ enforcing, decided = .ok enforcing := by
  induction activations with
  | nil => simp [countEnforcing]
  | cons activation rest ih =>
    rw [List.map_cons, List.forall_mem_cons, ← ih]
    cases hdecided : isEnforcing iso activation now with
    | error e => simp [countEnforcing, hdecided, bind, Except.bind]
    | ok enforcing =>
      cases hrest : countEnforcing iso now rest with
      | error e => simp [countEnforcing, hdecided, hrest, bind, Except.bind]
      | ok count => simp [countEnforcing, hdecided, hrest, bind, Except.bind, pure, Except.pure]

/-- The status page is built only if every listed activation is decided. -/
theorem decided_of_status {page : KillSwitchStatus}
    (h : (buildKillSwitchStatus iso now store).1 = .ok page) :
    ∀ activation ∈ store.listActivations, ∃ enforcing,
      isEnforcing iso activation now = .ok enforcing := by
  unfold buildKillSwitchStatus at h
  split at h
  · cases h
  · rename_i swept store' hsweep
    have hswept := sweepExpiries_ok (congrArg Prod.fst hsweep)
    obtain ⟨count, hcount⟩ : ∃ count, countEnforcing iso now swept = .ok count := by
      cases hcount : countEnforcing iso now swept with
      | error e => simp [hcount, bind, Except.bind] at h
      | ok count => exact ⟨count, rfl⟩
    have hall := countEnforcing_iff.mp ⟨count, hcount⟩
    rw [hswept] at hall
    intro activation hmem
    exact hall _ (List.mem_map_of_mem hmem)

theorem exists_status (hnow : iso.parseUtc now = .ok (.aware t))
    (h : ∀ activation ∈ store.listActivations, Comparable iso activation) :
    ∃ page, (buildKillSwitchStatus iso now store).1 = .ok page := by
  obtain ⟨swept, hswept⟩ := exists_sweepExpiries hnow h store
  obtain ⟨count, hcount⟩ : ∃ count, countEnforcing iso now swept = .ok count := by
    rw [countEnforcing_iff, sweepExpiries_ok hswept]
    intro decided hdecided
    obtain ⟨activation, hmem, rfl⟩ := List.mem_map.mp hdecided
    obtain ⟨enforcing, hok, -⟩ := isEnforcing_of_comparable hnow (h activation hmem)
    exact ⟨enforcing, hok⟩
  rw [buildKillSwitchStatus]
  generalize sweepExpiries iso now store.listActivations store = result at hswept ⊢
  obtain ⟨outcome, store'⟩ := result
  obtain rfl : outcome = .ok swept := hswept
  simp only [hcount, bind, Except.bind]
  exact ⟨_, rfl⟩

end Loops

/-! ### Runs -/

section Runs

variable {iso killSwitchStoreMode}

/-- Every stored expiry was accepted when it was requested. -/
def Accepted (iso : IsoFormat) (store : Activations) : Prop :=
  ∀ switchId activation, store.get? switchId = some activation →
    requireValidExpiry iso activation.expiresAtUtc = .ok ()

variable {store : Activations} {activation : KillSwitchActivation}

theorem Accepted.upsert (h : Accepted iso store)
    (haccepted : requireValidExpiry iso activation.expiresAtUtc = .ok ()) :
    Accepted iso (store.upsertActivation activation) :=
  Dict.forall_insert haccepted h

theorem Accepted.sweep {activations : List KillSwitchActivation} {now : String}
    (h : Accepted iso store)
    (hlisted : ∀ activation ∈ activations,
      requireValidExpiry iso activation.expiresAtUtc = .ok ()) :
    Accepted iso (sweepExpiries iso now activations store).2 := by
  induction activations generalizing store with
  | nil => exact h
  | cons activation rest ih =>
    have hrest := fun other hother => hlisted other (.tail _ hother)
    unfold sweepExpiries
    split
    · exact h
    · exact ih h hrest
    · rename_i expired hexpired
      refine ih (h.upsert ?_) hrest
      rw [recordExpiryIfLapsed_some hexpired]
      exact hlisted activation (.head _)

/-- What activation stores has an expiry it has checked. -/
theorem activateKillSwitch_ok {decision : AuthorizationDecision} {caller : AuthenticatedCaller}
    {request : KillSwitchActivationRequest} {hex now : String}
    (h : activateKillSwitch iso killSwitchStoreMode decision caller request hex now =
      .ok activation) : requireValidExpiry iso activation.expiresAtUtc = .ok () := by
  obtain ⟨_, -, h⟩ := bind_eq_ok.mp h
  obtain ⟨_, -, h⟩ := bind_eq_ok.mp h
  obtain ⟨_, -, h⟩ := bind_eq_ok.mp h
  obtain ⟨_, hexpiry, h⟩ := bind_eq_ok.mp h
  rw [← pure_eq_ok.mp h]
  exact hexpiry

/-- A clearance is of a stored activation. -/
theorem requireActiveActivation_ok {switchId : String} {found : Option KillSwitchActivation}
    (h : requireActiveActivation switchId found = .ok activation) : found = some activation := by
  unfold requireActiveActivation at h
  split at h
  · cases h
  · split_ifs at h
    exact congrArg some (Except.ok.inj h)

theorem Accepted.perform (h : Accepted iso store) (operation : SwitchOperation) :
    Accepted iso (operation.perform iso killSwitchStoreMode store) := by
  cases operation with
  | activate decision caller request hex now =>
    rw [SwitchOperation.perform]
    split
    · rename_i activation hactivation
      exact h.upsert (activateKillSwitch_ok hactivation)
    · exact h
  | clear caller switchId clearReason now =>
    rw [SwitchOperation.perform]
    split
    · rename_i activation hactive
      exact h.upsert (h switchId activation (requireActiveActivation_ok hactive))
    · exact h
  | status now =>
    have hswept : Accepted iso (sweepExpiries iso now store.listActivations store).2 := by
      refine h.sweep fun activation hmem => ?_
      obtain ⟨switchId, hstored⟩ := Activations.listActivations_mem.mp hmem
      exact h switchId activation hstored
    rw [SwitchOperation.perform, buildKillSwitchStatus]
    generalize sweepExpiries iso now store.listActivations store = result at hswept ⊢
    obtain ⟨outcome, store'⟩ := result
    cases outcome <;> exact hswept

theorem accepted_performAll (operations : List SwitchOperation) :
    Accepted iso (performAll iso killSwitchStoreMode operations) := by
  induction operations using List.reverseRecOn with
  | nil =>
    intro switchId activation hget
    cases hget
  | append_singleton earlier operation ih =>
    rw [performAll, List.foldl_append]
    exact ih.perform operation

theorem totalEnforcement_of_zoned (h : Zoned iso store) : TotalEnforcement iso store := by
  have hlisted : ∀ activation ∈ store.listActivations, Comparable iso activation := by
    intro activation hmem
    obtain ⟨switchId, hstored⟩ := Activations.listActivations_mem.mp hmem
    exact h switchId activation hstored
  -- the loop speaks of the listing, the property of the store
  have stored (now : String) (t : ℤ) (hnow : iso.parseUtc now = .ok (.aware t))
      (against : KillSwitchActivation → Bool) (refuse : KillSwitchActivation → EnforcementError) :
      RefusesExactly (fun activation => Enforces iso t activation ∧ against activation) refuse
        store (refuseWhere iso against refuse now store.listActivations) := by
    have hspec := refuseWhere_spec hnow against refuse hlisted
    cases hverdict : refuseWhere iso against refuse now store.listActivations with
    | ok =>
      rw [hverdict] at hspec
      exact fun switchId activation hstored =>
        hspec activation (Activations.listActivations_mem.mpr ⟨switchId, hstored⟩)
    | error e =>
      rw [hverdict] at hspec
      obtain ⟨activation, hmem, hdue, hwords⟩ := hspec
      obtain ⟨switchId, hstored⟩ := Activations.listActivations_mem.mp hmem
      exact ⟨switchId, activation, hstored, hdue, hwords⟩
  refine ⟨fun now t hnow config request permitted => ?_, fun now t hnow config request =>
    stored now t hnow _ _, fun now t hnow => exists_status hnow hlisted⟩
  have hexact := stored now t hnow (standsAgainst config request permitted) refusal
  simpa [standsAgainst, enforceKillSwitches, ← imp_iff_not_or] using hexact

/-- After any sequence of activations, clearances and sweeps, enforcement is total exactly
when every activation that is not cleared can be compared with an instant. A naive expiry
breaks the status page at every instant, and with it the property. -/
theorem totalEnforcement_iff (hclock : ∃ now t, iso.parseUtc now = .ok (.aware t))
    (operations : List SwitchOperation) :
    TotalEnforcement iso (performAll iso killSwitchStoreMode operations) ↔
      Zoned iso (performAll iso killSwitchStoreMode operations) := by
  constructor
  · intro htotal switchId activation hstored
    obtain ⟨now, t, hnow⟩ := hclock
    obtain ⟨page, hpage⟩ := htotal.status now t hnow
    obtain ⟨enforcing, hdecided⟩ := decided_of_status hpage activation
      (Activations.listActivations_mem.mpr ⟨switchId, hstored⟩)
    exact comparable_of_isEnforcing hnow
      (accepted_performAll operations switchId activation hstored) hdecided
  · exact totalEnforcement_of_zoned

end Runs

/-! ### Two expiries -/

section Samples

/-- A reader that knows one instant, one expiry with a zone and one without. -/
def sampleIso : IsoFormat where
  fromisoformat text :=
    if text = "2026-01-01T00:00:00+00:00" then some (.aware 1767225600000000)
    else if text = "2030-01-01T00:00:00+00:00" then some (.aware 1893456000000000)
    else if text = "2030-01-01T00:00:00" then some (.naive 1893456000000000)
    else none

/-- Stop one tenant until the given time. -/
def stopTenant (expiresAtUtc : String) : SwitchOperation :=
  .activate ⟨"ops", true, ""⟩ ⟨"ops", "header", none⟩
    ⟨.tenant, .hardKill, some "tenant-a", "incident", some expiresAtUtc⟩ "0" "2026-01-01T00:00:00Z"

/-- An activation for one tenant, with an expiry that has no zone, breaks the executions of
all others. -/
theorem unzoned_expiry_breaks_enforcement :
    enforceKillSwitches sampleIso ⟨some "text.openai", some "gpt", none, none⟩
        ⟨"task-a", some "tenant-b", "app"⟩ false "2026-01-01T00:00:00Z"
        (performAll sampleIso "sqlalchemy" [stopTenant "2030-01-01T00:00:00"]) =
      .error (.uncaught .typeError) ∧
    ¬ TotalEnforcement sampleIso
        (performAll sampleIso "sqlalchemy" [stopTenant "2030-01-01T00:00:00"]) := by
  refine ⟨by decide +kernel, fun htotal => ?_⟩
  obtain ⟨page, hpage⟩ := htotal.status "2026-01-01T00:00:00Z" 1767225600000000 (by decide +kernel)
  have hraised : (buildKillSwitchStatus sampleIso "2026-01-01T00:00:00Z"
      (performAll sampleIso "sqlalchemy" [stopTenant "2030-01-01T00:00:00"])).1 =
        .error .typeError := by decide +kernel
  exact nomatch hraised.symm.trans hpage

theorem totalEnforcement_zoned_expiry :
    TotalEnforcement sampleIso
      (performAll sampleIso "sqlalchemy" [stopTenant "2030-01-01T00:00:00Z"]) := by
  refine (totalEnforcement_iff ⟨"2026-01-01T00:00:00Z", 1767225600000000, by decide +kernel⟩ _).mpr
    fun switchId activation hstored _ text hexpires => ?_
  have hvalues : (performAll sampleIso "sqlalchemy"
      [stopTenant "2030-01-01T00:00:00Z"]).values.map (·.expiresAtUtc) =
        [some "2030-01-01T00:00:00Z"] := by decide +kernel
  have hmem := List.mem_map_of_mem (f := (·.expiresAtUtc))
    (Dict.mem_values_iff.mpr ⟨switchId, hstored⟩)
  rw [hvalues, List.mem_singleton, hexpires] at hmem
  exact ⟨1893456000000000, by rw [Option.some.inj hmem]; decide +kernel⟩

end Samples

end LotusAI.KillSwitch
