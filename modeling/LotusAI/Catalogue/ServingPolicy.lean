import LotusAI.Catalogue.Seeding
import LotusAI.Governance.Actions

/-!
# The serving policy

Which identities may serve, and in which order, is a stored artifact with numbered versions.
Until there is one, the configured primary and fallback are the order. An identity is added by
a governed action that binds the whole resulting order, joined by commas; one is removed at
once, in whichever of its two representations the order holds it.

Reading the order, reading the row and saving a version are calls of their own; this module
is what is computed between them.
-/

namespace LotusAI.Catalogue

open Lib Provider Governance

/-! ### The operative order -/

/-- The identity of a configured provider and model, if both are named. -/
def configuredIdentity (providerId modelId modelVersion : Option String) : Option String :=
  match truthy providerId, truthy modelId with
  | some providerId, some modelId =>
    some (deriveModelCatalogueEntryId providerId ((truthy modelVersion).getD modelId) none)
  | _, _ => none

/-- The configured primary and fallback. -/
def configuredOrder (settings : SeedSettings) : List String :=
  (configuredIdentity settings.providerId settings.modelId settings.modelVersion).toList ++
    (configuredIdentity settings.fallbackProviderId settings.fallbackModelId
      settings.fallbackModelVersion).toList

/-- `current_serving_order`. -/
def currentServingOrder (settings : SeedSettings) (policies : Dict ℕ ServingPolicyVersion) :
    List String × Option ℕ :=
  match getCurrentServingPolicy policies with
  | some policy => (policy.orderedEntryIds, some policy.version)
  | none => (configuredOrder settings, none)

/-- `save_serving_policy_version`. -/
def saveServingPolicyVersion (policies : Dict ℕ ServingPolicyVersion)
    (record : ServingPolicyVersion) : Except PythonError (Dict ℕ ServingPolicyVersion) :=
  if (policies.get? record.version).isSome then .error .valueError
  else .ok (policies.insert record.version record)

/-! ### Additions -/

/-- `_add_payload`. -/
def addPayload (entryId reason : String) (resultingOrder : List String) : Payload :=
  (((Dict.empty.insert
    "action_type" (some GovernedActionType.servingPolicyIdentityAdd.value)).insert
    "entry_id" (some entryId)).insert
    "reason" (some reason)).insert
    "resulting_order" (some (",".intercalate resultingOrder))

variable (sha256 : String → String) {order order' : List String}

/-- `request_serving_policy_identity_add`, of the row and the order that were read: the payload
that is submitted. -/
def requestIdentityAdd (entryId reason : String) (entry : Option ModelCatalogueEntry)
    (order : List String) : Except Raised Payload :=
  match entry with
  | none => .error (notFound s!"No governed catalogue entry exists for `{entryId}`.")
  | some entry =>
    if entry.lifecycleState.ineligible then
      .error (conflict (s!"`{entryId}` is {entry.lifecycleState.value} and not eligible to " ++
        "serve; promote it through the governed lifecycle before adding it to the " ++
        "serving policy."))
    -- the order may hold either representation of the candidate
    else if entry.candidateIdV2 sha256 ∈ order ∨ entryId ∈ order then
      .error (conflict s!"`{entryId}` is already in the serving order.")
    else .ok (addPayload entryId reason (order ++ [entry.candidateIdV2 sha256]))

/-- `_canonical_for_target`, of the row the target resolves to. -/
def canonicalForTarget (sha256 : String → String) (target : String) :
    Option ModelCatalogueEntry → Except Raised String
  | none => .error (conflict (s!"`{target}` is no longer catalogued; the pending policy " ++
      "addition cannot execute."))
  | some entry => .ok (entry.candidateIdV2 sha256)

/-- The payload an approval rebuilds, from the order and the row as they are now. -/
def additionPayload (target : String) (submitted : Payload) (order : List String)
    (entry : Option ModelCatalogueEntry) : Except Raised Payload := do
  let canonical ← canonicalForTarget sha256 target entry
  return addPayload target (submitted.text "reason") (order ++ [canonical])

/-- The version an approved addition saves, from the order and the row as they are then. -/
def additionVersion (target actionId : String) (requesterKeyId approverKeyId : Option String)
    (now : String) (operative : List String × Option ℕ) (entry : Option ModelCatalogueEntry) :
    Except Raised ServingPolicyVersion := do
  let canonical ← canonicalForTarget sha256 target entry
  return {
    version := operative.2.getD 0 + 1
    orderedEntryIds := operative.1 ++ [canonical]
    action := .identityAdd
    changedEntryId := canonical
    requestedByKeyId := (truthy requesterKeyId).getD "unknown"
    approverKeyId := approverKeyId
    governedActionId := some actionId
    recordedAt := now }

/-! ### Removals -/

/-- The texts a removal takes out: the one that was named, and both representations of the row
it resolves to. -/
def removable (entryId : String) (resolved : Option ModelCatalogueEntry) : List String :=
  match resolved with
  | none => [entryId]
  | some entry => [entryId, entry.entryId, entry.candidateIdV2 sha256]

/-- `remove_serving_policy_identity`, of the order and the row that were read: the version that
is saved. -/
def removalVersion (entryId requestedByKeyId now : String) (operative : List String × Option ℕ)
    (resolved : Option ModelCatalogueEntry) : Except Raised ServingPolicyVersion :=
  match operative.1.find? (· ∈ removable sha256 entryId resolved) with
  | none => .error (notFound s!"`{entryId}` is not in the serving order.")
  | some matched => .ok {
      version := operative.2.getD 0 + 1
      orderedEntryIds := operative.1.filter (· ∉ removable sha256 entryId resolved)
      action := .identityRemove
      changedEntryId := matched
      requestedByKeyId := requestedByKeyId
      approverKeyId := none
      governedActionId := none
      recordedAt := now }

/-! ### What a payload binds -/

/-- A text without a comma. -/
def CommaFree (text : String) : Prop := ',' ∉ text.toList

instance (text : String) : Decidable (CommaFree text) := inferInstanceAs (Decidable (_ ∉ _))

theorem get?_addPayload_resultingOrder (entryId reason : String) (order : List String) :
    (addPayload entryId reason order).get? "resulting_order" =
      some (some (",".intercalate order)) := by
  simp [addPayload]

/-- Joined by commas, lists of texts without commas stay apart. -/
theorem intercalate_comma_injective (hne : order ≠ [])
    (hne' : order' ≠ []) (hfree : ∀ identity ∈ order, CommaFree identity)
    (hfree' : ∀ identity ∈ order', CommaFree identity)
    (h : ",".intercalate order = ",".intercalate order') : order = order' := by
  have split (texts : List String) (hne : texts ≠ []) (hfree : ∀ text ∈ texts, CommaFree text) :
      List.splitOn ',' (",".intercalate texts).toList = texts.map String.toList := by
    rw [String.toList_intercalate]
    refine List.splitOn_intercalate ',' ?_ (by simpa using hne)
    intro chars hchars
    obtain ⟨text, htext, rfl⟩ := List.mem_map.mp hchars
    exact hfree text htext
  have hlists : order.map String.toList = order'.map String.toList := by
    rw [← split order hne hfree, ← split order' hne' hfree', h]
  exact List.map_injective_iff.mpr (fun a b => String.toList_inj.mp) hlists

/-- A payload binds its order, if no identity contains a comma. -/
theorem addPayload_injective {entryId entryId' reason reason' : String} (hne : order ≠ []) (hne' : order' ≠ [])
    (hfree : ∀ identity ∈ order, CommaFree identity)
    (hfree' : ∀ identity ∈ order', CommaFree identity)
    (h : ∀ key, (addPayload entryId reason order).get? key =
      (addPayload entryId' reason' order').get? key) : order = order' := by
  have hjoined := h "resulting_order"
  rw [get?_addPayload_resultingOrder, get?_addPayload_resultingOrder] at hjoined
  exact intercalate_comma_injective hne hne' hfree hfree'
    (Option.some.inj (Option.some.inj hjoined))

end LotusAI.Catalogue
