import LotusAI.Catalogue.Posture
import LotusAI.Catalogue.ServingPolicy

/-!
# The history of the serving policy

Additions are requested and approved, identities are removed, and the catalogue changes in
between. If the two configured identities differ and contain no comma, the stored versions form
a history: each follows from the one before by one candidate added at the end or taken out in
every representation, no candidate stands twice in an order, and an approved payload binds the
order that is saved. With the same identity configured twice, the first version already holds
it twice; and with commas in identities, different orders have the same payload.
-/

namespace LotusAI.Catalogue

open Lib Provider Governance List

/-! ### Operations -/

/-- What an approval reads of a pending addition. -/
structure PendingAddition where
  actionId : String
  target : String
  actionHash : String
  actionPayload : Payload
  requesterKeyId : Option String
  deriving DecidableEq

/-- The catalogue, the stored versions, and the pending additions. A new request for a target
supersedes the pending one. -/
structure PolicyDesk where
  catalogue : CatalogueStore
  policies : Dict ℕ ServingPolicyVersion
  pending : Dict String PendingAddition
  deriving DecidableEq

/-- Nothing is stored. -/
def PolicyDesk.initial : PolicyDesk := ⟨⟨.empty, []⟩, .empty, .empty⟩

/-- The governed operations on the policy, and those on the catalogue in between. -/
inductive PolicyOperation
  | catalogue (operation : CatalogueOperation)
  | requestAdd (entryId reason : String) (requesterKeyId : Option String) (actionId now : String)
  | approveAdd (actionId expectedHash : String) (approverKeyId : Option String) (now : String)
  | remove (entryId requestedByKeyId now : String)

namespace PolicyDesk

/-- The stored version, if it can be saved. -/
def save (desk : PolicyDesk) (record : ServingPolicyVersion) : PolicyDesk :=
  match saveServingPolicyVersion desk.policies record with
  | .ok policies => { desk with policies }
  | .error _ => desk

/-- What the approval of a pending addition saves, if what it rebuilds has the hash that was
requested and approved. -/
def approved (sha256 : String → String) (settings : SeedSettings) (desk : PolicyDesk)
    (addition : PendingAddition) (expectedHash : String) (approverKeyId : Option String)
    (now : String) : Option ServingPolicyVersion := do
  let operative := currentServingOrder settings desk.policies
  let entry := resolveEntry sha256 desk.catalogue.entries addition.target
  let payload ← (additionPayload sha256 addition.target addition.actionPayload operative.1
    entry).toOption
  if computeGovernedActionHash sha256 payload = addition.actionHash ∧
      addition.actionHash = expectedHash then
    (additionVersion sha256 addition.target addition.actionId addition.requesterKeyId
      approverKeyId now operative entry).toOption
  else none

end PolicyDesk

/-- The stores after an operation; a refused one leaves the policy unchanged. -/
def PolicyOperation.perform (sha256 : String → String) (settings : SeedSettings)
    (desk : PolicyDesk) : PolicyOperation → PolicyDesk
  | catalogue operation => { desk with catalogue := operation.perform sha256 desk.catalogue }
  | requestAdd entryId reason requesterKeyId actionId now =>
    match ensureModelCatalogueSeeded sha256 settings now desk.catalogue.entries with
    | .error _ => desk
    | .ok (_, entries) =>
      let seeded := { desk with catalogue := { desk.catalogue with entries } }
      match requestIdentityAdd sha256 entryId reason (entries.get? entryId)
          (currentServingOrder settings desk.policies).1 with
      | .error _ => seeded
      | .ok payload => { seeded with
          pending := desk.pending.insert entryId ⟨actionId, entryId,
            computeGovernedActionHash sha256 payload, payload, requesterKeyId⟩ }
  | approveAdd actionId expectedHash approverKeyId now =>
    match desk.pending.values.find? (·.actionId = actionId) with
    | none => desk
    | some addition =>
      match desk.approved sha256 settings addition expectedHash approverKeyId now with
      | none => desk
      | some record => { desk.save record with pending := desk.pending.erase addition.target }
  | remove entryId requestedByKeyId now =>
    match removalVersion sha256 entryId requestedByKeyId now
        (currentServingOrder settings desk.policies)
        (resolveEntry sha256 desk.catalogue.entries entryId) with
    | .error _ => desk
    | .ok record => desk.save record

/-- The stores after a sequence of operations, from nothing stored. -/
def PolicyDesk.after (sha256 : String → String) (settings : SeedSettings)
    (operations : List PolicyOperation) : PolicyDesk :=
  operations.foldl (PolicyOperation.perform sha256 settings) PolicyDesk.initial

/-! ### The property -/

/-- The two representations of a candidate. -/
def ServingTuple.representations (sha256 : String → String) (tuple : ServingTuple) :
    List String :=
  [tuple.entryId, tuple.candidateIdV2 sha256]

/-- Two texts that are the same, or represent the same catalogued candidate. -/
def aliased (sha256 : String → String) (entries : Dict String ModelCatalogueEntry)
    (a b : String) : Bool :=
  a = b || entries.values.any fun row =>
    a ∈ row.representations sha256 && b ∈ row.representations sha256

/-- Every row is still there, with its identity. -/
def Extends (entries entries' : Dict String ModelCatalogueEntry) : Prop :=
  ∀ key row, entries.get? key = some row →
    ∃ row', entries'.get? key = some row' ∧ row'.toServingTuple = row.toServingTuple

/-- The order a version follows: that of the version before, or the configured one. -/
def orderBefore (settings : SeedSettings) (policies : Dict ℕ ServingPolicyVersion)
    (version : ℕ) : List String :=
  match policies.get? (version - 1) with
  | some record => record.orderedEntryIds
  | none => configuredOrder settings

/-- A version adds one catalogued candidate at the end of an order, or takes every
representation of one candidate out of it. -/
def Follows (sha256 : String → String) (entries : Dict String ModelCatalogueEntry)
    (order : List String) (record : ServingPolicyVersion) : Prop :=
  match record.action with
  | .identityAdd => ∃ key row, entries.get? key = some row ∧
      record.orderedEntryIds = order ++ [row.candidateIdV2 sha256]
  | .identityRemove => ∃ identity ∈ order,
      record.orderedEntryIds = order.filter (!aliased sha256 entries identity ·)

/-- The stored versions are numbered from one without gaps; each follows the one before, over
the catalogue it was written with; and no candidate stands twice in an order. -/
structure SoundHistory (sha256 : String → String) (settings : SeedSettings)
    (desk : PolicyDesk) : Prop where
  numbered : ∃ n, ∀ version, version ∈ desk.policies.keys ↔ 1 ≤ version ∧ version ≤ n
  follows : ∀ version record, desk.policies.get? version = some record →
    record.version = version ∧ ∃ entries, Extends entries desk.catalogue.entries ∧
      Follows sha256 entries (orderBefore settings desk.policies version) record
  distinct : ∀ version record, desk.policies.get? version = some record →
    record.orderedEntryIds.Pairwise fun a b => aliased sha256 desk.catalogue.entries a b = false

/-- An approved addition saves the order whose payload was submitted and whose hash the
approver named. -/
def BoundApproval (sha256 : String → String) (settings : SeedSettings) (desk : PolicyDesk) :
    Prop :=
  ∀ addition ∈ desk.pending.values, ∀ expectedHash approverKeyId now record,
    desk.approved sha256 settings addition expectedHash approverKeyId now = some record →
    ∃ reason, addition.actionPayload = addPayload addition.target reason record.orderedEntryIds ∧
      expectedHash = computeGovernedActionHash sha256 addition.actionPayload

/-- Two desks at which no two different resulting orders have the same payload. -/
def DistinctPayloads (sha256 : String → String) (settings settings' : SeedSettings)
    (desk desk' : PolicyDesk) : Prop :=
  ∀ (row row' : ModelCatalogueEntry) (entryId entryId' reason reason' : String),
    let order := (currentServingOrder settings desk.policies).1 ++ [row.candidateIdV2 sha256]
    let order' := (currentServingOrder settings' desk'.policies).1 ++ [row'.candidateIdV2 sha256]
    addPayload entryId reason order = addPayload entryId' reason' order' → order = order'

/-- The configured identities differ and contain no comma. -/
def PairSound (settings : SeedSettings) : Prop :=
  (configuredOrder settings).Nodup ∧ ∀ identity ∈ configuredOrder settings, CommaFree identity

instance (settings : SeedSettings) : Decidable (PairSound settings) :=
  inferInstanceAs (Decidable (_ ∧ _))

/-- Every digest is a text of hexadecimal digits. -/
def Hexadecimal (sha256 : String → String) : Prop :=
  ∀ text, ∀ c ∈ (sha256 text).toList, c ∈ "0123456789abcdef".toList

/-! ### The two representations -/

variable {row : ModelCatalogueEntry} {outcome : SeedReport × Dict String ModelCatalogueEntry}
  {settings : SeedSettings} {key : String} {entryId : String} {now : String}

section Identities

variable {sha256 : String → String}

theorem colon_mem_deriveModelCatalogueEntryId (providerId modelRevision : String)
    (deployment : Option String) :
    ':' ∈ (deriveModelCatalogueEntryId providerId modelRevision deployment).toList := by
  unfold deriveModelCatalogueEntryId
  split <;> simp [toString]

variable {identity : String} {entries : Dict String ModelCatalogueEntry}

theorem colon_mem_configured (h : identity ∈ configuredOrder settings) :
    ':' ∈ identity.toList := by
  have configured {providerId modelId modelVersion : Option String}
      (h : identity ∈ (configuredIdentity providerId modelId modelVersion).toList) :
      ':' ∈ identity.toList := by
    unfold configuredIdentity at h
    split at h
    · rw [Option.toList_some, mem_singleton] at h
      exact h ▸ colon_mem_deriveModelCatalogueEntryId ..
    · cases h
  rcases mem_append.mp h with hprimary | hfallback
  · exact configured hprimary
  · exact configured hfallback

theorem aliased_iff {a b : String} :
    aliased sha256 entries a b = true ↔ a = b ∨ ∃ key row, entries.get? key = some row ∧
      a ∈ row.representations sha256 ∧ b ∈ row.representations sha256 := by
  simp only [aliased, Bool.or_eq_true, decide_eq_true_eq, any_eq_true, Bool.and_eq_true,
    Dict.mem_values_iff]
  exact or_congr_right ⟨fun ⟨row, ⟨key, hrow⟩, hmem⟩ => ⟨key, row, hrow, hmem⟩,
    fun ⟨key, row, hrow, hmem⟩ => ⟨row, ⟨key, hrow⟩, hmem⟩⟩

/-- What an identity resolves to is stored, and represented by it. -/
theorem resolveEntry_eq_some (hkeyed : Keyed entries)
    (h : resolveEntry sha256 entries identity = some row) :
    entries.get? row.entryId = some row ∧ identity ∈ row.representations sha256 := by
  unfold resolveEntry at h
  split_ifs at h with hcanonical
  · obtain ⟨key, hrow⟩ := Dict.mem_values_iff.mp (mem_of_find?_eq_some h)
    have hsame : row.candidateIdV2 sha256 = identity := by simpa using find?_some h
    exact ⟨(hkeyed key row hrow) ▸ hrow, by simp [ServingTuple.representations, hsame]⟩
  · have hkey := hkeyed identity row h
    exact ⟨by rw [hkey]; exact h, by simp [ServingTuple.representations, hkey]⟩

variable [hhex : Fact (Hexadecimal sha256)]

/-- No canonical identity contains a character other than those of the scheme and of a
digest. -/
theorem notMem_candidateIdV2 (tuple : ServingTuple) {c : Char}
    (hc : c ∉ "cand2_0123456789abcdef".toList) : c ∉ (tuple.candidateIdV2 sha256).toList := by
  intro hmem
  rw [ServingTuple.candidateIdV2, String.toList_append, mem_append] at hmem
  apply hc
  rcases hmem with hscheme | hdigest
  · exact mem_append_left "0123456789abcdef".toList hscheme
  · exact mem_append_right "cand2_".toList (hhex.out _ c hdigest)

/-- A key is never a canonical identity. -/
theorem entryId_ne_candidateIdV2 (tuple tuple' : ServingTuple) :
    tuple.entryId ≠ tuple'.candidateIdV2 sha256 := by
  intro heq
  have hcolon : ':' ∉ (tuple'.candidateIdV2 sha256).toList := notMem_candidateIdV2 _ (by decide)
  rw [← heq] at hcolon
  exact hcolon (colon_mem_deriveModelCatalogueEntryId ..)

/-- A text represents at most one stored row. -/
theorem row_unique [Fact (Function.Injective sha256)] (hkeyed : Keyed entries) {key' : String} {row' : ModelCatalogueEntry}
    (hrow : entries.get? key = some row) (hrow' : entries.get? key' = some row')
    (hmem : identity ∈ row.representations sha256)
    (hmem' : identity ∈ row'.representations sha256) :
    row = row' := by
  -- equal keys or equal canonical identities; a key and a canonical identity are never equal
  have hkeys : row.entryId = row'.entryId := by
    simp only [ServingTuple.representations, mem_cons, not_mem_nil, or_false] at hmem hmem'
    rcases hmem with h | h <;> rcases hmem' with h' | h'
    · exact h.symm.trans h'
    · exact absurd (h.symm.trans h') (entryId_ne_candidateIdV2 _ _)
    · exact absurd (h'.symm.trans h) (entryId_ne_candidateIdV2 _ _)
    · exact congrArg _ (candidateIdV2_injective Fact.out (h.symm.trans h'))
  rw [hkeyed key row hrow, hkeyed key' row' hrow'] at hkeys
  rw [hkeys, hrow'] at hrow
  exact (Option.some.inj hrow).symm

end Identities

/-! ### The catalogue only grows -/

section Growth

variable {sha256 : String → String} [Fact (Function.Injective sha256)]

theorem Extends.refl (entries : Dict String ModelCatalogueEntry) : Extends entries entries :=
  fun _ row hrow => ⟨row, hrow, rfl⟩

variable {entries : Dict String ModelCatalogueEntry} {store : CatalogueStore}

theorem Extends.trans {entries' entries'' : Dict String ModelCatalogueEntry}
    (h : Extends entries entries') (h' : Extends entries' entries'') :
    Extends entries entries'' := by
  intro key row hrow
  obtain ⟨row', hrow', hsame⟩ := h key row hrow
  obtain ⟨row'', hrow'', hsame'⟩ := h' key row' hrow'
  exact ⟨row'', hrow'', hsame'.trans hsame⟩

/-- Rows that are keyed by their identities, over which the catalogue has grown. -/
structure Grows (entries entries' : Dict String ModelCatalogueEntry) : Prop where
  keyed : Keyed entries'
  kept : Extends entries entries'

/-- Writing over a row of the same identity, or where there was none. -/
theorem Keyed.grows_insert (h : Keyed entries)
    (hkey : row.entryId = key)
    (hsame : ∀ existing, entries.get? key = some existing →
      row.toServingTuple = existing.toServingTuple) : Grows entries (entries.insert key row) := by
  refine ⟨h.insert hkey, fun key' existing hexisting => ?_⟩
  rw [Dict.get?_insert]
  split_ifs with heq
  · exact ⟨row, rfl, hsame existing (heq ▸ hexisting)⟩
  · exact ⟨existing, hexisting, rfl⟩

theorem grows_advance (h : Keyed store.entries) (entryId : String)
    {α : Type} {step : ModelCatalogueEntry → Except Raised α}
    {f : α → ModelCatalogueEntry × Option ModelLifecycleTransition}
    (hstep : ∀ entry a, step entry = .ok a → (f a).1.toServingTuple = entry.toServingTuple) :
    Grows store.entries (store.advance entryId fun entry => (step entry).map f).entries := by
  unfold CatalogueStore.advance
  split
  · exact ⟨h, Extends.refl _⟩
  · rename_i entry hentry
    split
    · exact ⟨h, Extends.refl _⟩
    · rename_i updated event hupdated
      obtain ⟨a, ha, hpair⟩ := map_eq_ok.mp hupdated
      have hsame := hstep entry a ha
      rw [hpair] at hsame
      refine h.grows_insert ?_ fun existing hexisting => ?_
      · rw [ServingTuple.entryId, hsame]
        exact h entryId entry hentry
      · rw [hentry] at hexisting
        rw [hsame, Option.some.inj hexisting]

/-- One round of a pass writes a row of the same candidate, or a new one. -/
theorem grows_applyVerdict (h : Keyed entries) (seed : ModelCatalogueEntry) :
    Grows entries (applyVerdict seed entries
      (reconcile sha256 seed (entries.get? seed.entryId))) := by
  cases hexisting : entries.get? seed.entryId with
  | none => exact h.grows_insert rfl fun existing h => by rw [hexisting] at h; cases h
  | some existing =>
    rw [reconcile]
    split_ifs with hconflict hunchanged
    · exact ⟨h, Extends.refl _⟩
    · exact ⟨h, Extends.refl _⟩
    · refine h.grows_insert rfl fun existing' hexisting' => ?_
      obtain rfl := Option.mem_unique hexisting hexisting'
      exact (candidateIdV2_injective Fact.out (not_not.mp hconflict)).symm

theorem grows_seedAll (seeds : List ModelCatalogueEntry) (report : SeedReport) (h : Keyed entries) :
    Grows entries (seedAll sha256 seeds report entries).2 := by
  induction seeds generalizing report entries with
  | nil => exact ⟨h, Extends.refl _⟩
  | cons seed rest ih =>
    have hround := @grows_applyVerdict sha256 _ _ h seed
    have hrest := ih (report.count (reconcile sha256 seed (entries.get? seed.entryId))) hround.keyed
    exact ⟨hrest.keyed, hround.kept.trans hrest.kept⟩

theorem grows_ensureModelCatalogueSeeded (h : Keyed entries)
    (hpass : ensureModelCatalogueSeeded sha256 settings now entries = .ok outcome) :
    Grows entries outcome.2 := by
  obtain ⟨seeds, -, hout⟩ := bind_eq_ok.mp hpass
  obtain rfl := pure_eq_ok.mp hout
  exact grows_seedAll seeds {} h

/-- No operation removes a row or changes its identity. -/
theorem grows_perform
    (h : Keyed store.entries) (operation : CatalogueOperation) :
    Grows store.entries (operation.perform sha256 store).entries := by
  cases operation with
  | seed settings now =>
    rw [CatalogueOperation.perform]
    split
    · rename_i report entries hpass
      exact grows_ensureModelCatalogueSeeded h hpass
    · exact ⟨h, Extends.refl _⟩
  | transition entryId toState reason requestedBy hex now =>
    refine grows_advance h entryId fun entry step hstep => ?_
    obtain ⟨-, -, rfl⟩ := transitionStep_eq_ok.mp hstep
    rfl
  | promote entryId toState evaluationRunId run reason requestedBy approvedBy hex now =>
    refine grows_advance h entryId fun entry step hstep => ?_
    obtain ⟨-, -, rfl⟩ := promotionStep_eq_ok.mp hstep
    rfl
  | degrade entryId dimension reason degradedBy now =>
    refine grows_advance h entryId fun entry step hstep => ?_
    obtain ⟨-, -, rfl⟩ := degradationStep_eq_ok.mp hstep
    rfl
  | restore entryId dimension evaluationRunId run now =>
    refine grows_advance h entryId fun entry step hstep => ?_
    obtain ⟨-, rfl⟩ := restoreStep_eq_ok.mp hstep
    rfl

end Growth

/-! ### Orders -/

/-- What holds of every operative order: no text twice; each is configured or the canonical
identity of a stored row; and no row stands in it under both representations. -/
structure OrderSound (sha256 : String → String) (settings : SeedSettings)
    (entries : Dict String ModelCatalogueEntry) (order : List String) : Prop where
  nodup : order.Nodup
  known : ∀ identity ∈ order, identity ∈ configuredOrder settings ∨
    ∃ key row, entries.get? key = some row ∧ row.candidateIdV2 sha256 = identity
  single : ∀ key row, entries.get? key = some row →
    row.entryId ∈ order → row.candidateIdV2 sha256 ∉ order

section Orders

variable {sha256 : String → String} {settings : SeedSettings}
  {entries entries' : Dict String ModelCatalogueEntry} {order : List String}
  (h : OrderSound sha256 settings entries order)

include h

theorem OrderSound.sublist {order' : List String} (hsub : order'.Sublist order) :
    OrderSound sha256 settings entries order' where
  nodup := h.nodup.sublist hsub
  known identity hmem := h.known identity (hsub.subset hmem)
  single key row hrow hkey hcanonical :=
    h.single key row hrow (hsub.subset hkey) (hsub.subset hcanonical)

/-- In such an order only a text itself is aliased to it. -/
theorem OrderSound.eq_of_aliased {a b : String} (ha : a ∈ order) (hb : b ∈ order)
    (halias : aliased sha256 entries a b) : a = b := by
  rcases aliased_iff.mp halias with heq | ⟨key, row, hrow, hmem, hmem'⟩
  · exact heq
  · simp only [ServingTuple.representations, mem_cons, not_mem_nil, or_false] at hmem hmem'
    rcases hmem with rfl | rfl <;> rcases hmem' with rfl | rfl
    · rfl
    · exact absurd hb (h.single key row hrow ha)
    · exact absurd ha (h.single key row hrow hb)
    · rfl

/-- In such an order no two places are aliased. -/
theorem OrderSound.distinct : order.Pairwise fun a b => aliased sha256 entries a b = false := by
  refine pairwise_iff_forall_sublist.mpr fun {a b} hsub => ?_
  have hne : a ≠ b := pairwise_iff_forall_sublist.mp h.nodup hsub
  rw [← Bool.not_eq_true]
  exact fun halias => hne (h.eq_of_aliased (hsub.subset (by simp)) (hsub.subset (by simp)) halias)

variable [Fact (Hexadecimal sha256)]

omit h in
theorem orderSound_configured [hpair : Fact (PairSound settings)] :
    OrderSound sha256 settings entries (configuredOrder settings) where
  nodup := hpair.out.1
  known _ h := .inl h
  single _ _ _ _ h := notMem_candidateIdV2 _ (by decide : ':' ∉ _) (colon_mem_configured h)

theorem OrderSound.commaFree [hpair : Fact (PairSound settings)] :
    ∀ identity ∈ order, CommaFree identity := by
  intro identity hmem
  rcases h.known identity hmem with hconfigured | ⟨key, row, -, rfl⟩
  · exact hpair.out.2 identity hconfigured
  · exact notMem_candidateIdV2 _ (by decide)

omit h in
theorem commaFree_append (h : ∀ identity ∈ order, CommaFree identity) (tuple : ServingTuple) :
    ∀ identity ∈ order ++ [tuple.candidateIdV2 sha256], CommaFree identity := by
  intro identity hmem
  rcases mem_append.mp hmem with hmem | hmem
  · exact h identity hmem
  · exact mem_singleton.mp hmem ▸ notMem_candidateIdV2 tuple (by decide)

variable [Fact (Function.Injective sha256)]

/-- A canonical identity in the order belongs to a row that is already stored, so a row that
arrives later cannot share it. -/
theorem OrderSound.grows (hgrows : Grows entries entries') :
    OrderSound sha256 settings entries' order where
  nodup := h.nodup
  known identity hmem := by
    rcases h.known identity hmem with hconfigured | ⟨key, row, hrow, rfl⟩
    · exact .inl hconfigured
    · obtain ⟨row', hrow', hsame⟩ := hgrows.kept key row hrow
      exact .inr ⟨key, row', hrow', by rw [hsame]⟩
  single key row hrow hentry hcanonical := by
    rcases h.known _ hcanonical with hconfigured | ⟨key₀, row₀, hrow₀, hsame⟩
    · exact notMem_candidateIdV2 _ (by decide : ':' ∉ _) (colon_mem_configured hconfigured)
    · have htuple := candidateIdV2_injective Fact.out hsame
      refine h.single key₀ row₀ hrow₀ ?_ (hsame ▸ hcanonical)
      rw [htuple]
      exact hentry

/-- Adding a stored candidate that is in the order in neither representation. -/
theorem OrderSound.append (hrow : entries.get? key = some row) (hentry : row.entryId ∉ order)
    (hcanonical : row.candidateIdV2 sha256 ∉ order) :
    OrderSound sha256 settings entries (order ++ [row.candidateIdV2 sha256]) where
  nodup := by
    rw [← concat_eq_append]
    exact h.nodup.concat hcanonical
  known identity hmem := by
    rcases mem_append.mp hmem with hmem | hmem
    · exact h.known identity hmem
    · exact .inr ⟨key, row, hrow, (mem_singleton.mp hmem).symm⟩
  single key' row' hrow' hentry' hcanonical' := by
    have hentry₀ : row'.entryId ∈ order := by
      rcases mem_append.mp hentry' with hmem | hmem
      · exact hmem
      · exact absurd (mem_singleton.mp hmem) (entryId_ne_candidateIdV2 _ _)
    rcases mem_append.mp hcanonical' with hmem | hmem
    · exact h.single key' row' hrow' hentry₀ hmem
    · have hsame := candidateIdV2_injective Fact.out (mem_singleton.mp hmem)
      refine hentry ?_
      rw [← hsame]
      exact hentry₀

/-- Taking out what a removal takes out is taking out one candidate in every representation. -/
theorem OrderSound.filter_removable (hkeyed : Keyed entries) {matched : String}
    (hmatched : matched ∈ order)
    (hremovable : matched ∈ removable sha256 entryId (resolveEntry sha256 entries entryId)) :
    order.filter (· ∉ removable sha256 entryId (resolveEntry sha256 entries entryId)) =
      order.filter (!aliased sha256 entries matched ·) := by
  refine filter_congr fun identity hidentity => ?_
  rw [decide_not, Bool.not_inj_iff, Bool.eq_iff_iff, decide_eq_true_eq]
  cases hresolved : resolveEntry sha256 entries entryId with
  | none =>
    rw [hresolved] at hremovable
    simp only [removable, mem_singleton] at hremovable ⊢
    subst hremovable
    refine ⟨fun heq => aliased_iff.mpr (.inl heq.symm), fun halias => ?_⟩
    -- a key that does not resolve may still have a row, which is then in the order only once
    exact (h.eq_of_aliased hmatched hidentity halias).symm
  | some row =>
    rw [hresolved] at hremovable
    rw [aliased_iff]
    obtain ⟨hrow, hnamed⟩ := resolveEntry_eq_some hkeyed hresolved
    have hreps (text : String) : text ∈ removable sha256 entryId (some row) ↔
        text ∈ row.representations sha256 := by
      simp only [removable, ServingTuple.representations, mem_cons, not_mem_nil, or_false]
      constructor
      · rintro (rfl | htext)
        · simpa [ServingTuple.representations] using hnamed
        · exact htext
      · exact .inr
    rw [hreps] at hremovable ⊢
    constructor
    · intro hmem
      exact .inr ⟨_, row, hrow, hremovable, hmem⟩
    · rintro (heq | ⟨key, row', hrow', hmem, hmem'⟩)
      · exact heq ▸ hremovable
      · exact (row_unique hkeyed hrow hrow' hremovable hmem) ▸ hmem'

end Orders

/-! ### Versions -/

section Versions

variable {policies : Dict ℕ ServingPolicyVersion} {n : ℕ}

section

variable (h : ∀ version, version ∈ policies.keys ↔ 1 ≤ version ∧ version ≤ n)

include h

/-- With the versions `1` to `n` stored, the current one is version `n`. -/
theorem getCurrentServingPolicy_eq :
    getCurrentServingPolicy policies = policies.get? n := by
  unfold getCurrentServingPolicy
  cases hmax : policies.keys.max? with
  | none =>
    have hkeys := max?_eq_none_iff.mp hmax
    cases hfound : policies.get? n with
    | none => rfl
    | some record =>
      have hmem := Dict.mem_keys_iff.mpr ⟨record, hfound⟩
      rw [hkeys] at hmem
      cases hmem
  | some top =>
    obtain ⟨hmem, hle⟩ := max?_eq_some_iff.mp hmax
    have htop := (h top).mp hmem
    have hn := hle n ((h n).mpr ⟨by omega, le_rfl⟩)
    rw [show n = top by omega]
    rfl

theorem get?_eq_none_of_lt :
    policies.get? (n + 1) = none := by
  cases hfound : policies.get? (n + 1) with
  | none => rfl
  | some record =>
    have hle := ((h (n + 1)).mp (Dict.mem_keys_iff.mpr ⟨record, hfound⟩)).2
    omega

end

theorem mem_keys_insert {key key' : ℕ} {record : ServingPolicyVersion} :
    key' ∈ (policies.insert key record).keys ↔ key' = key ∨ key' ∈ policies.keys := by
  rw [Dict.mem_keys_iff, Dict.mem_keys_iff, Dict.get?_insert]
  split_ifs with heq <;> simp [heq]

end Versions

/-! ### What every operation keeps -/

/-- A pending addition was submitted for a stored candidate that the order did not hold. -/
structure Requested (sha256 : String → String) (entries : Dict String ModelCatalogueEntry)
    (addition : PendingAddition) (reason : String) (order : List String)
    (row : ModelCatalogueEntry) : Prop where
  stored : entries.get? addition.target = some row
  payload : addition.actionPayload =
    addPayload addition.target reason (order ++ [row.candidateIdV2 sha256])
  hash : addition.actionHash = computeGovernedActionHash sha256 addition.actionPayload
  commaFree : ∀ identity ∈ order, CommaFree identity
  new : row.candidateIdV2 sha256 ∉ order ∧ addition.target ∉ order

/-- What every operation keeps. -/
structure PolicyInvariant (sha256 : String → String) (settings : SeedSettings)
    (desk : PolicyDesk) (n : ℕ) : Prop where
  keyed : Keyed desk.catalogue.entries
  numbered : ∀ version, version ∈ desk.policies.keys ↔ 1 ≤ version ∧ version ≤ n
  follows : ∀ version record, desk.policies.get? version = some record →
    record.version = version ∧ ∃ entries, Extends entries desk.catalogue.entries ∧
      Follows sha256 entries (orderBefore settings desk.policies version) record
  sound : ∀ version record, desk.policies.get? version = some record →
    OrderSound sha256 settings desk.catalogue.entries record.orderedEntryIds
  pending : ∀ addition ∈ desk.pending.values, ∃ reason order row,
    Requested sha256 desk.catalogue.entries addition reason order row

namespace PolicyInvariant

variable {sha256 : String → String} {settings : SeedSettings} {desk : PolicyDesk} {n : ℕ}

theorem initial : PolicyInvariant sha256 settings PolicyDesk.initial 0 where
  keyed _ _ h := nomatch h
  numbered version := by
    refine ⟨fun h => (by cases h), fun h => ?_⟩
    omega
  follows _ _ h := nomatch h
  sound _ _ h := nomatch h
  pending _ h := nomatch h

variable (h : PolicyInvariant sha256 settings desk n)

include h

/-- The operative order is that of the last version, or the configured one. -/
theorem current_eq :
    (currentServingOrder settings desk.policies).1 = orderBefore settings desk.policies (n + 1) ∧
      (currentServingOrder settings desk.policies).2.getD 0 = n := by
  unfold currentServingOrder orderBefore
  rw [getCurrentServingPolicy_eq h.numbered, Nat.add_sub_cancel]
  cases hfound : desk.policies.get? n with
  | none =>
    refine ⟨rfl, ?_⟩
    by_contra hne
    have hmem := (h.numbered n).mpr ⟨by simp at hne; omega, le_rfl⟩
    obtain ⟨record, hrecord⟩ := Dict.mem_keys_iff.mp hmem
    rw [hfound] at hrecord
    cases hrecord
  | some record => exact ⟨rfl, (h.follows n record hfound).1⟩

variable {record : ServingPolicyVersion}

/-- Saving the next version, when it follows the operative order and is sound itself. -/
theorem save (hversion : record.version = n + 1)
    (hfollows : Follows sha256 desk.catalogue.entries
      (currentServingOrder settings desk.policies).1 record)
    (hsound : OrderSound sha256 settings desk.catalogue.entries record.orderedEntryIds) :
    PolicyInvariant sha256 settings (desk.save record) (n + 1) := by
  have hnew : desk.policies.get? (n + 1) = none := get?_eq_none_of_lt h.numbered
  have hsaved : desk.save record =
      { desk with policies := desk.policies.insert (n + 1) record } := by
    simp [PolicyDesk.save, saveServingPolicyVersion, hversion, hnew]
  rw [hsaved]
  refine ⟨h.keyed, fun version => ?_, fun version stored hstored => ?_,
    Dict.forall_insert hsound h.sound, h.pending⟩
  · rw [mem_keys_insert, h.numbered]
    omega
  · have hbefore : orderBefore settings (desk.policies.insert (n + 1) record) version =
        orderBefore settings desk.policies version ∨ n + 1 < version := by
      by_cases hlt : n + 1 < version
      · exact .inr hlt
      · refine .inl ?_
        rw [orderBefore, orderBefore, Dict.get?_insert_of_ne _ (by omega)]
    rw [Dict.get?_insert] at hstored
    split_ifs at hstored with heq
    · cases hstored
      subst heq
      refine ⟨hversion, desk.catalogue.entries, Extends.refl _, ?_⟩
      rw [hbefore.resolve_right (lt_irrefl _), ← h.current_eq.1]
      exact hfollows
    · have hle := ((h.numbered version).mp (Dict.mem_keys_iff.mpr ⟨stored, hstored⟩)).2
      rw [hbefore.resolve_right (by omega)]
      exact h.follows version stored hstored

theorem grows [Fact (Function.Injective sha256)] [Fact (Hexadecimal sha256)]
    {catalogue : CatalogueStore}
    (hgrows : Grows desk.catalogue.entries catalogue.entries) :
    PolicyInvariant sha256 settings { desk with catalogue } n where
  keyed := hgrows.keyed
  numbered := h.numbered
  follows version record hrecord := by
    obtain ⟨hversion, entries, hentries, hfollows⟩ := h.follows version record hrecord
    exact ⟨hversion, entries, hentries.trans hgrows.kept, hfollows⟩
  sound version record hrecord := (h.sound version record hrecord).grows hgrows
  pending addition hmem := by
    obtain ⟨reason, order, row, hrequested⟩ := h.pending addition hmem
    obtain ⟨row', hrow', hsame⟩ := hgrows.kept _ _ hrequested.stored
    exact ⟨reason, order, row', ⟨hrow', by rw [hsame]; exact hrequested.payload,
      hrequested.hash, hrequested.commaFree, by rw [hsame]; exact hrequested.new⟩⟩

variable [Fact (Hexadecimal sha256)] [Fact (PairSound settings)]

theorem orderSound :
    OrderSound sha256 settings desk.catalogue.entries
      (currentServingOrder settings desk.policies).1 := by
  unfold currentServingOrder
  rw [getCurrentServingPolicy_eq h.numbered]
  cases hfound : desk.policies.get? n with
  | none => exact orderSound_configured
  | some record => exact h.sound n record hfound

/-- A request adds at most one pending addition, for a candidate the order does not hold. -/
theorem request_stored {reason actionId : String}
    {requesterKeyId : Option String} {payload : Payload}
    (hrequest : requestIdentityAdd sha256 entryId reason (desk.catalogue.entries.get? entryId)
      (currentServingOrder settings desk.policies).1 = .ok payload) :
    PolicyInvariant sha256 settings { desk with
      pending := desk.pending.insert entryId ⟨actionId, entryId,
        computeGovernedActionHash sha256 payload, payload, requesterKeyId⟩ } n := by
  refine ⟨h.keyed, h.numbered, h.follows, h.sound, fun addition hmem => ?_⟩
  obtain ⟨target, hstored⟩ := Dict.mem_values_iff.mp hmem
  rw [Dict.get?_insert] at hstored
  split_ifs at hstored with heq
  · cases hstored
    unfold requestIdentityAdd at hrequest
    split at hrequest
    · cases hrequest
    · rename_i row hrow
      split_ifs at hrequest with hineligible hheld
      rw [not_or] at hheld
      exact ⟨reason, _, row, ⟨hrow, (Except.ok.inj hrequest).symm, rfl,
        h.orderSound.commaFree, hheld⟩⟩
  · exact h.pending addition (Dict.mem_values_iff.mpr ⟨target, hstored⟩)

variable [Fact (Function.Injective sha256)]

/-- An approval that saves a version found the payload unchanged: the order is still the one
that was reviewed, so the candidate is still not in it. -/
theorem approved_eq_some {addition : PendingAddition} (hmem : addition ∈ desk.pending.values)
    {expectedHash : String} {approverKeyId : Option String}
    (happroved : desk.approved sha256 settings addition expectedHash approverKeyId now =
      some record) :
    ∃ reason row, desk.catalogue.entries.get? addition.target = some row ∧
      row.entryId ∉ (currentServingOrder settings desk.policies).1 ∧
      row.candidateIdV2 sha256 ∉ (currentServingOrder settings desk.policies).1 ∧
      record.version = n + 1 ∧ record.action = .identityAdd ∧
      record.orderedEntryIds =
        (currentServingOrder settings desk.policies).1 ++ [row.candidateIdV2 sha256] ∧
      addition.actionPayload = addPayload addition.target reason record.orderedEntryIds ∧
      expectedHash = computeGovernedActionHash sha256 addition.actionPayload := by
  obtain ⟨reason, order, row, hrequested⟩ := h.pending addition hmem
  have htarget : row.entryId = addition.target := h.keyed _ _ hrequested.stored
  generalize hoperative : currentServingOrder settings desk.policies = operative at *
  have hversion : operative.2.getD 0 = n := hoperative ▸ h.current_eq.2
  have hsound : OrderSound sha256 settings desk.catalogue.entries operative.1 :=
    hoperative ▸ h.orderSound
  simp only [PolicyDesk.approved, hoperative] at happroved
  cases hresolved : resolveEntry sha256 desk.catalogue.entries addition.target with
  | none =>
    rw [hresolved] at happroved
    cases happroved
  | some row' =>
    -- the target resolves to the row the request was made for
    obtain ⟨hrow', hnamed⟩ := resolveEntry_eq_some h.keyed hresolved
    obtain rfl : row' = row := row_unique h.keyed hrow' hrequested.stored hnamed
      (by simp [ServingTuple.representations, htarget])
    rw [hresolved] at happroved
    change (if _ then some _ else none) = some record at happroved
    split_ifs at happroved with hmatches
    cases happroved
    -- the hashes agree, hence the payloads, hence the orders
    have hjson := (Fact.out : Function.Injective sha256) (hmatches.1.trans hrequested.hash)
    rw [hrequested.payload] at hjson
    have hsame : operative.1 ++ [row'.candidateIdV2 sha256] =
        order ++ [row'.candidateIdV2 sha256] :=
      addPayload_injective (by simp) (by simp)
        (commaFree_append hsound.commaFree row'.toServingTuple)
        (commaFree_append hrequested.commaFree row'.toServingTuple)
        (get?_eq_of_canonicalJson_eq hjson)
    have horder : operative.1 = order := append_cancel_right hsame
    refine ⟨reason, row', hrequested.stored, ?_, ?_, ?_, rfl, rfl, ?_, ?_⟩
    · rw [horder, htarget]
      exact hrequested.new.2
    · rw [horder]
      exact hrequested.new.1
    · change operative.2.getD 0 + 1 = n + 1
      rw [hversion]
    · rw [hrequested.payload, ← hsame]
    · rw [← hrequested.hash]
      exact hmatches.2.symm

/-- The version that a removal saves. -/
theorem removal_saved {requestedByKeyId : String}
    (hremoval : removalVersion sha256 entryId requestedByKeyId now
      (currentServingOrder settings desk.policies)
      (resolveEntry sha256 desk.catalogue.entries entryId) = .ok record) :
    PolicyInvariant sha256 settings (desk.save record) (n + 1) := by
  have hsound := h.orderSound
  have hversion := h.current_eq.2
  unfold removalVersion at hremoval
  split at hremoval
  · cases hremoval
  · rename_i matched hmatched
    cases hremoval
    have hremovable : matched ∈ removable sha256 entryId
        (resolveEntry sha256 desk.catalogue.entries entryId) := by
      simpa using find?_some hmatched
    have hmem := mem_of_find?_eq_some hmatched
    refine h.save (by rw [hversion]) ⟨matched, hmem, ?_⟩ (hsound.sublist filter_sublist)
    exact hsound.filter_removable h.keyed hmem hremovable

/-- Every operation keeps the invariant. -/
theorem perform (operation : PolicyOperation) :
    ∃ n', PolicyInvariant sha256 settings (operation.perform sha256 settings desk) n' := by
  cases operation with
  | catalogue operation => exact ⟨n, h.grows (grows_perform h.keyed operation)⟩
  | requestAdd entryId reason requesterKeyId actionId now =>
    rw [PolicyOperation.perform]
    split
    · exact ⟨n, h⟩
    · rename_i report entries hpass
      have hgrows := grows_ensureModelCatalogueSeeded h.keyed hpass
      have hseeded : PolicyInvariant sha256 settings
          { desk with catalogue := { desk.catalogue with entries } } n := h.grows hgrows
      split
      · exact ⟨n, hseeded⟩
      · rename_i payload hrequest
        exact ⟨n, hseeded.request_stored hrequest⟩
  | approveAdd actionId expectedHash approverKeyId now =>
    rw [PolicyOperation.perform]
    split
    · exact ⟨n, h⟩
    · rename_i addition hfound
      split
      · exact ⟨n, h⟩
      · rename_i record happroved
        obtain ⟨reason, row, hrow, hentry, hcanonical, hversion, haction, horder, -⟩ :=
          h.approved_eq_some (mem_of_find?_eq_some hfound) happroved
        have hsaved := h.save hversion (by rw [Follows, haction]; exact ⟨_, row, hrow, horder⟩)
          (horder ▸ h.orderSound.append hrow hentry hcanonical)
        have hpolicies : (desk.save record).pending = desk.pending := by
          unfold PolicyDesk.save
          split <;> rfl
        refine ⟨n + 1, hsaved.keyed, hsaved.numbered, hsaved.follows, hsaved.sound, ?_⟩
        intro other hother
        apply hsaved.pending other
        rw [hpolicies]
        exact Dict.mem_values_of_mem_erase hother
  | remove entryId requestedByKeyId now =>
    rw [PolicyOperation.perform]
    split
    · exact ⟨n, h⟩
    · rename_i record hremoval
      exact ⟨n + 1, h.removal_saved hremoval⟩

omit h in
/-- The invariant holds after every sequence of operations. -/
theorem after (operations : List PolicyOperation) :
    ∃ n, PolicyInvariant sha256 settings (PolicyDesk.after sha256 settings operations) n := by
  induction operations using reverseRecOn with
  | nil => exact ⟨0, initial⟩
  | append_singleton earlier operation ih =>
    obtain ⟨n, h⟩ := ih
    rw [PolicyDesk.after, foldl_append]
    exact h.perform operation

end PolicyInvariant

/-! ### The history -/

/-- After every sequence of operations, from nothing stored and a configured pair that is sound:
the stored versions form a history, an approved addition saves the order that was reviewed, and
no two resulting orders, also of different sound configurations, have the same payload. -/
theorem servingPolicyHistory_sound (sha256 : String → String) (hsha : Function.Injective sha256)
    (hhex : Hexadecimal sha256) (settings : SeedSettings) (hpair : PairSound settings)
    (operations : List PolicyOperation) :
    SoundHistory sha256 settings (PolicyDesk.after sha256 settings operations) ∧
      BoundApproval sha256 settings (PolicyDesk.after sha256 settings operations) ∧
      ∀ settings', PairSound settings' → ∀ operations', DistinctPayloads sha256 settings settings'
          (PolicyDesk.after sha256 settings operations)
          (PolicyDesk.after sha256 settings' operations') := by
  have := Fact.mk hsha
  have := Fact.mk hhex
  have := Fact.mk hpair
  obtain ⟨n, h⟩ := @PolicyInvariant.after sha256 settings _ _ _ operations
  refine ⟨⟨⟨n, h.numbered⟩, h.follows, fun version record hrecord =>
    (h.sound version record hrecord).distinct⟩, ?_, ?_⟩
  · intro addition hmem expectedHash approverKeyId now record happroved
    obtain ⟨reason, -, -, -, -, -, -, -, hpayload, hhash⟩ :=
      h.approved_eq_some hmem happroved
    exact ⟨reason, hpayload, hhash⟩
  · intro settings' hpair' operations' row row' entryId entryId' reason reason' order order' heq
    have := Fact.mk hpair'
    obtain ⟨n', h'⟩ := @PolicyInvariant.after sha256 settings' _ _ _ operations'
    exact addPayload_injective (by simp [order]) (by simp [order'])
      (commaFree_append h.orderSound.commaFree row.toServingTuple)
      (commaFree_append h'.orderSound.commaFree row'.toServingTuple)
      fun key => by rw [heq]

/-! ### Additions complete -/

/-- A requested addition of an eligible candidate that the order does not hold is saved when its
own hash is approved next. -/
theorem PolicyDesk.addition_completes {sha256 : String → String}
    (desk : PolicyDesk)
    (hseeded : ensureModelCatalogueSeeded sha256 settings now desk.catalogue.entries = .ok outcome)
    (hrow : outcome.2.get? entryId = some row)
    (hkey : ¬ entryId.startsWith candidateIdentityV2Prefix)
    (heligible : row.lifecycleState.ineligible = false) (hpending : desk.pending = .empty)
    (hnew : row.candidateIdV2 sha256 ∉ (currentServingOrder settings desk.policies).1 ∧
      entryId ∉ (currentServingOrder settings desk.policies).1)
    (hfree : desk.policies.get? ((currentServingOrder settings desk.policies).2.getD 0 + 1) = none)
    (actionId reason later : String) (requesterKeyId approverKeyId : Option String) :
    let order := (currentServingOrder settings desk.policies).1 ++ [row.candidateIdV2 sha256]
    let version := (currentServingOrder settings desk.policies).2.getD 0 + 1
    ∃ record, record.orderedEntryIds = order ∧ ((PolicyOperation.approveAdd actionId
          (computeGovernedActionHash sha256 (addPayload entryId reason order)) approverKeyId
          later).perform sha256 settings
        ((PolicyOperation.requestAdd entryId reason requesterKeyId actionId now).perform sha256
          settings desk)).policies.get? version = some record := by
  intro order version
  have hreason : (addPayload entryId reason order).text "reason" = reason := by
    simp [addPayload, Payload.text, Dict.get?_insert]
  let addition : PendingAddition := ⟨actionId, entryId, computeGovernedActionHash sha256
    (addPayload entryId reason order), addPayload entryId reason order, requesterKeyId⟩
  let requested : PolicyDesk :=
    ⟨{ desk.catalogue with entries := outcome.2 }, desk.policies, Dict.empty.insert entryId addition⟩
  have hrequested : (PolicyOperation.requestAdd entryId reason requesterKeyId actionId
      now).perform sha256 settings desk = requested := by
    simp [PolicyOperation.perform, hseeded, requestIdentityAdd, hrow, heligible, hnew, hpending,
      requested, addition, order]
  let record : ServingPolicyVersion := ⟨version, order, .identityAdd, row.candidateIdV2 sha256,
    (truthy requesterKeyId).getD "unknown", approverKeyId, some actionId, later⟩
  have happroved : requested.approved sha256 settings addition addition.actionHash approverKeyId
      later = some record := by
    simp [PolicyDesk.approved, resolveEntry, hkey, hrow, additionPayload, canonicalForTarget,
      additionVersion, Except.toOption, hreason, requested, addition, record, order, version]
  have hsaved : requested.save record =
      { requested with policies := desk.policies.insert version record } := by
    simp [PolicyDesk.save, saveServingPolicyVersion, hfree, requested, record, version]
  have hfound : requested.pending.values.find? (·.actionId = actionId) = some addition := by
    simp [requested, addition, Dict.insert, Dict.empty, Dict.setEntry, Dict.values]
  refine ⟨record, rfl, ?_⟩
  rw [hrequested, PolicyOperation.perform, hfound]
  dsimp only
  rw [happroved]
  dsimp only
  rw [hsaved]
  exact Dict.get?_insert_self _ _ _

/-! ### Samples -/

section Samples

/-- A digest for samples: eight hexadecimal digits for each character, and an end mark. -/
def sampleDigest (text : String) : String :=
  String.ofList (terminated (fun c => hex4 (c.toNat / 0x10000) ++ hex4 (c.toNat % 0x10000)) 'f'
    text.toList)

theorem sampleDigest_injective : Function.Injective sampleDigest := by
  have hcode : SelfDelimiting fun c : Char =>
      hex4 (c.toNat / 0x10000) ++ hex4 (c.toNat % 0x10000) := by
    intro c d r s h
    have hsmall (c : Char) : c.toNat / 0x10000 < 0x10000 := by
      have hvalid : c.toNat.isValidChar := c.valid
      omega
    obtain ⟨hhigh, h⟩ := escapeUnit_append_inj (hsmall c) (hsmall d)
      (congrArg (fun rest => '\\' :: 'u' :: rest) h)
    obtain ⟨hlow, h⟩ := escapeUnit_append_inj (Nat.mod_lt _ (by decide))
      (Nat.mod_lt _ (by decide)) (congrArg (fun rest => '\\' :: 'u' :: rest) h)
    refine ⟨Char.toNat_inj.mp ?_, h⟩
    rw [← Nat.div_add_mod c.toNat 0x10000, ← Nat.div_add_mod d.toNat 0x10000, hhigh, hlow]
  intro text text' h
  refine String.toList_inj.mp ((selfDelimiting_terminated hcode ?_).injective
    (String.ofList_injective h))
  -- the first digit of every character is a zero
  intro c r
  have hvalid : c.toNat.isValidChar := c.valid
  have hzero : c.toNat / 0x10000 / 0x1000 % 16 = 0 := by omega
  simp [hex4, hzero]

theorem hexadecimal_sampleDigest : Hexadecimal sampleDigest := by
  have hdigit (n : ℕ) : (n % 16).digitChar ∈ "0123456789abcdef".toList := by
    have hlt : n % 16 < 16 := Nat.mod_lt _ (by decide)
    generalize n % 16 = d at hlt
    revert d
    decide
  have hcode (n : ℕ) : ∀ c ∈ hex4 n, c ∈ "0123456789abcdef".toList := by
    intro c hc
    simp only [hex4, mem_cons, not_mem_nil, or_false] at hc
    rcases hc with rfl | rfl | rfl | rfl <;> exact hdigit _
  intro text c hc
  rw [sampleDigest, String.toList_ofList] at hc
  generalize text.toList = chars at hc
  induction chars with
  | nil => exact (mem_singleton.mp hc) ▸ (by decide)
  | cons d rest ih =>
    rw [terminated, mem_append, mem_append] at hc
    rcases hc with (hhigh | hlow) | hrest
    · exact hcode _ c hhigh
    · exact hcode _ c hlow
    · exact ih hrest

/-- A primary and a fallback are configured, and the inventory approves a third model. -/
def configuredPair : SeedSettings :=
  ⟨"openai", some "a", some "m", none, some "b", some "m", none,
    some [⟨"c", "openai", "m", "m", ["pack"], "ref", "t", none⟩]⟩

theorem servingPolicyHistory_configuredPair :
    (PolicyDesk.after sampleDigest configuredPair
        [.remove "a:m" "k1" "t0"]).policies.values.map (·.orderedEntryIds) = [["b:m"]] ∧
    SoundHistory sampleDigest configuredPair
      (PolicyDesk.after sampleDigest configuredPair [.remove "a:m" "k1" "t0"]) :=
  ⟨by decide +kernel,
    (servingPolicyHistory_sound sampleDigest sampleDigest_injective hexadecimal_sampleDigest
      configuredPair (by decide +kernel) [.remove "a:m" "k1" "t0"]).1⟩

/-- The same identity is configured as primary and as fallback. -/
def configuredTwice : SeedSettings :=
  { configuredPair with fallbackProviderId := some "a" }

/-- One identity that reads like two. -/
def commaInModel : SeedSettings :=
  { configuredPair with modelId := some "m,b:m", fallbackProviderId := none }

/-- The row of the third model. -/
def thirdModel : ModelCatalogueEntry :=
  inventorySeedEntry ⟨"c", "openai", "m", "m", ["pack"], "ref", "t", none⟩ "t0"

theorem seeded_thirdModel (sha256 : String → String) :
    ∃ outcome, ensureModelCatalogueSeeded sha256 configuredTwice "t0" .empty = .ok outcome ∧
      outcome.2.get? "c:m" = some thirdModel := by
  have happroved : approvedModels configuredTwice =
      .ok [⟨"c", "openai", "m", "m", ["pack"], "ref", "t", none⟩] := by rfl
  obtain ⟨seeds, hseeds, hmem⟩ : ∃ seeds,
      buildSeedModelCatalogueEntries configuredTwice "t0" = .ok seeds ∧ thirdModel ∈ seeds :=
    ⟨_, buildSeed_eq_ok.mpr ⟨_, happroved, rfl⟩, mem_seeds.mpr (by decide +kernel)⟩
  exact ⟨_, bind_eq_ok.mpr ⟨seeds, hseeds, rfl⟩, get?_seedAll_of_mem (seeds_nodup hseeds) hmem⟩

/-- Request the third model on top of the doubled order, and approve it. -/
def addThirdModel (sha256 : String → String) : List PolicyOperation :=
  [.requestAdd "c:m" "more capacity" (some "k1") "act-1" "t0",
    .approveAdd "act-1" (computeGovernedActionHash sha256 (addPayload "c:m" "more capacity"
      (configuredOrder configuredTwice ++ [thirdModel.candidateIdV2 sha256]))) (some "k2") "t1"]

/-- With one identity configured twice, the first version holds it twice. With a comma in an
identity, two different resulting orders have the same payload. -/
theorem policyHistory_breaks :
    (∀ sha256, Hexadecimal sha256 → ¬ SoundHistory sha256 configuredTwice
      (PolicyDesk.after sha256 configuredTwice (addThirdModel sha256))) ∧
    ∀ sha256, ¬ DistinctPayloads sha256 commaInModel configuredPair
      (PolicyDesk.after sha256 commaInModel []) (PolicyDesk.after sha256 configuredPair []) := by
  constructor
  · intro sha256 hhex hhistory
    have := Fact.mk hhex
    obtain ⟨outcome, hseeded, hrow⟩ := seeded_thirdModel sha256
    have hnew : thirdModel.candidateIdV2 sha256 ∉ configuredOrder configuredTwice := fun hmem =>
      notMem_candidateIdV2 _ (by decide : ':' ∉ _) (colon_mem_configured hmem)
    obtain ⟨record, horder, hrecord⟩ := PolicyDesk.addition_completes .initial hseeded
      hrow (by decide +kernel) rfl rfl ⟨hnew, by decide +kernel⟩ rfl "act-1" "more capacity" "t1"
      (some "k1") (some "k2")
    have hdistinct := hhistory.distinct _ record hrecord
    have hconfigured : configuredOrder configuredTwice = ["a:m", "a:m"] := by decide +kernel
    rw [horder] at hdistinct
    change (configuredOrder configuredTwice ++ _).Pairwise _ at hdistinct
    rw [hconfigured] at hdistinct
    have halias := (List.pairwise_cons.mp hdistinct).1 "a:m" (by simp)
    rw [← Bool.not_eq_true, aliased_iff] at halias
    exact halias (.inl rfl)
  · intro sha256 hpayloads
    have hjoined : ",".intercalate ["a:m,b:m", thirdModel.candidateIdV2 sha256] =
        ",".intercalate ["a:m", "b:m", thirdModel.candidateIdV2 sha256] := by
      simp [← String.toList_inj]
    have hsame := hpayloads thirdModel thirdModel "c:m" "c:m" "more" "more"
      (congrArg (fun joined => Dict.insert _ "resulting_order" (some joined)) hjoined)
    have hlength : 2 = 3 := congrArg List.length hsame
    exact absurd hlength (by decide)

end Samples

end LotusAI.Catalogue
