import LotusAI.ControlPlane.LifecycleChain

/-!
# The baseline of a governed effect

An approval reads the row its action is about, compares the hash of the payload that this row
gives with the hash that was approved, claims the action, and later writes a whole row. What the
approver has reviewed is the row that was read. Nothing but the action itself is held in between.

When an effect is written where everything that its approval has read is still as it was read,
the store agrees with the approved payload at every pinned field, and no change that another
operation has made is overwritten. The version number of the serving policy refuses a stale
save; no other write is refused.
-/

namespace LotusAI.ControlPlane

open Lib Governance Provider KillSwitch Prompts Catalogue Option Reading List

/-! ### Fields -/

/-- A field of a row. -/
structure Field (Row : Type) : Type 1 where
  type : Type
  get : Row → type

/-- The fields of an activation, its key apart. -/
def activationFields : List (Field KillSwitchActivation) :=
  [⟨_, (·.scope)⟩, ⟨_, (·.semantics)⟩, ⟨_, (·.target)⟩, ⟨_, (·.reason)⟩,
    ⟨_, (·.requestedBy)⟩, ⟨_, (·.approvedBy)⟩, ⟨_, (·.activatedAt)⟩,
    ⟨_, (·.expiresAtUtc)⟩, ⟨_, (·.expiryRecordedAt)⟩, ⟨_, (·.clearedAt)⟩,
    ⟨_, (·.clearedBy)⟩, ⟨_, (·.clearReason)⟩]

/-- The fields of a rollout state, its key apart. -/
def rolloutFields : List (Field PromptRolloutState) :=
  [⟨_, (·.activePromptVersion)⟩, ⟨_, (·.candidatePromptVersion)⟩,
    ⟨_, (·.previousActivePromptVersion)⟩, ⟨_, (·.rolloutMode)⟩,
    ⟨_, (·.runtimeMutationEnabled)⟩]

/-- The fields of a prompt version, its key apart. -/
def versionFields : List (Field PromptDescriptor) :=
  [⟨_, (·.promptKind)⟩, ⟨_, (·.lifecycleStatus)⟩, ⟨_, (·.managementMode)⟩,
    ⟨_, (·.sourceReference)⟩, ⟨_, (·.systemInstructions)⟩, ⟨_, (·.outputContractNotes)⟩]

/-- The fields of a catalogue row, the serving tuple that is its key apart. -/
def entryFields : List (Field ModelCatalogueEntry) :=
  [⟨_, (·.modelFamily)⟩, ⟨_, (·.providerMode)⟩, ⟨_, (·.sku)⟩,
    ⟨_, (·.lifecycleState)⟩, ⟨_, (·.revisionPinned)⟩, ⟨_, (·.modalities)⟩,
    ⟨_, (·.contextWindowTokens)⟩, ⟨_, (·.maxOutputTokens)⟩,
    ⟨_, (·.supportsStructuredOutput)⟩, ⟨_, (·.supportsToolCalling)⟩,
    ⟨_, (·.supportsStreaming)⟩, ⟨_, (·.capabilityDegradations)⟩,
    ⟨_, (·.approvedWorkflowPackIds)⟩, ⟨_, (·.approvalEvidenceRefs)⟩,
    ⟨_, (·.approvedFromUtc)⟩, ⟨_, (·.approvedUntilUtc)⟩, ⟨_, (·.seedSource)⟩,
    ⟨_, (·.createdAt)⟩, ⟨_, (·.lastUpdatedAt)⟩]

/-- A field that has changed since the writer first read the row is left as it was changed. -/
def Lossless {Row Cause : Type} (fields : List (Field Row)) (write : Write Row Cause) :
    Prop :=
  ∀ first before, write.read = some first → write.before = some before →
    ∀ field ∈ fields, (∃ row, first = some row ∧ field.get row = field.get before) ∨
      field.get before = field.get write.after

/-! ### What is asked of the effects -/

/-- The pinned field of a clearance. -/
def PinnedClearance (record : GovernedActionRecord) (before : KillSwitchActivation) : Prop :=
  record.actionPayload.get? "activated_at" = some (some before.activatedAt)

/-- The pinned field of a prompt promotion. -/
def PinnedPromptPromotion (record : GovernedActionRecord) (before : PromptRolloutState) : Prop :=
  record.actionPayload.get? "prior_active_prompt_version" =
    some (some before.activePromptVersion)

/-- The pinned fields of an effect on a catalogue row: the state a promotion starts from, and
the degradation a restore takes back. -/
def PinnedEntry (before : ModelCatalogueEntry) : EntryCause → Prop
  | .promotion record _ =>
    record.actionPayload.get? "from_state" = some (some before.lifecycleState.value)
  | .restore record dimension => ∃ degradation,
      before.capabilityDegradations.get? dimension = some degradation ∧
      record.actionPayload.get? "dimension" = some (some degradation.dimension) ∧
      record.actionPayload.get? "degradation_reason" = some (some degradation.reason) ∧
      record.actionPayload.get? "degraded_by" = some (some degradation.degradedBy) ∧
      record.actionPayload.get? "degraded_at" = some (some degradation.degradedAt)
  | _ => True

/-- The pinned order of an addition is what the operative order, as it is, and the new
candidate give; and that is what is saved. -/
def PinnedAddition (record : GovernedActionRecord) (before : Option ServingPolicyVersion)
    (after : ServingPolicyVersion) : Prop :=
  ∃ settings, after.orderedEntryIds =
      (operativeOrder settings before).1 ++ [after.changedEntryId] ∧
    record.actionPayload.get? "resulting_order" =
      some (some (",".intercalate after.orderedEntryIds))

/-- Every effect was written over the baseline that its approver has reviewed: the store agreed
with the payload at the pinned fields, and no change of another operation was overwritten. -/
structure ReviewedBaselines (log : Log) : Prop where
  clearance : ∀ write ∈ log.activations, ∀ record, write.cause = some record →
    Lossless activationFields write ∧
      ∃ before, write.before = some before ∧ PinnedClearance record before
  promptPromotion : ∀ write ∈ log.rollouts, ∀ record, write.cause = some record →
    Lossless rolloutFields write ∧
      ∃ before, write.before = some before ∧ PinnedPromptPromotion record before
  promptVersion : ∀ write ∈ log.versions, ∀ record, write.cause = some record →
    Lossless versionFields write
  catalogue : ∀ write ∈ log.entries, ∀ record, write.cause.governed? = some record →
    Lossless entryFields write ∧
      ∃ before, write.before = some before ∧ PinnedEntry before write.cause
  addition : ∀ write ∈ log.policies, ∀ record, write.cause = some record →
    PinnedAddition record write.before write.after

section Baselines

variable {sha256 : String → String} {ι : Type} {i : ι} {w w' : World ι}

/-! ### The condition -/

/-- Everything the operation has read is still as it was read. -/
def AllCurrent (sha256 : String → String) (i : ι) (w : World ι) : Prop :=
  ∀ reading ∈ (w.notes i).readings, reading.Current sha256 w.stores

instance (sha256 : String → String) (i : ι) (w : World ι) : Decidable (AllCurrent sha256 i w) :=
  inferInstanceAs (Decidable (∀ _ ∈ _, _))

/-- The write of an effect finds the rows as its approval has read them, unless the store
refuses it. -/
def CurrentBaseline (sha256 : String → String) (i : ι) (w : World ι) : Call → Prop
  | .upsertActivation _ cause => cause.isSome → AllCurrent sha256 i w
  | .savePromptRolloutTransition transition cause => cause.isSome →
      (w.stores.prompts.saveRolloutTransition transition).isOk → AllCurrent sha256 i w
  | .upsertEntry _ cause => cause.governed?.isSome → AllCurrent sha256 i w
  | .saveServingPolicyVersion record cause => cause.isSome →
      w.stores.policies.get? record.version = none → AllCurrent sha256 i w
  | _ => True

instance (sha256 : String → String) (i : ι) (w : World ι) (call : Call) :
    Decidable (CurrentBaseline sha256 i w call) :=
  match call with
  | .upsertActivation _ _ => inferInstanceAs (Decidable (_ → _))
  | .savePromptRolloutTransition _ _ => inferInstanceAs (Decidable (_ → _ → _))
  | .upsertEntry _ _ => inferInstanceAs (Decidable (_ → _))
  | .saveServingPolicyVersion _ _ => inferInstanceAs (Decidable (_ → _ → _))
  | .governed _ | .authorizeRequest _ _ _ | .utcNowIso | .uuidHex | .promptApprovalGate
  | .getRun _ | .getActivation _ | .listActivations | .getPromptRolloutState _
  | .getPromptVersion _ _ | .getEntry _ | .getEntryByCandidateId _ | .appendLifecycleEvent _
  | .getCurrentServingPolicy => isTrue trivial

/-! ### Writes over current rows -/

/-- What an operation has first read of a row is among its readings. -/
theorem mem_of_first {Row : Type} {notes : Notes} {pick : Reading → Option (Option Row)}
    {found : Option Row} (h : notes.first pick = some found) :
    ∃ reading ∈ notes.readings, pick reading = some found := by
  obtain ⟨reading, hmem, hpick⟩ := exists_of_findSome?_eq_some h
  exact ⟨reading, mem_reverse.mp hmem, hpick⟩

/-- When everything that was read is current, a write replaces what was first read, and so
loses nothing. -/
theorem lossless_of_current {Row Cause : Type} {fields : List (Field Row)}
    {write : Write Row Cause} {pick : Reading → Option (Option Row)}
    (hcurrent : AllCurrent sha256 i w) (hread : write.read = (w.notes i).first pick)
    (hpick : ∀ reading found, reading.Current sha256 w.stores → pick reading = some found →
      write.before = found) : Lossless fields write := by
  intro first before hfirst hbefore field _
  obtain ⟨reading, hmem, hfound⟩ := mem_of_first (hread.symm.trans hfirst)
  have hunchanged := hpick reading first (hcurrent reading hmem) hfound
  exact .inl ⟨before, hunchanged.symm.trans hbefore, rfl⟩

section

variable {reading : Reading} (hcurrent : reading.Current sha256 w.stores)

include hcurrent

theorem current_of_activation? {switchId : String} {found : Option KillSwitchActivation}
    (h : reading.activation? switchId = some found) :
    w.stores.activations.get? switchId = found := by
  cases reading with
  | activation key row =>
    simp only [activation?, ite_none_right_eq_some] at h
    obtain ⟨rfl, hrow⟩ := h
    exact hcurrent.trans (some.inj hrow)
  | _ => cases h

theorem current_of_rollout? {taskId : String} {found : Option PromptRolloutState}
    (h : reading.rollout? taskId = some found) :
    w.stores.prompts.rollouts.get? taskId = found := by
  cases reading with
  | rollout key row =>
    simp only [rollout?, ite_none_right_eq_some] at h
    obtain ⟨rfl, hrow⟩ := h
    exact hcurrent.trans (some.inj hrow)
  | _ => cases h

theorem current_of_version? {key : String × String} {found : Option PromptDescriptor}
    (h : reading.version? key = some found) :
    w.stores.prompts.versions.get? key = found := by
  cases reading with
  | version key' row =>
    simp only [version?, ite_none_right_eq_some] at h
    obtain ⟨rfl, hrow⟩ := h
    exact hcurrent.trans (some.inj hrow)
  | _ => cases h

theorem current_of_entry? {entryId : String} {found : Option ModelCatalogueEntry}
    (h : reading.entry? entryId = some found) :
    w.stores.entries.get? entryId = found := by
  cases reading with
  | entry key row =>
    simp only [ entry?, ite_none_right_eq_some] at h
    obtain ⟨rfl, hrow⟩ := h
    exact hcurrent.trans (some.inj hrow)
  | _ => cases h

end

/-! ### Pinned fields -/

section Pinned

variable (hsha : Function.Injective sha256)

include hsha

variable {record : GovernedActionRecord}

theorem pinnedClearance {baseline : KillSwitchActivation} {reason : String}
    (h : Approves sha256 (clearancePayload baseline reason) record) :
    PinnedClearance record baseline := by
  rw [PinnedClearance, h.get?_eq hsha]
  simp [clearancePayload, Dict.get?_insert]

theorem pinnedPromptPromotion {baseline : PromptRolloutState} {taskId candidate reason : String}
    (h : Approves sha256 (promotionPayload taskId candidate baseline.activePromptVersion reason)
      record) : PinnedPromptPromotion record baseline := by
  rw [PinnedPromptPromotion, h.get?_eq hsha]
  simp [promotionPayload, Dict.get?_insert]

/-- The row that a governed catalogue write was derived from has the pinned fields. -/
theorem pinnedEntry {readings : List Reading} {row : ModelCatalogueEntry} {cause : EntryCause}
    (hgoverned : cause.governed?.isSome) (h : HonestEntry sha256 readings row cause) :
    ∃ baseline, entry row.entryId (some baseline) ∈ readings ∧
      PinnedEntry baseline cause := by
  cases cause with
  | promotion record event =>
    obtain ⟨baseline, toState, runId, run, reason, requestedBy, approvedBy, hex, now, hread, -,
      happroves⟩ := h
    refine ⟨baseline, hread, ?_⟩
    rw [PinnedEntry, happroves.get?_eq hsha]
    simp [promotionActionPayload, Dict.get?_insert]
  | restore record dimension =>
    obtain ⟨baseline, degradation, runId, run, reason, now, hread, hdegradation, -,
      happroves⟩ := h
    refine ⟨baseline, hread, degradation, ?_, ?_⟩
    · unfold requiredDegradation at hdegradation
      split at hdegradation
      · rename_i found hfound
        rw [hfound, Except.ok.inj hdegradation]
      · cases hdegradation
    · simp only [happroves.get?_eq hsha]
      simp [capabilityRestorePayload, Dict.get?_insert]
  | transition | degradation | seeding => cases hgoverned

/-- An addition that is saved over the order it was approved for. -/
theorem pinnedAddition {version : ServingPolicyVersion} (hcurrent : AllCurrent sha256 i w)
    (h : HonestPolicy sha256 (w.notes i).readings version (some record)) :
    PinnedAddition record (getCurrentServingPolicy w.stores.policies.rows) version := by
  obtain ⟨settings, policy, policy', entry, entry', approverKeyId, now, payload, hpolicy, hpolicy',
    hentry, hentry', hpayload, happroves, hversion⟩ := h
  have hsame : policy = policy' := (hcurrent _ hpolicy).symm.trans (hcurrent _ hpolicy')
  have hentries : entry = entry' := by
    have hfound := hcurrent _ hentry
    have hfound' := hcurrent _ hentry'
    unfold resolution at hfound hfound'
    split_ifs at hfound hfound' <;> exact hfound.symm.trans hfound'
  subst hsame hentries
  obtain ⟨canonical, hcanonical, hout⟩ := bind_eq_ok.mp hpayload
  obtain ⟨canonical', hcanonical', hout'⟩ := bind_eq_ok.mp hversion
  obtain rfl := Except.ok.inj (hcanonical.symm.trans hcanonical')
  obtain rfl := pure_eq_ok.mp hout
  obtain rfl := pure_eq_ok.mp hout'
  have hcurrentPolicy : getCurrentServingPolicy w.stores.policies.rows = policy :=
    hcurrent _ hpolicy
  refine ⟨settings, ?_, ?_⟩
  · rw [hcurrentPolicy]
  · rw [happroves.get?_eq hsha]
    simp [addPayload]

end Pinned

/-! ### Interleavings -/

/-- Every honest call keeps the baselines of the effects reviewed, where they are current. -/
theorem ReviewedBaselines.step [DecidableEq ι] (hsha : Function.Injective sha256) {call : Call}
    {r : call.Answer} (h : ReviewedBaselines w.log) (hcall : Honest sha256 (w.notes i) call)
    (hok : CurrentBaseline sha256 i w call) (hout : call.Outcome sha256 i w w' r) :
    ReviewedBaselines w'.log := by
  cases call with
  | upsertActivation activation cause =>
    obtain rfl := hout
    refine { h with clearance := ?_ }
    intro write hwrite record hcause
    rcases mem_cons.mp hwrite with rfl | hold
    · obtain rfl : cause = some record := hcause
      have hcurrent := hok rfl
      obtain ⟨baseline, hread, happroves⟩ := hcall.2
      exact ⟨lossless_of_current hcurrent rfl fun _ _ h => current_of_activation? h,
        baseline, hcurrent _ hread, pinnedClearance hsha happroves⟩
    · exact h.clearance write hold record hcause
  | savePromptRolloutTransition transition cause =>
    obtain rfl | ⟨prompts, hsaved, rfl⟩ := hout
    · exact h
    have hcurrent : cause.isSome → AllCurrent sha256 i w :=
      fun hcause => hok hcause (by rw [hsaved]; rfl)
    refine { h with promptPromotion := ?_, promptVersion := ?_ }
    · intro write hwrite record hcause
      rcases mem_cons.mp hwrite with rfl | hold
      · obtain rfl : cause = some record := hcause
        obtain ⟨baseline, _, _, _, hread, happroves⟩ := hcall.2
        exact ⟨lossless_of_current (hcurrent rfl) rfl fun _ _ h => current_of_rollout? h,
          baseline, hcurrent rfl _ hread, pinnedPromptPromotion hsha happroves⟩
      · exact h.promptPromotion write hold record hcause
    · intro write hwrite record hcause
      rcases mem_append.mp hwrite with hnew | hold
      · obtain ⟨written, -, rfl⟩ := mem_map.mp hnew
        obtain rfl : cause = some record := hcause
        exact lossless_of_current (hcurrent rfl) rfl fun _ _ h => current_of_version? h
      · exact h.promptVersion write hold record hcause
  | upsertEntry row cause =>
    obtain rfl := hout
    refine { h with catalogue := ?_ }
    intro write hwrite record hcause
    rcases mem_cons.mp hwrite with rfl | hold
    · have hgoverned : cause.governed?.isSome := isSome_iff_exists.mpr ⟨record, hcause⟩
      have hcurrent := hok hgoverned
      obtain ⟨baseline, hread, hpinned⟩ := pinnedEntry hsha hgoverned hcall.2
      exact ⟨lossless_of_current hcurrent rfl fun _ _ h => current_of_entry? h,
        baseline, hcurrent _ hread, hpinned⟩
    · exact h.catalogue write hold record hcause
  | saveServingPolicyVersion version cause =>
    obtain rfl | ⟨hfree, rfl⟩ := hout
    · exact h
    refine { h with addition := ?_ }
    intro write hwrite record hcause
    rcases mem_cons.mp hwrite with rfl | hold
    · obtain rfl : cause = some record := hcause
      exact pinnedAddition hsha (hok rfl hfree) hcall.2
    · exact h.addition write hold record hcause
  | governed call =>
    obtain ⟨governance, -, rfl⟩ := hout
    exact h
  | appendLifecycleEvent _ | authorizeRequest _ _ _ | utcNowIso | uuidHex | promptApprovalGate
  | getRun | listActivations =>
    obtain rfl := hout
    exact h
  | getActivation _ | getPromptRolloutState _ | getPromptVersion _ _ | getEntry _
  | getEntryByCandidateId | getCurrentServingPolicy =>
    obtain ⟨-, rfl⟩ := hout
    exact h

/-- In every interleaving of any sessions in which effects are written over current baselines,
every effect was written over the baseline that was reviewed. -/
theorem reviewedBaselines_of_current [DecidableEq ι] (hsha : Function.Injective sha256)
    {sessions : ι → Session} {stores : Stores}
    {c : Machine.Config Call.Answer ι (World ι) (Except Raised Unit)}
    (hreach : (machine sha256 ι).Reach (CurrentBaseline sha256) (pool sha256 sessions stores) c) :
    ReviewedBaselines c.store.log := by
  refine honest_invariant (J := fun w => ReviewedBaselines w.log) hreach ?_
    fun i w call r w' hcall hok hout h => h.step hsha hcall hok hout
  exact ⟨(fun _ h => nomatch h), (fun _ h => nomatch h), (fun _ h => nomatch h),
    (fun _ h => nomatch h), (fun _ h => nomatch h)⟩

end Baselines

/-! ### Runs -/

section Runs

def evaluatedModel : ModelCatalogueEntry :=
  { settingsSeedEntry "openai" "a" "m" none "t0" with lifecycleState := .evaluating }

/-- The catalogue holds the evaluated model. -/
def evaluatedStores : Stores :=
  { deprecatedStores with entries := .ofList [evaluatedModel] }

/-- The approval of the promotion, as reviewed. -/
def promotionApproval : Approval :=
  ⟨"gact_u", computeGovernedActionHash id
    (promotionActionPayload evaluatedModel .approved "e" "r"), none⟩

/-- The approval of the model is requested and approved; a third operator deprecates the
model. -/
def promoteAndDeprecate : Fin 3 → Session
  | 0 => .requestModelPromotion durableSettings ⟨"ops", "signed_credential", some "k1"⟩ "a:m"
      ⟨.approved, "e", "r", none⟩
  | 1 => .approveModelPromotion durableSettings ⟨"ops", "signed_credential", some "k2"⟩ "a:m"
      promotionApproval
  | 2 => .lifecycleTransition durableSettings ⟨"ops", "signed_credential", some "k3"⟩ "a:m"
      .deprecated "r"

/-- The evaluation has passed. -/
def passed : Choice := .run (some ⟨"COMPLETED", some "PASS"⟩)

/-- The promotion is requested, and its approval has read the row. -/
def promotionReads : List (Fin 3 × Choice) :=
  [(0, allowed), (0, .store), (0, passed), (0, .governed (.uuid "u")), (0, .governed (.time "t1")),
    (0, .governed (.row 0)), (0, .governed .store), (1, allowed), (1, .store)]

/-- The approval goes on, up to the row and its event. -/
def promotionWrites : List (Fin 3 × Choice) :=
  [(1, .governed .store), (1, .governed (.time "t2")), (1, .governed .store),
    (1, .governed .store), (1, passed), (1, .time "t3"), (1, .uuid "v"), (1, .store), (1, .store),
    (1, .store)]

/-- The deprecation, from its first call to its last. -/
def deprecates : List (Fin 3 × Choice) :=
  [(2, allowed), (2, .store), (2, .time "t1"), (2, .uuid "w"), (2, .store), (2, .store),
    (2, .store)]

/-- What the last catalogue write makes of the state, and what the action it belongs to says the
state was. -/
structure LastWrite where
  before : Option ModelLifecycleState
  event : Option ModelLifecycleState
  pinned : Option (Option (Option String))
  deriving DecidableEq

/-- The last catalogue write. -/
def lastWrite (w : World (Fin 3)) : Option LastWrite :=
  w.log.entries.head?.map fun write =>
    { before := write.before.map (·.lifecycleState)
      event := write.cause.event?.map (·.toState)
      pinned := write.cause.governed?.map fun record => record.actionPayload.get? "from_state" }

theorem lastWrite_undisturbed :
    ((machine id (Fin 3)).schedule (CurrentBaseline id)
      (pool id promoteAndDeprecate evaluatedStores)
      (promotionReads ++ promotionWrites)).map (fun c => lastWrite c.store) =
      some (some ⟨some .evaluating, some .approved, some (some (some "EVALUATING"))⟩) := by
  decide +kernel

/-- The promotion alone is written over the row that was reviewed. -/
theorem reviewedBaselines_undisturbed : ∃ c,
    (machine id (Fin 3)).Reach (CurrentBaseline id) (pool id promoteAndDeprecate evaluatedStores)
      c ∧
    lastWrite c.store = some ⟨some .evaluating, some .approved, some (some (some "EVALUATING"))⟩ ∧
    ReviewedBaselines c.store.log := by
  obtain ⟨c, hrun, hlast⟩ := Option.map_eq_some_iff.mp lastWrite_undisturbed
  have hreach := Machine.reach_of_schedule hrun
  exact ⟨c, hreach, hlast, reviewedBaselines_of_current Function.injective_id hreach⟩

theorem lastWrite_deprecated :
    ((machine id (Fin 3)).schedule (fun _ _ _ => True) (pool id promoteAndDeprecate evaluatedStores)
      (promotionReads ++ deprecates ++ promotionWrites)).map (fun c => lastWrite c.store) =
      some (some ⟨some .deprecated, some .approved, some (some (some "EVALUATING"))⟩) := by
  decide +kernel

/-- The model is deprecated after the approval of its promotion has read its row: the promotion
is written over the deprecation, and the deprecated model is an approved one. -/
theorem deprecation_overwritten : ∃ c,
    (machine id (Fin 3)).Reach (fun _ _ _ => True) (pool id promoteAndDeprecate evaluatedStores) c ∧
    lastWrite c.store = some ⟨some .deprecated, some .approved, some (some (some "EVALUATING"))⟩ ∧
    ¬ ReviewedBaselines c.store.log := by
  obtain ⟨c, hrun, hlast⟩ := Option.map_eq_some_iff.mp lastWrite_deprecated
  refine ⟨c, Machine.reach_of_schedule hrun, hlast, fun hreviewed => ?_⟩
  obtain ⟨write, hwrite, hout⟩ := Option.map_eq_some_iff.mp hlast
  obtain ⟨hreplaced, hevent, hpayload⟩ := LastWrite.mk.inj hout
  obtain ⟨record, hrecord, hfrom⟩ := Option.map_eq_some_iff.mp hpayload
  obtain ⟨-, before, hbefore, hpinned⟩ :=
    hreviewed.catalogue write (List.mem_of_mem_head? hwrite) record hrecord
  rw [hbefore] at hreplaced
  have hstate : before.lifecycleState = .deprecated := Option.some.inj hreplaced
  -- the write has an event and an action, so it belongs to a promotion
  generalize write.cause = cause at hevent hrecord hpinned
  cases cause with
  | promotion record' event =>
    obtain rfl : record' = record := Option.some.inj hrecord
    rw [PinnedEntry, hstate, hfrom] at hpinned
    exact absurd hpinned (by decide +kernel)
  | restore => cases hevent
  | transition | degradation | seeding => cases hrecord

end Runs

end LotusAI.ControlPlane
