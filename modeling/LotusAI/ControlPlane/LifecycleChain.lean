import LotusAI.ControlPlane.Sessions
import Mathlib.Data.Fintype.Defs
import Mathlib.Data.List.Chain

/-!
# The lifecycle history of a model is a chain

Five operations write catalogue rows: a transition, a promotion, a degradation, a restore and a
seeding pass. Each reads a row, changes one aspect of it and writes the whole row back; a
transition and a promotion then append an event. Read and write are calls of their own, and so
are the two writes.

The recorded history stays a chain, and nothing that was recorded on a row is undone, in every
interleaving in which row writes are undisturbed: the row is still the one its operation has
read, no event is owed for it when a transition is written, and seeding leaves its state alone.
Where a row has changed since it was read, a whole-row write takes it back.
-/

namespace LotusAI.ControlPlane

open Lib Provider Catalogue Function List Option

/-! ### Histories -/

/-- The events of a row, oldest first, form a chain of allowed transitions. -/
structure RecordedHistory (history : List ModelLifecycleTransition) : Prop where
  chained : history.IsChain fun earlier later => earlier.toState = later.fromState
  edges : ∀ event ∈ history, event.toState ∈ allowedModelLifecycleTransitions event.fromState

/-- The row is in the state its last event has led to. -/
def Settled (stores : Stores) (entryId : String) : Prop :=
  ∀ last, (stores.history entryId).getLast? = some last →
    ∃ entry, stores.entries.get? entryId = some entry ∧ entry.lifecycleState = last.toState

/-- Every row has a recorded history and is settled. -/
def Coherent (stores : Stores) : Prop :=
  ∀ entryId, RecordedHistory (stores.history entryId) ∧ Settled stores entryId

/-- A write moves the state along the edge of its own event or not at all, and removes no
degradation but the one it restores. -/
structure RowKept (before after : ModelCatalogueEntry) (cause : EntryCause) : Prop where
  state : after.lifecycleState = before.lifecycleState ∨ ∃ event, cause.event? = some event ∧
    event.fromState = before.lifecycleState ∧ event.toState = after.lifecycleState ∧
    event.toState ∈ allowedModelLifecycleTransitions event.fromState
  degradations : ∀ dimension degradation,
    before.capabilityDegradations.get? dimension = some degradation →
      after.capabilityDegradations.get? dimension = some degradation ∨
        ∃ record, cause = .restore record dimension

variable {cause : EntryCause}

/-- No write leaves the retired state. -/
theorem RowKept.retired {before after : ModelCatalogueEntry}
    (h : RowKept before after cause) (hretired : before.lifecycleState = .retired) :
    after.lifecycleState = .retired := by
  obtain hstate | ⟨event, -, hfrom, -, hedge⟩ := h.state
  · exact hstate.trans hretired
  · rw [hfrom, hretired] at hedge
    cases hedge

/-! ### What a write does to the row it has read -/

section Rows

variable {sha256 : String → String} {readings : List Reading} {row : ModelCatalogueEntry}

/-- The row a write is derived from, if there was one: a transition and a promotion follow
their event, and nothing else moves the state, a change of the seeding authority apart. -/
inductive Derived (row : ModelCatalogueEntry) (cause : EntryCause) :
    Option ModelCatalogueEntry → Prop
  | created (hevent : cause.event? = none) : Derived row cause none
  | moved (baseline : ModelCatalogueEntry) (event : ModelLifecycleTransition)
      (hevent : cause.event? = some event) (hentry : event.entryId = row.entryId)
      (hfrom : event.fromState = baseline.lifecycleState)
      (hto : event.toState = row.lifecycleState)
      (hedge : event.toState ∈ allowedModelLifecycleTransitions event.fromState)
      (hkept : row.capabilityDegradations = baseline.capabilityDegradations) :
      Derived row cause (some baseline)
  | changed (baseline : ModelCatalogueEntry) (hevent : cause.event? = none)
      (hstate : cause ≠ .seeding → row.lifecycleState = baseline.lifecycleState)
      (hkept : ∀ dimension degradation,
        baseline.capabilityDegradations.get? dimension = some degradation →
          row.capabilityDegradations.get? dimension = some degradation ∨
            ∃ record, cause = .restore record dimension) :
      Derived row cause (some baseline)

/-- Seeding keeps the degradations of the row it is laid over. -/
theorem degradations_seedOver (seed existing : ModelCatalogueEntry) (dimension : String)
    (degradation : CapabilityDegradation)
    (h : existing.capabilityDegradations.get? dimension = some degradation) :
    (seedOver seed existing).capabilityDegradations.get? dimension = some degradation := by
  change (if existing.capabilityDegradations.entries ≠ [] then existing.capabilityDegradations
    else seed.capabilityDegradations).get? dimension = some degradation
  have hentries : existing.capabilityDegradations.entries ≠ [] := by
    intro hnil
    have hmem := Dict.get?_eq_some_iff.mp h
    rw [hnil] at hmem
    cases hmem
  rw [if_pos hentries]
  exact h

theorem derived_of_reconcile {seed : ModelCatalogueEntry} {found : Option ModelCatalogueEntry}
    (h : reconcile sha256 seed found = .create ∧ row = seed ∨
      reconcile sha256 seed found = .update row) : Derived row .seeding found := by
  cases found with
  | none => exact .created rfl
  | some existing =>
    unfold reconcile at h
    dsimp only at h
    split_ifs at h with hcandidate hsame
    · obtain ⟨h, -⟩ | h := h <;> cases h
    · obtain ⟨h, -⟩ | h := h <;> cases h
    · obtain ⟨h, -⟩ | h := h
      · cases h
      · cases h
        exact .changed existing rfl (fun h => absurd rfl h) fun dimension degradation hbefore =>
          .inl (degradations_seedOver seed existing dimension degradation hbefore)

/-- An honest row is derived from a row that was read under its key. -/
theorem derived_of_honest (h : HonestEntry sha256 readings row cause) :
    ∃ found, Reading.entry row.entryId found ∈ readings ∧ Derived row cause found := by
  cases cause with
  | transition event =>
    obtain ⟨baseline, toState, reason, requestedBy, hex, now, hread, hstep⟩ := h
    obtain ⟨-, hedge, hout⟩ := transitionStep_eq_ok.mp hstep
    cases hout
    exact ⟨some baseline, hread, .moved baseline _ rfl rfl rfl rfl hedge rfl⟩
  | promotion record event =>
    obtain ⟨baseline, toState, runId, run, reason, requestedBy, approvedBy, hex, now, hread,
      hstep, -⟩ := h
    obtain ⟨hedge, -, hout⟩ := promotionStep_eq_ok.mp hstep
    cases hout
    exact ⟨some baseline, hread, .moved baseline _ rfl rfl rfl rfl hedge rfl⟩
  | degradation dimension =>
    obtain ⟨baseline, reason, degradedBy, now, hread, hstep⟩ := h
    obtain ⟨-, habsent, hrow⟩ := degradationStep_eq_ok.mp hstep
    refine ⟨some baseline, hread, .changed baseline rfl (fun _ => hrow ▸ rfl) ?_⟩
    intro other degradation hbefore
    -- the degraded dimension was free, so another one is looked up
    have hne : other ≠ dimension := by
      rintro rfl
      cases habsent.symm.trans hbefore
    rw [← hrow]
    exact .inl ((Dict.get?_insert_of_ne _ hne _).trans hbefore)
  | restore record dimension =>
    obtain ⟨baseline, degradation, runId, run, reason, now, hread, -, hstep, -⟩ := h
    obtain ⟨-, hrow⟩ := restoreStep_eq_ok.mp hstep
    refine ⟨some baseline, hread, .changed baseline rfl (fun _ => hrow ▸ rfl) ?_⟩
    intro other degradation' hbefore
    by_cases hother : other = dimension
    · exact .inr ⟨record, by rw [hother]⟩
    · rw [← hrow]
      exact .inl ((Dict.get?_erase_of_ne _ hother).trans hbefore)
  | seeding =>
    obtain ⟨seed, found, hread, hverdict⟩ := h
    exact ⟨found, hread, derived_of_reconcile hverdict⟩

end Rows

/-! ### The condition -/

section Chain

variable {sha256 : String → String} {ι : Type} [DecidableEq ι]

/-- A row is written where it is as its operation has read it; a transition, where no event is
owed for the row; seeding, where it leaves the state as it is. -/
def UndisturbedWrite (i : ι) (w : World ι) : Call → Prop
  | .upsertEntry row cause =>
    (∀ found ∈ (w.notes i).readings.filterMap (Reading.entry? row.entryId),
      w.stores.entries.get? row.entryId = found) ∧
    (cause.event?.isSome → ∀ j, ∀ event ∈ (w.notes j).pending, event.entryId ≠ row.entryId) ∧
    (cause = .seeding → ∀ stored ∈ w.stores.entries.get? row.entryId,
      row.lifecycleState = stored.lifecycleState)
  | _ => True

instance [Fintype ι] (i : ι) (w : World ι) (call : Call) :
    Decidable (UndisturbedWrite i w call) :=
  match call with
  | .upsertEntry _ _ => inferInstanceAs (Decidable (_ ∧ _ ∧ _))
  | .governed _ | .authorizeRequest _ _ _ | .utcNowIso | .uuidHex | .promptApprovalGate
  | .getRun _ | .getActivation _ | .listActivations | .upsertActivation _ _
  | .getPromptRolloutState _ | .getPromptVersion _ _ | .savePromptRolloutTransition _ _
  | .getEntry _ | .getEntryByCandidateId _ | .appendLifecycleEvent _
  | .getCurrentServingPolicy | .saveServingPolicyVersion _ _ => isTrue trivial

variable {cause : EntryCause} {event : ModelLifecycleTransition} {row : ModelCatalogueEntry}

omit [DecidableEq ι] in
/-- The row that is written was derived from the row that it replaces. -/
theorem UndisturbedWrite.derived {i : ι} {w : World ι}
    (h : UndisturbedWrite i w (.upsertEntry row cause))
    (hentry : HonestEntry sha256 (w.notes i).readings row cause) :
    Derived row cause (w.stores.entries.get? row.entryId) := by
  obtain ⟨found, hread, hderived⟩ := derived_of_honest hentry
  have hfound : found ∈ (w.notes i).readings.filterMap (Reading.entry? row.entryId) :=
    mem_filterMap.mpr ⟨_, hread, if_pos rfl⟩
  rw [h.1 found hfound]
  exact hderived

/-! ### The invariant -/

/-- An event that is still to be appended continues the history, and the row is already in the
state it leads to. -/
structure Owed (stores : Stores) (event : ModelLifecycleTransition) : Prop where
  edge : event.toState ∈ allowedModelLifecycleTransitions event.fromState
  continues : ∀ last, (stores.history event.entryId).getLast? = some last →
    last.toState = event.fromState
  reached : ∃ entry, stores.entries.get? event.entryId = some entry ∧
    entry.lifecycleState = event.toState

/-- What undisturbed writes keep. -/
structure ChainInvariant (w : World ι) : Prop where
  recorded : ∀ entryId, RecordedHistory (w.stores.history entryId)
  settled : ∀ entryId, (∀ i event, (w.notes i).pending = some event →
    event.entryId ≠ entryId) → Settled w.stores entryId
  owed : ∀ i event, (w.notes i).pending = some event → Owed w.stores event
  single : ∀ i j event event', (w.notes i).pending = some event →
    (w.notes j).pending = some event' → event.entryId = event'.entryId → i = j
  kept : ∀ write ∈ w.log.entries, ∀ before, write.before = some before →
    RowKept before write.after write.cause

variable {w w' : World ι} {i : ι}

omit [DecidableEq ι] in
/-- Nothing that the invariant is about has changed. -/
theorem ChainInvariant.frame (h : ChainInvariant w)
    (hentries : w'.stores.entries = w.stores.entries)
    (hevents : w'.stores.lifecycleEvents = w.stores.lifecycleEvents)
    (hpending : ∀ j, (w'.notes j).pending = (w.notes j).pending)
    (hlog : w'.log.entries = w.log.entries) : ChainInvariant w' := by
  have hhistory : ∀ entryId, w'.stores.history entryId = w.stores.history entryId :=
    fun entryId => by rw [Stores.history, hevents, Stores.history]
  refine ⟨fun entryId => ?_, fun entryId hnone => ?_, fun j event hj => ?_, ?_, ?_⟩
  · rw [hhistory]
    exact h.recorded entryId
  · unfold Settled
    rw [hhistory, hentries]
    exact h.settled entryId fun j event hj => hnone j event ((hpending j).trans hj)
  · have howed := h.owed j event ((hpending j).symm.trans hj)
    refine ⟨howed.edge, ?_, ?_⟩
    · rw [hhistory]
      exact howed.continues
    · rw [hentries]
      exact howed.reached
  · intro j k event event' hj hk
    exact h.single j k event event' ((hpending j).symm.trans hj) ((hpending k).symm.trans hk)
  · rw [hlog]
    exact h.kept

/-- A reading owes nothing and changes no row. -/
theorem ChainInvariant.note (h : ChainInvariant w) (reading : Reading) :
    ChainInvariant (w.note i reading) := by
  refine h.frame rfl rfl (fun j => ?_) rfl
  change (update w.notes i _ j).pending = _
  by_cases hj : j = i
  · rw [hj, update_self]
    rfl
  · rw [update_of_ne hj]

theorem pending_writeEntry (j : ι) :
    ((w.writeEntry i row cause).notes j).pending =
      if j = i then cause.event? else (w.notes j).pending := by
  change (update w.notes i _ j).pending = _
  by_cases hj : j = i
  · rw [if_pos hj, hj, update_self]
  · rw [if_neg hj, update_of_ne hj]

/-- What a derived row keeps of the row it replaces. -/
theorem Derived.rowKept {before : ModelCatalogueEntry} (h : Derived row cause (some before))
    (hseeding : cause = .seeding → row.lifecycleState = before.lifecycleState) :
    RowKept before row cause := by
  cases h with
  | moved _ event hevent hentry hfrom hto hedge hkept =>
    refine ⟨.inr ⟨event, hevent, hfrom, hto, hedge⟩, fun dimension degradation hbefore => ?_⟩
    rw [hkept]
    exact .inl hbefore
  | changed _ hevent hstate hkept =>
    refine ⟨.inl ?_, hkept⟩
    by_cases hcause : cause = .seeding
    · exact hseeding hcause
    · exact hstate hcause

/-- An undisturbed row write keeps the invariant: with an event, it is owed from now on; without
one, the state stays. -/
theorem ChainInvariant.upsertEntry (h : ChainInvariant w)
    (hquiet : (w.notes i).pending = none)
    (hentry : HonestEntry sha256 (w.notes i).readings row cause)
    (hok : UndisturbedWrite i w (.upsertEntry row cause)) :
    ChainInvariant (w.writeEntry i row cause) := by
  have hderived := hok.derived hentry
  have hget (entryId : String) : (w.writeEntry i row cause).stores.entries.get? entryId =
      if entryId = row.entryId then some row else w.stores.entries.get? entryId :=
    Table.get?_upsert ..
  -- rows under other keys are settled as before
  have hothers : ∀ j event, j ≠ i → (w.notes j).pending = some event →
      ((w.writeEntry i row cause).notes j).pending = some event := by
    intro j event hj hpending
    rw [pending_writeEntry, if_neg hj, hpending]
  have hnone : ∀ entryId, (∀ j event, ((w.writeEntry i row cause).notes j).pending = some event →
      event.entryId ≠ entryId) → ∀ j event, (w.notes j).pending = some event →
        event.entryId ≠ entryId := by
    intro entryId hclear j event hpending
    by_cases hj : j = i
    · subst hj
      cases hquiet.symm.trans hpending
    · exact hclear j event (hothers j event hj hpending)
  have hkept : ∀ write ∈ (w.writeEntry i row cause).log.entries, ∀ before,
      write.before = some before → RowKept before write.after write.cause := by
    intro write hwrite before hbefore
    rcases mem_cons.mp hwrite with rfl | hold
    · change w.stores.entries.get? row.entryId = some before at hbefore
      rw [hbefore] at hderived
      exact hderived.rowKept fun hseeding => hok.2.2 hseeding before hbefore
    · exact h.kept write hold before hbefore
  cases hevent : cause.event? with
  | some event =>
    obtain ⟨baseline, hstored, hentryId, hfrom, hto, hedge⟩ : ∃ baseline,
        w.stores.entries.get? row.entryId = some baseline ∧ event.entryId = row.entryId ∧
        event.fromState = baseline.lifecycleState ∧ event.toState = row.lifecycleState ∧
        event.toState ∈ allowedModelLifecycleTransitions event.fromState := by
      generalize hstored : w.stores.entries.get? row.entryId = stored at hderived
      cases hderived with
      | created hnone => cases hevent.symm.trans hnone
      | moved baseline event' hevent' hentryId hfrom hto hedge hkept =>
        obtain rfl := mem_unique hevent hevent'
        exact ⟨baseline, rfl, hentryId, hfrom, hto, hedge⟩
      | changed baseline hnone => cases hevent.symm.trans hnone
    -- nobody owes an event for this row, so its history ends in the state that was read
    have hclear : ∀ j event', (w.notes j).pending = some event' → event'.entryId ≠ row.entryId :=
      fun j event' hj => hok.2.1 (by rw [hevent]; rfl) j event' hj
    have hsettled := h.settled row.entryId hclear
    have hpending : ∀ j event', ((w.writeEntry i row cause).notes j).pending = some event' →
        j = i ∧ event' = event ∨ (w.notes j).pending = some event' := by
      intro j event' hj
      rw [pending_writeEntry] at hj
      split_ifs at hj with hji
      · exact .inl ⟨hji, mem_unique hj hevent⟩
      · exact .inr hj
    refine ⟨h.recorded, fun entryId hclear' => ?_, fun j event' hj => ?_, ?_, hkept⟩
    · have hne : entryId ≠ row.entryId := by
        rintro rfl
        refine hclear' i event ?_ hentryId
        rw [pending_writeEntry, if_pos rfl, hevent]
      intro last hlast
      rw [hget, if_neg hne]
      exact h.settled entryId (hnone entryId hclear') last hlast
    · obtain ⟨rfl, rfl⟩ | hj' := hpending j event' hj
      · refine ⟨hedge, fun last hlast => ?_, row, ?_, hto.symm⟩
        · rw [hentryId] at hlast
          obtain ⟨entry, hentry', hstate⟩ := hsettled last hlast
          rw [hstored] at hentry'
          rw [hfrom, some.inj hentry', hstate]
        · rw [hget, if_pos hentryId]
      · have howed := h.owed j event' hj'
        refine ⟨howed.edge, howed.continues, ?_⟩
        rw [hget, if_neg (hclear j event' hj')]
        exact howed.reached
    · intro j k event₁ event₂ hj hk hsame
      obtain ⟨rfl, rfl⟩ | hj' := hpending j event₁ hj
      · obtain ⟨rfl, -⟩ | hk' := hpending k event₂ hk
        · rfl
        · exact absurd (hsame.symm.trans hentryId) (hclear k event₂ hk')
      · obtain ⟨rfl, rfl⟩ | hk' := hpending k event₂ hk
        · exact absurd (hsame.trans hentryId) (hclear j event₁ hj')
        · exact h.single j k event₁ event₂ hj' hk' hsame
  | none =>
    have hpending : ∀ j, ((w.writeEntry i row cause).notes j).pending = (w.notes j).pending := by
      intro j
      rw [pending_writeEntry]
      split_ifs with hj
      · rw [hevent, hj, hquiet]
      · rfl
    -- a row that was there keeps its state
    have hstate : ∀ stored, w.stores.entries.get? row.entryId = some stored →
        row.lifecycleState = stored.lifecycleState := by
      intro stored hstored
      rw [hstored] at hderived
      have hrow := hderived.rowKept fun hseeding => hok.2.2 hseeding stored hstored
      obtain hsame | ⟨event, hsome, -⟩ := hrow.state
      · exact hsame
      · cases hevent.symm.trans hsome
    have hreached : ∀ entryId (P : ModelLifecycleState → Prop),
        (∃ entry, w.stores.entries.get? entryId = some entry ∧ P entry.lifecycleState) →
        ∃ entry, (w.writeEntry i row cause).stores.entries.get? entryId = some entry ∧
          P entry.lifecycleState := by
      intro entryId P hfound
      obtain ⟨entry, hentry', hP⟩ := hfound
      rw [hget]
      split_ifs with hkey
      · subst hkey
        exact ⟨row, rfl, hstate entry hentry' ▸ hP⟩
      · exact ⟨entry, hentry', hP⟩
    refine ⟨h.recorded, fun entryId hclear last hlast => ?_, fun j event hj => ?_, ?_, hkept⟩
    · exact hreached entryId (· = last.toState)
        (h.settled entryId (hnone entryId hclear) last hlast)
    · have howed := h.owed j event ((hpending j).symm.trans hj)
      exact ⟨howed.edge, howed.continues, hreached event.entryId (· = event.toState) howed.reached⟩
    · intro j k event event' hj hk
      exact h.single j k event event' ((hpending j).symm.trans hj) ((hpending k).symm.trans hk)

/-! ### The event -/

theorem history_appendEvent (w : World ι) (i : ι) (event : ModelLifecycleTransition)
    (entryId : String) : (w.appendEvent i event).stores.history entryId =
      w.stores.history entryId ++ if event.entryId = entryId then [event] else [] := by
  change (w.stores.lifecycleEvents ++ [event]).filter (·.entryId = entryId) = _
  rw [filter_append]
  congr 1
  by_cases h : event.entryId = entryId <;> simp [h]

theorem pending_appendEvent (j : ι) :
    ((w.appendEvent i event).notes j).pending =
      if j = i then none else (w.notes j).pending := by
  change (update w.notes i _ j).pending = _
  by_cases hj : j = i
  · rw [if_pos hj, hj, update_self]
  · rw [if_neg hj, update_of_ne hj]

/-- The owed event continues the history of its row. -/
theorem RecordedHistory.append {history : List ModelLifecycleTransition}
    (h : RecordedHistory history)
    (hedge : event.toState ∈ allowedModelLifecycleTransitions event.fromState)
    (hcontinues : ∀ last, history.getLast? = some last → last.toState = event.fromState) :
    RecordedHistory (history ++ [event]) := by
  refine ⟨isChain_append.mpr ⟨h.chained, isChain_singleton _, ?_⟩, ?_⟩
  · intro last hlast next hnext
    obtain rfl : event = next := some.inj hnext
    exact hcontinues last hlast
  · intro other hother
    rcases mem_append.mp hother with hold | hnew
    · exact h.edges other hold
    · rw [mem_singleton.mp hnew]
      exact hedge

/-- The append pays what is owed. -/
theorem ChainInvariant.appendLifecycleEvent (h : ChainInvariant w)
    (howes : (w.notes i).pending = some event) : ChainInvariant (w.appendEvent i event) := by
  have howed := h.owed i event howes
  have hpending : ∀ j event', ((w.appendEvent i event).notes j).pending = some event' →
      j ≠ i ∧ (w.notes j).pending = some event' := by
    intro j event' hj
    rw [pending_appendEvent] at hj
    split_ifs at hj with hji
    exact ⟨hji, hj⟩
  -- the others owe events of other rows
  have hother : ∀ j event', ((w.appendEvent i event).notes j).pending = some event' →
      event.entryId ≠ event'.entryId := by
    intro j event' hj hsame
    obtain ⟨hji, hj'⟩ := hpending j event' hj
    exact hji (h.single i j event event' howes hj' hsame).symm
  refine ⟨fun entryId => ?_, fun entryId hclear last hlast => ?_, fun j event' hj => ?_, ?_, h.kept⟩
  · rw [history_appendEvent]
    split_ifs with hkey
    · subst hkey
      exact (h.recorded _).append howed.edge howed.continues
    · rw [append_nil]
      exact h.recorded entryId
  · rw [history_appendEvent] at hlast
    split_ifs at hlast with hkey
    · subst hkey
      rw [getLast?_concat] at hlast
      rw [← some.inj hlast]
      exact howed.reached
    · rw [append_nil] at hlast
      refine h.settled entryId (fun j event' hj => ?_) last hlast
      by_cases hji : j = i
      · subst hji
        rw [← mem_unique howes hj]
        exact hkey
      · apply hclear j event'
        rw [pending_appendEvent, if_neg hji]
        exact hj
  · have howed' := h.owed j event' (hpending j event' hj).2
    refine ⟨howed'.edge, ?_, howed'.reached⟩
    rw [history_appendEvent, if_neg (hother j event' hj), append_nil]
    exact howed'.continues
  · intro j k event₁ event₂ hj hk
    exact h.single j k event₁ event₂ (hpending j event₁ hj).2 (hpending k event₂ hk).2

/-! ### Interleavings -/

/-- Every honest call keeps the invariant where row writes are undisturbed. -/
theorem ChainInvariant.step {call : Call} {r : call.Answer} (h : ChainInvariant w)
    (hcall : Honest sha256 (w.notes i) call) (hok : UndisturbedWrite i w call)
    (hout : call.Outcome sha256 i w w' r) : ChainInvariant w' := by
  cases call with
  | upsertEntry row cause =>
    obtain rfl := hout
    exact h.upsertEntry hcall.1 hcall.2 hok
  | appendLifecycleEvent event =>
    obtain rfl := hout
    exact h.appendLifecycleEvent hcall
  | governed call =>
    obtain ⟨governance, -, rfl⟩ := hout
    exact h.frame rfl rfl (fun _ => rfl) rfl
  | upsertActivation activation cause =>
    obtain rfl := hout
    exact h.frame rfl rfl (fun _ => rfl) rfl
  | savePromptRolloutTransition transition cause =>
    obtain rfl | ⟨prompts, -, rfl⟩ := hout
    · exact h
    · exact h.frame rfl rfl (fun _ => rfl) rfl
  | saveServingPolicyVersion record cause =>
    obtain rfl | ⟨-, rfl⟩ := hout
    · exact h
    · exact h.frame rfl rfl (fun _ => rfl) rfl
  | authorizeRequest _ _ _ | utcNowIso | uuidHex | promptApprovalGate | getRun _
  | listActivations =>
    obtain rfl := hout
    exact h
  | getActivation _ | getPromptRolloutState _ | getPromptVersion _ _ | getEntry _
  | getEntryByCandidateId | getCurrentServingPolicy =>
    obtain ⟨-, rfl⟩ := hout
    exact h.note _

/-- The next call of the program appends this event. -/
def AppendsNext {α : Type} (event : ModelLifecycleTransition) (program : Prog Call.Answer α) :
    Prop :=
  ∃ k, program = .call (.appendLifecycleEvent event) k

/-- What holds of a pool: histories are chains of allowed edges, a row is in the state its last
event has led to unless its next event is about to be appended, and no write has undone what
was recorded on a row. -/
structure LifecycleChain {α : Type} (c : Machine.Config Call.Answer ι (World ι) α) : Prop where
  recorded : ∀ entryId, RecordedHistory (c.store.stores.history entryId)
  settled : ∀ entryId, (∀ i event, AppendsNext event (c.threads i) → event.entryId ≠ entryId) →
    Settled c.store.stores entryId
  kept : ∀ write ∈ c.store.log.entries, ∀ before, write.before = some before →
    RowKept before write.after write.cause

/-- An operation that owes an event appends it next. -/
theorem appendsNext_of_pending {α : Type} {program : Prog Call.Answer α} {notes : Notes}
    (hwp : (control sha256 ι).wp i program (fun _ notes => notes.pending = none) notes)
    (howes : notes.pending = some event) : AppendsNext event program := by
  cases program with
  | pure => cases howes.symm.trans hwp
  | call call k =>
    have hcall : Honest sha256 notes call := hwp.1
    cases call with
    | appendLifecycleEvent other =>
      obtain rfl : event = other := mem_unique howes hcall
      exact ⟨k, rfl⟩
    | governed _ | upsertActivation _ _ | savePromptRolloutTransition _ _ | upsertEntry _ _
    | saveServingPolicyVersion => cases howes.symm.trans hcall.1
    | authorizeRequest _ _ _ | utcNowIso | uuidHex | promptApprovalGate | getRun _
    | listActivations | getActivation _ | getPromptRolloutState _ | getPromptVersion _ _
    | getEntry | getEntryByCandidateId | getCurrentServingPolicy =>
      cases howes.symm.trans hcall

end Chain

/-! ### Runs -/

section Runs

/-- A deprecated model without a recorded history. -/
def deprecatedModel : ModelCatalogueEntry :=
  { settingsSeedEntry "openai" "a" "m" none "t0" with lifecycleState := .deprecated }

/-- The catalogue holds the deprecated model. -/
def deprecatedStores : Stores where
  activations := .empty
  prompts := ⟨.empty, .empty, []⟩
  entries := .ofList [deprecatedModel]
  lifecycleEvents := []
  policies := .empty

/-- All stores are durable. -/
def durableSettings : ControlSettings :=
  ⟨"sqlalchemy", "sqlalchemy", "sqlalchemy", "sqlalchemy",
    ⟨"openai", some "a", some "m", none, none, none, none, none⟩⟩

/-- One operator degrades a capability of the model, another one retires the model. -/
def degradeAndRetire : Bool → Session
  | false => .degrade durableSettings ⟨"ops", "signed_credential", some "k1"⟩ "a:m"
      "supports_tool_calling" "r"
  | true => .lifecycleTransition durableSettings ⟨"ops", "signed_credential", some "k2"⟩ "a:m"
      .retired "r"

/-- The operator is allowed to. -/
def allowed : Choice := .authorization ⟨"ops", true, "ok"⟩

/-- The degradation reads the row. -/
def degradeReads : List (Bool × Choice) := [(false, allowed), (false, .store)]

/-- The degradation writes the row. -/
def degradeWrites : List (Bool × Choice) :=
  [(false, .time "t2"), (false, .store), (false, .store)]

/-- The retirement, from its first call to its last. -/
def retires : List (Bool × Choice) :=
  [(true, allowed), (true, .store), (true, .time "t1"), (true, .uuid "u"), (true, .store),
    (true, .store), (true, .store)]

/-- The state of the model, the states its events have led to, and what the last write made of
the state. -/
def modelStates (w : World Bool) : Option ModelLifecycleState × List ModelLifecycleState ×
    Option (Option ModelLifecycleState × ModelLifecycleState) :=
  ((w.stores.entries.get? "a:m").map (·.lifecycleState),
    (w.stores.history "a:m").map (·.toState),
    w.log.entries.head?.map fun write =>
      (write.before.map (·.lifecycleState), write.after.lifecycleState))

theorem coherent_deprecatedStores : Coherent deprecatedStores := by
  intro entryId
  have hnone : deprecatedStores.history entryId = [] := rfl
  rw [Settled, hnone]
  exact ⟨⟨.nil, by simp⟩, by simp⟩

theorem modelStates_degrade_then_retire :
    ((machine id Bool).schedule UndisturbedWrite (pool id degradeAndRetire deprecatedStores)
      (degradeReads ++ degradeWrites ++ retires)).map (fun c => modelStates c.store) =
      some (some .retired, [.retired], some (some .deprecated, .retired)) := by
  decide +kernel

theorem modelStates_retire_within_degrade :
    ((machine id Bool).schedule (fun _ _ _ => True) (pool id degradeAndRetire deprecatedStores)
      (degradeReads ++ retires ++ degradeWrites)).map (fun c => modelStates c.store) =
      some (some .deprecated, [.retired], some (some .retired, .deprecated)) := by
  decide +kernel

end Runs

end LotusAI.ControlPlane
