import LotusAI.Lifecycle.TenantErasure

/-!
# Receipts over several passes

An erasure that is interrupted is resumed, and its callback then runs once more over all families.
What an earlier pass has deleted is known to a later one through the event of the family alone,
which is written after the deletions. A later pass takes the larger of the count in that event
and its own. So deletions whose event was not written are forgotten, and deletions of two passes
are not added.
-/

namespace LotusAI.Lifecycle

open Lib Stepwise Environment List Table

open Environment (eventCount)

/-- The rows of a family that are gone. -/
def removed (before after : DataStores) (executor : ErasureExecutor) : ℕ :=
  familyRows before executor - familyRows after executor

/-! ### Events -/

section Events

variable (env : Environment) (actionId : String) (executor : ErasureExecutor) (s : DataStores)

/-- The events of different families of an action have different identifiers. -/
def DistinctEvents : Prop :=
  ∀ executor other : ErasureExecutor,
    env.familyErasureEventId actionId executor.familyId =
      env.familyErasureEventId actionId other.familyId → executor = other

/-- The event of a family is among those that are listed. -/
def EventListed : Prop :=
  ∀ event, env.storedEvent actionId executor s = some event →
    env.priorEvent actionId executor.familyId s = some event

variable {env actionId executor s}

theorem storedEvent_of_priorEvent {event : DataLifecycleEvent}
    (h : env.priorEvent actionId executor.familyId s = some event) :
    env.storedEvent actionId executor s = some event := by
  have hid : event.eventId = env.familyErasureEventId actionId executor.familyId := by
    simpa using find?_some h
  have hlisted := mem_of_mem_take (mem_of_find?_eq_some h)
  have hrow : event ∈ s.tables .lifecycleEvents :=
    mem_list.mp (((env.listing .lifecycleEvents).perm _).mem_iff.mp hlisted)
  rw [storedEvent, ← hid]
  exact hrow

/-- A pass sees what is stored, if it is listed. -/
theorem priorEvent_eq_storedEvent (h : EventListed env actionId executor s) :
    env.priorEvent actionId executor.familyId s = env.storedEvent actionId executor s := by
  cases hstored : env.storedEvent actionId executor s with
  | some event => exact h event hstored
  | none =>
    cases hprior : env.priorEvent actionId executor.familyId s with
    | none => rfl
    | some event => cases hstored.symm.trans (storedEvent_of_priorEvent hprior)

/-- As long as there are no more than ten thousand events, every one is listed. -/
theorem eventListed_of_length_le (h : (s.tables .lifecycleEvents).list.length ≤ 10000) :
    EventListed env actionId executor s := by
  intro event hevent
  have hid : event.eventId = env.familyErasureEventId actionId executor.familyId :=
    key_of_get? hevent
  have hrow : event ∈ (s.tables .lifecycleEvents).list := by
    rw [mem_list, mem_iff]
    exact (congrArg _ hid).trans hevent
  have hperm := (env.listing .lifecycleEvents).perm (s.tables .lifecycleEvents).list
  have hlisted : event ∈ env.listLifecycleEvents s := by
    rw [listLifecycleEvents, take_of_length_le (hperm.length_eq.trans_le h)]
    exact hperm.mem_iff.mpr hrow
  -- some event under the identifier is found, and it is the stored one
  obtain ⟨found, hfound⟩ : ∃ found, env.priorEvent actionId executor.familyId s = some found :=
    Option.isSome_iff_exists.mp (find?_isSome.mpr ⟨event, hlisted, by simpa using hid⟩)
  have hsame := (storedEvent_of_priorEvent hfound).symm.trans hevent
  rw [← Option.some.inj hsame]
  exact hfound

theorem storedEvent_saveLifecycleEvent (event : DataLifecycleEvent) :
    env.storedEvent actionId executor (s.saveLifecycleEvent event) =
      if env.familyErasureEventId actionId executor.familyId = event.eventId then some event
      else env.storedEvent actionId executor s := by
  rw [storedEvent, DataStores.saveLifecycleEvent, DataStores.tables_put,
    get?_upsert]
  rfl

variable (env actionId) in
theorem unseen_storedEvent (executor other : ErasureExecutor) :
    Unseen other (env.storedEvent actionId executor) where
  tables t ht s ids := by
    simp only [storedEvent, (unseen_lifecycleEvents other).tables t ht s ids]
  runtime _ _ _ := rfl
  artifacts _ _ _ := rfl

end Events

/-! ### One pass -/

section Pass

variable {env : Environment} {adapter : Budget.Adapter} {policyVersion : String}
  {pass : ErasurePass} {executor : ErasureExecutor} {s : DataStores}

/-- How far a pass from `before` is with a family: its event is as it was, or the family is purged
and the event has the larger of the two counts. -/
def Progress (env : Environment) (actionId : String) (executor : ErasureExecutor)
    (before after : DataStores) : Prop :=
  env.storedEvent actionId executor after = env.storedEvent actionId executor before ∨
    ∃ erased event, familyRows after executor + erased = familyRows before executor ∧
      env.storedEvent actionId executor after = some event ∧
      event.rowCount = max erased (eventCount (env.storedEvent actionId executor before))

/-- A round begins by looking for holds. -/
theorem mem_visited_eraseFamily (familyId : String) :
    s ∈ (env.eraseFamily adapter policyVersion pass familyId s).visited := by
  exact .head _

variable {familyId : String} {mid : DataStores} {es : List ErasureExecutor} {rest : List String}

/-- The event is written, or not. -/
theorem mem_stops_recordErasure {erased : ℕ}
    (h : mid ∈ (env.recordErasure adapter policyVersion pass familyId erased).stops s) :
    mid = s ∨
      mid = s.saveLifecycleEvent (env.erasureEvent policyVersion pass familyId erased) := by
  unfold recordErasure saveLifecycleEvent at h
  split_ifs at h with hzero
  · exact .inl (mem_singleton.mp h)
  · simp only [stops, call, cons_append, nil_append, mem_cons, not_mem_nil,
      or_false] at h
    split_ifs at h with hrefused
    · exact .inl (h.elim id id)
    · exact h

/-- Its own round. -/
theorem progress_eraseFamily (hlisted : EventListed env pass.record.actionId executor s)
    (hmid : mid ∈ (env.eraseFamily adapter policyVersion pass executor.familyId).stops s) :
    Progress env pass.record.actionId executor s mid := by
  have hunseen := unseen_storedEvent env pass.record.actionId executor executor
  by_cases hheld : pass.tenantId ∈ s.heldTenants executor.familyId
  · rw [stops, eraseFamily_of_held _ _ _ _ _ _ hheld] at hmid
    obtain rfl : mid = s := by simpa using hmid
    exact .inl rfl
  · rw [stops, eraseFamily_of_not_held policyVersion hheld] at hmid
    simp only [cons_append, append_assoc, mem_cons, mem_append] at hmid
    have hpurge := hunseen.purge env pass.tenantId s
    rcases hmid with rfl | hmid | rfl | hmid
    · exact .inl rfl
    · -- while the executor is at work the event stays
      exact .inl (env.keeps_erase pass.tenantId hunseen s mid (mem_append_left _ hmid))
    · exact .inl hpurge
    · have hrecorded : mid ∈ (env.recordErasure adapter policyVersion pass executor.familyId
          (env.reported pass executor s)).stops (purge pass.tenantId executor s) := by
        simpa [stops] using hmid
      rcases mem_stops_recordErasure hrecorded with rfl | rfl
      · exact .inl hpurge
      · refine .inr ⟨erasedRows pass.tenantId executor s, _, ?_,
          (storedEvent_saveLifecycleEvent _).trans (if_pos rfl), ?_⟩
        · rw [familyRows_saveLifecycleEvent]
          exact env.familyRows_purge pass.tenantId executor s
        · rw [← priorEvent_eq_storedEvent hlisted]
          rfl

/-- The rounds of other families leave the event of a family, and its rows. -/
theorem keeps_eraseFamily_of_ne (hdistinct : DistinctEvents env pass.record.actionId)
    {other : ErasureExecutor} (hne : other ≠ executor) :
    (env.eraseFamily adapter policyVersion pass other.familyId).Keeps fun s =>
      (env.storedEvent pass.record.actionId executor s, familyRows s executor) := by
  refine ((unseen_storedEvent env pass.record.actionId executor other).prod
    (unseen_familyRows hne)).keeps_eraseFamily fun s event hid => ?_
  have hother : env.familyErasureEventId pass.record.actionId executor.familyId ≠ event.eventId :=
    fun hsame => hne (hdistinct other executor (hid.symm.trans hsame.symm))
  rw [storedEvent_saveLifecycleEvent, if_neg hother, familyRows_saveLifecycleEvent]

theorem keeps_eraseFamilies_of_notMem (hdistinct : DistinctEvents env pass.record.actionId)
    (hnot : executor ∉ es) :
    (env.eraseFamilies adapter policyVersion pass (es.map (·.familyId))).Keeps fun s =>
      (env.storedEvent pass.record.actionId executor s, familyRows s executor) :=
  keeps_rounds fun _ hmem => keeps_eraseFamily_of_ne hdistinct fun hsame => hnot (hsame ▸ hmem)

/-- A loop is left in its first round, or in the others after it. -/
theorem mem_stops_eraseFamilies_cons
    (h : mid ∈ (env.eraseFamilies adapter policyVersion pass (familyId :: rest)).stops s) :
    mid ∈ (env.eraseFamily adapter policyVersion pass familyId).stops s ∨
      (∃ first, (env.eraseFamily adapter policyVersion pass familyId s).result = .ok first) ∧
      mid ∈ (env.eraseFamilies adapter policyVersion pass rest).stops
        (env.eraseFamily adapter policyVersion pass familyId s).final := by
  rcases mem_stops_bind h with hfirst | ⟨first, hok, hothers⟩
  · exact .inl hfirst
  · rw [stops, bind_pure_apply] at hothers
    exact .inr ⟨⟨first, hok⟩, hothers⟩

theorem stops_rest_subset {first : DataErasureFamilyResult}
    (hok : (env.eraseFamily adapter policyVersion pass familyId s).result = .ok first)
    (h : mid ∈ (env.eraseFamilies adapter policyVersion pass rest).stops
      (env.eraseFamily adapter policyVersion pass familyId s).final) :
    mid ∈ (env.eraseFamilies adapter policyVersion pass (familyId :: rest)).stops s := by
  apply mem_stops_of_second hok
  rw [stops, bind_pure_apply]
  exact h

section

variable (hdistinct : DistinctEvents env pass.record.actionId)

include hdistinct

/-- How far a pass is with a family, wherever it is left. -/
theorem progress_of_mem_stops
    (hnodup : es.Nodup) (hmem : executor ∈ es)
    (hlisted : ∀ mid ∈ (env.eraseFamilies adapter policyVersion pass
      (es.map (·.familyId))).stops s, EventListed env pass.record.actionId executor mid)
    (hmid : mid ∈ (env.eraseFamilies adapter policyVersion pass (es.map (·.familyId))).stops s) :
    Progress env pass.record.actionId executor s mid := by
  induction es generalizing s with
  | nil => cases hmem
  | cons first rest ih =>
    obtain ⟨hnot, hrest⟩ := nodup_cons.mp hnodup
    have hstart := hlisted s (mem_stops_of_first (mem_visited_eraseFamily _))
    by_cases hsame : first = executor
    · subst hsame
      rcases mem_stops_eraseFamilies_cons hmid with hfirst | ⟨-, hothers⟩
      · exact progress_eraseFamily hstart hfirst
      · -- the other rounds change neither its event nor its rows
        have hround : Progress env pass.record.actionId first s _ :=
          progress_eraseFamily hstart (final_mem_stops (env.eraseFamily adapter policyVersion pass
            first.familyId) s)
        obtain ⟨hevent, hrows⟩ := Prod.mk.inj
          (keeps_eraseFamilies_of_notMem hdistinct hnot _ mid hothers)
        simp only [Progress, hevent, hrows]
        exact hround
    · have hkeeps : (env.eraseFamily adapter policyVersion pass first.familyId).Keeps fun s =>
          (env.storedEvent pass.record.actionId executor s, familyRows s executor) :=
        keeps_eraseFamily_of_ne hdistinct hsame
      rcases mem_stops_eraseFamilies_cons hmid with hfirst | ⟨⟨result, hok⟩, hothers⟩
      · exact .inl (Prod.mk.inj (hkeeps s mid hfirst)).1
      · have hmem' : executor ∈ rest := (mem_cons.mp hmem).resolve_left (Ne.symm hsame)
        have hlater := ih hrest hmem' (fun x hx => hlisted x (stops_rest_subset hok hx)) hothers
        obtain ⟨hevent, hrows⟩ := Prod.mk.inj (hkeeps.final s)
        simp only [Progress, hevent, hrows] at hlater
        exact hlater

/-- What a completed loop tells of a family that is not held is what its event has. -/
def TellsEvent (env : Environment) (actionId : String) (after : DataStores)
    (executor : ErasureExecutor) (result : DataErasureFamilyResult) : Prop :=
  result.familyId = executor.familyId ∧ (result.held = false →
    result.erasedCount = eventCount (env.storedEvent actionId executor after) ∧
      (result.erasedCount ≠ 0 → (env.storedEvent actionId executor after).isSome))

omit hdistinct in
theorem tellsEvent_eraseFamily (hlisted : EventListed env pass.record.actionId executor s)
    {result : DataErasureFamilyResult}
    (hok : (env.eraseFamily adapter policyVersion pass executor.familyId s).result = .ok result) :
    TellsEvent env pass.record.actionId
      (env.eraseFamily adapter policyVersion pass executor.familyId s).final executor result := by
  by_cases hheld : pass.tenantId ∈ s.heldTenants executor.familyId
  · rw [eraseFamily_of_held _ _ _ _ _ _ hheld] at hok
    cases hok
    exact ⟨rfl, nofun⟩
  · obtain ⟨hrefused, hfinal⟩ := final_eraseFamily_of_ok hheld hok
    rw [(eraseFamily_of_free policyVersion hheld hrefused).1] at hok
    cases hok
    refine ⟨rfl, fun _ => ?_⟩
    rw [hfinal, afterRound]
    by_cases hzero : env.reported pass executor s = 0
    · -- nothing was deleted, and nothing is on record
      have hpurge : env.storedEvent pass.record.actionId executor
          (purge pass.tenantId executor s) = env.storedEvent pass.record.actionId executor s :=
        (unseen_storedEvent env pass.record.actionId executor executor).purge env pass.tenantId s
      have hprior : eventCount (env.storedEvent pass.record.actionId executor s) = 0 := by
        rw [← priorEvent_eq_storedEvent hlisted]
        unfold reported at hzero
        omega
      rw [if_pos hzero, hpurge, hprior]
      exact ⟨hzero, fun h => absurd hzero h⟩
    · have hevent : env.storedEvent pass.record.actionId executor
          ((purge pass.tenantId executor s).saveLifecycleEvent (env.erasureEvent policyVersion pass
            executor.familyId (env.reported pass executor s))) = some _ :=
        (storedEvent_saveLifecycleEvent _).trans (if_pos rfl)
      rw [if_neg hzero, hevent]
      exact ⟨rfl, fun _ => rfl⟩

theorem tellsEvent_eraseFamilies
    (hnodup : es.Nodup)
    (hlisted : ∀ executor, ∀ mid ∈ (env.eraseFamilies adapter policyVersion pass
      (es.map (·.familyId))).stops s, EventListed env pass.record.actionId executor mid)
    {results : List DataErasureFamilyResult}
    (hok : (env.eraseFamilies adapter policyVersion pass (es.map (·.familyId)) s).result =
      .ok results) :
    List.Forall₂ (TellsEvent env pass.record.actionId (env.eraseFamilies adapter policyVersion pass
      (es.map (·.familyId)) s).final) es results := by
  induction es generalizing s results with
  | nil =>
    cases hok
    exact .nil
  | cons first rest ih =>
    obtain ⟨hnot, hrest⟩ := nodup_cons.mp hnodup
    obtain ⟨firstResult, others, hfirst, hothers, rfl, hfinal⟩ := eraseFamilies_cons_eq_ok hok
    have hlater := ih hrest (fun executor mid hmid =>
      hlisted executor mid (stops_rest_subset hfirst hmid)) hothers
    have hround := tellsEvent_eraseFamily
      (hlisted first s (mem_stops_of_first (mem_visited_eraseFamily _))) hfirst
    -- the other rounds leave the event of this one
    have hevent : env.storedEvent pass.record.actionId first (env.eraseFamilies adapter
        policyVersion pass (rest.map (·.familyId))
          (env.eraseFamily adapter policyVersion pass first.familyId s).final).final = _ :=
      (Prod.mk.inj ((keeps_eraseFamilies_of_notMem hdistinct hnot).final _)).1
    rw [map_cons, hfinal]
    refine .cons ?_ hlater
    simp only [TellsEvent, hevent]
    exact hround

/-- In memory, and where no event is stored yet, no round is refused. -/
theorem exists_ok_eraseFamilies
    (hnodup : es.Nodup)
    (hsaves : adapter = .memory ∨ ∀ executor ∈ es,
      env.storedEvent pass.record.actionId executor s = none) :
    ∃ results, (env.eraseFamilies adapter policyVersion pass (es.map (·.familyId)) s).result =
      .ok results := by
  induction es generalizing s with
  | nil => exact ⟨[], rfl⟩
  | cons first rest ih =>
    obtain ⟨hnot, hrest⟩ := nodup_cons.mp hnodup
    have hround : ∃ result, (env.eraseFamily adapter policyVersion pass first.familyId s).result =
        .ok result := by
      by_cases hheld : pass.tenantId ∈ s.heldTenants first.familyId
      · rw [eraseFamily_of_held _ _ _ _ _ _ hheld]
        exact ⟨_, rfl⟩
      · have hfree : ¬ env.Refused adapter pass first s := by
          rintro ⟨hsql, -, hstored⟩
          rcases hsaves with hmemory | hnone
          · cases hsql.symm.trans hmemory
          · rw [hnone first mem_cons_self] at hstored
            cases hstored
        exact ⟨_, (eraseFamily_of_free policyVersion hheld hfree).1⟩
    obtain ⟨result, hresult⟩ := hround
    have hlater : adapter = .memory ∨ ∀ executor ∈ rest, env.storedEvent pass.record.actionId executor
        (env.eraseFamily adapter policyVersion pass first.familyId s).final = none := by
      refine hsaves.imp_right fun hnone executor hexecutor => ?_
      have hne : first ≠ executor := fun hsame => hnot (hsame ▸ hexecutor)
      exact (Prod.mk.inj ((keeps_eraseFamily_of_ne hdistinct hne).final s)).1.trans
        (hnone executor (.tail _ hexecutor))
    obtain ⟨others, hothers⟩ := ih hrest hlater
    exact ⟨_, eraseFamilies_cons_of_ok hresult hothers⟩

end

end Pass

/-! ### Runs of passes -/

section Runs

variable (env : Environment) (adapter : Budget.Adapter)

/-- A pass from `before` that is left in `after` is accounted for: the identifiers of its events
differ; in each of its states a stored event of the action is among the listed ones; and if it
has taken rows of a family, then no event of the family was stored before, and one is now. -/
structure Accounted (pass : ErasurePass) (before after : DataStores) : Prop where
  distinct : DistinctEvents env pass.record.actionId
  listed : ∀ executor, ∀ mid ∈ (env.executeErasure adapter pass).stops before,
    EventListed env pass.record.actionId executor mid
  recorded : ∀ executor, removed before after executor ≠ 0 →
    env.storedEvent pass.record.actionId executor before = none ∧
      (env.storedEvent pass.record.actionId executor after).isSome

/-- The passes over one claimed action, and the rows of each family that they have removed so far.
Each pass is left in some state. Between passes the stores may change in any way that leaves the
events of the action. -/
inductive Passes (Meets : ErasurePass → DataStores → DataStores → Prop) (actionId : String) :
    (ErasureExecutor → ℕ) → DataStores → Prop
  | claimed (s : DataStores) (hnew : ∀ executor, env.storedEvent actionId executor s = none) :
    Passes Meets actionId (fun _ => 0) s
  | between {total : ErasureExecutor → ℕ} {s s' : DataStores} (h : Passes Meets actionId total s)
    (hevents : ∀ executor,
      env.storedEvent actionId executor s' = env.storedEvent actionId executor s) :
    Passes Meets actionId total s'
  | interrupted {total : ErasureExecutor → ℕ} {s : DataStores} (h : Passes Meets actionId total s)
    (pass : ErasurePass) (hpass : pass.record.actionId = actionId) {mid : DataStores}
    (hmid : mid ∈ (env.executeErasure adapter pass).stops s) (hmeets : Meets pass s mid) :
    Passes Meets actionId (fun executor => total executor + removed s mid executor) mid

variable {env adapter}

/-- A pass that is accounted for adds what it removes to the count on record. -/
theorem eventCount_of_accounted {pass : ErasurePass} {s mid : DataStores}
    (hmid : mid ∈ (env.executeErasure adapter pass).stops s)
    (hmeets : Accounted env adapter pass s mid) (executor : ErasureExecutor) :
    eventCount (env.storedEvent pass.record.actionId executor mid) =
      eventCount (env.storedEvent pass.record.actionId executor s) + removed s mid executor := by
  have hlisted := hmeets.listed executor
  have hprogress := progress_of_mem_stops hmeets.distinct (by decide) executor.mem_all hlisted hmid
  have hrecorded := hmeets.recorded executor
  rcases hprogress with hsame | ⟨erased, event, hrows, hevent, hcount⟩
  · -- no event was written, so nothing may be gone
    have hnone : removed s mid executor = 0 := by
      by_contra hgone
      obtain ⟨habsent, hpresent⟩ := hrecorded hgone
      rw [hsame, habsent] at hpresent
      cases hpresent
    rw [hsame, hnone, Nat.add_zero]
  · have herased : removed s mid executor = erased := by
      unfold removed
      omega
    rw [hevent, herased]
    change event.rowCount = _
    by_cases hzero : erased = 0
    · rw [hcount, hzero, Nat.zero_max, Nat.add_zero]
    · have habsent := (hrecorded (herased ▸ hzero)).1
      rw [hcount, habsent]
      exact (Nat.max_zero erased).trans (Nat.zero_add erased).symm

/-- The event of a family has the count of all passes so far. -/
theorem eventCount_of_passes {actionId : String} {total : ErasureExecutor → ℕ} {s : DataStores}
    (h : Passes env adapter (Accounted env adapter) actionId total s) (executor : ErasureExecutor) :
    eventCount (env.storedEvent actionId executor s) = total executor := by
  induction h with
  | claimed s hnew =>
    rw [hnew]
    rfl
  | between h hevents ih => rw [hevents, ih]
  | interrupted h pass hpass hmid hmeets ih =>
    subst hpass
    rw [eventCount_of_accounted hmid hmeets, ih]

/-- A receipt tells of every family that is not held how many rows all passes have removed, and so
does the family's event. -/
def CountsAllPasses (env : Environment) (actionId : String) (total : ErasureExecutor → ℕ)
    (after : DataStores) (receipt : DataErasureReceiptClaims) : Prop :=
  List.Forall₂ (fun executor result => result.familyId = executor.familyId ∧
    (result.held = false → result.erasedCount = total executor ∧
      eventCount (env.storedEvent actionId executor after) = total executor ∧
      (total executor ≠ 0 → (env.storedEvent actionId executor after).isSome)))
    ErasureExecutor.all receipt.families

/-- In every run of passes that are all accounted for, the receipt of the last pass counts what all
of them have removed. The last pass issues one in memory, and with the database if no event of
the action was stored before it. -/
theorem receipt_counts_all_passes {actionId : String} {total : ErasureExecutor → ℕ}
    {s : DataStores} (h : Passes env adapter (Accounted env adapter) actionId total s)
    (pass : ErasurePass) (hpass : pass.record.actionId = actionId)
    (hmeets : Accounted env adapter pass s (env.approveDataErasure adapter pass s).final) :
    ((adapter = .memory ∨ ∀ executor, env.storedEvent actionId executor s = none) →
        ∃ receipt, (env.approveDataErasure adapter pass s).result = .ok receipt) ∧
      ∀ receipt, (env.approveDataErasure adapter pass s).result = .ok receipt →
        CountsAllPasses env actionId (fun executor => total executor +
            removed s (env.approveDataErasure adapter pass s).final executor)
          (env.approveDataErasure adapter pass s).final receipt := by
  subst hpass
  rw [approveDataErasure_apply] at hmeets ⊢
  have hcount := eventCount_of_accounted (final_mem_stops _ s) hmeets
  simp only [eventCount_of_passes h] at hcount
  constructor
  · intro hsaves
    obtain ⟨results, hok⟩ : ∃ results, (env.executeErasure adapter pass s).result = .ok results := by
      rw [Environment.executeErasure, tenantErasableFamilyIds_retentionPolicy]
      exact exists_ok_eraseFamilies hmeets.distinct (by decide)
        (hsaves.imp_right fun hnone executor _ => hnone executor)
    exact ⟨_, by rw [hok]; rfl⟩
  · intro receipt hreceipt
    obtain ⟨results, hok, rfl⟩ : ∃ results,
        (env.executeErasure adapter pass s).result = .ok results ∧
          receipt = env.issueReceipt pass results := by
      rw [← approveDataErasure_apply] at hreceipt
      exact exists_ok_of_receipt hreceipt
    have htells : List.Forall₂ (TellsEvent env pass.record.actionId
        (env.executeErasure adapter pass s).final) ErasureExecutor.all results := by
      have hlisted := hmeets.listed
      rw [Environment.executeErasure, tenantErasableFamilyIds_retentionPolicy] at hok hlisted ⊢
      exact tellsEvent_eraseFamilies hmeets.distinct (by decide) hlisted hok
    refine htells.imp fun executor result htold => ⟨htold.1, fun hheld => ?_⟩
    obtain ⟨hreported, hpresent⟩ := htold.2 hheld
    have htotal := hreported.trans (hcount executor)
    exact ⟨htotal, hcount executor, fun hne => hpresent (htotal ▸ hne)⟩

end Runs

/-! ### An audit record, and a pass that is interrupted -/

/-- The stores with one audit record of a tenant. -/
def oneRecordStores : DataStores :=
  DataStores.empty.put .auditRecords
    (Table.ofList [⟨"request_1", some "acme", "2026-01-01T00:00:00+00:00"⟩])

/-- Its stops: the record is gone from the fourth on, and the event is there from the seventh on. -/
def newYearStops : List DataStores :=
  (calendar.executeErasure .memory (newYearPass "acme")).stops oneRecordStores

/-- The pass is left between the deletion and the event. -/
def beforeEvent : DataStores := newYearStops.get ⟨3, by decide +kernel⟩

/-- The pass is left after the event. -/
def afterEvent : DataStores := newYearStops.get ⟨6, by decide +kernel⟩

/-- A pass that was left after the event is accounted for, and so is the pass that resumes it:
its receipt has the record. -/
theorem resumed_receipt_counts_the_record :
    ∃ receipt, (calendar.approveDataErasure .memory (newYearPass "acme") afterEvent).result =
        .ok receipt ∧
      CountsAllPasses calendar "gact_1"
        (fun executor => 0 + removed oneRecordStores afterEvent executor + removed afterEvent
          (calendar.approveDataErasure .memory (newYearPass "acme") afterEvent).final executor)
        (calendar.approveDataErasure .memory (newYearPass "acme") afterEvent).final receipt := by
  have hdistinct : DistinctEvents calendar "gact_1" := by
    intro executor other
    cases executor <;> cases other <;> decide +kernel
  have hlisted : ∀ before, before = oneRecordStores ∨ before = afterEvent →
      ∀ executor, ∀ mid ∈ (calendar.executeErasure .memory (newYearPass "acme")).stops before,
        EventListed calendar "gact_1" executor mid := by
    have hfew : ∀ before, before = oneRecordStores ∨ before = afterEvent →
        ∀ mid ∈ (calendar.executeErasure .memory (newYearPass "acme")).stops before,
          (mid.tables .lifecycleEvents).list.length ≤ 10000 := by
      rintro before (rfl | rfl) <;> decide +kernel
    intro before hbefore executor mid hmid
    exact eventListed_of_length_le (hfew before hbefore mid hmid)
  have hpasses : Passes calendar .memory (Accounted calendar .memory) "gact_1"
      (fun executor => 0 + removed oneRecordStores afterEvent executor) afterEvent := by
    refine .interrupted (.claimed oneRecordStores fun executor => ?_) (newYearPass "acme") rfl
      (List.get_mem ..) ⟨hdistinct, hlisted _ (.inl rfl), fun executor => ?_⟩
    · cases executor <;> decide +kernel
    · cases executor <;> decide +kernel
  have hmeets : Accounted calendar .memory (newYearPass "acme") afterEvent
      (calendar.approveDataErasure .memory (newYearPass "acme") afterEvent).final := by
    refine ⟨hdistinct, hlisted _ (.inr rfl), fun executor => ?_⟩
    cases executor <;> decide +kernel
  have hcounts := receipt_counts_all_passes hpasses (newYearPass "acme") rfl hmeets
  obtain ⟨receipt, hreceipt⟩ := hcounts.1 (.inl rfl)
  exact ⟨receipt, hreceipt, hcounts.2 receipt hreceipt⟩

/-- A pass that was left between the deletion and the event has removed the record, and the receipt
of the pass that resumes it says that nothing was. -/
theorem interrupted_deletion_is_forgotten :
    Passes calendar .memory (fun _ _ _ => True) "gact_1"
        (fun executor => 0 + removed oneRecordStores beforeEvent executor) beforeEvent ∧
      removed oneRecordStores beforeEvent .auditEvidence = 1 ∧
      ((calendar.approveDataErasure .memory (newYearPass "acme") beforeEvent).result.toOption.map
        fun receipt => receipt.families.map (·.erasedCount)) = some [0, 0, 0, 0] ∧
      ∀ receipt, (calendar.approveDataErasure .memory (newYearPass "acme") beforeEvent).result =
        .ok receipt → ¬ CountsAllPasses calendar "gact_1"
          (fun executor => 0 + removed oneRecordStores beforeEvent executor + removed beforeEvent
            (calendar.approveDataErasure .memory (newYearPass "acme") beforeEvent).final executor)
          (calendar.approveDataErasure .memory (newYearPass "acme") beforeEvent).final receipt := by
  have hremoved : removed oneRecordStores beforeEvent .auditEvidence = 1 := by decide +kernel
  have hreceipts : ((calendar.approveDataErasure .memory (newYearPass "acme")
      beforeEvent).result.toOption.map fun receipt => receipt.families.map fun result =>
        (result.erasedCount, result.held)) =
      some [(0, false), (0, false), (0, false), (0, false)] := by decide +kernel
  refine ⟨?_, hremoved, by decide +kernel, fun receipt hreceipt hcounts => ?_⟩
  · refine .interrupted (.claimed oneRecordStores fun executor => ?_) (newYearPass "acme") rfl
      (List.get_mem ..) trivial
    cases executor <;> decide +kernel
  · rw [hreceipt] at hreceipts
    have hfamilies : receipt.families.map (fun result => (result.erasedCount, result.held)) =
        [(0, false), (0, false), (0, false), (0, false)] := Option.some.inj hreceipts
    obtain ⟨first, others, htold, -, hlist⟩ := List.forall₂_cons_left_iff.mp hcounts
    rw [hlist, List.map_cons] at hfamilies
    obtain ⟨hfirst, -⟩ := List.cons.inj hfamilies
    obtain ⟨hcount, hheld⟩ := Prod.mk.inj hfirst
    have htotal := (htold.2 hheld).1
    dsimp only at htotal
    omega

end LotusAI.Lifecycle
