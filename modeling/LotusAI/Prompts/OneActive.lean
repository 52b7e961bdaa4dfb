import LotusAI.Lib.Checks
import LotusAI.Prompts.Rollout

/-!
# One active prompt

Promotions and rollbacks of one task, one after the other. A promotion retires the active version
and remembers it. A rollback makes the remembered version active again, whatever has become of it,
and a candidate of the version it replaces.
-/

namespace LotusAI.Prompts

open Lib Table

/-- A control action of a task, with the approval gate that it finds. -/
structure ControlAction where
  actionType : PromptControlActionType
  candidate : Option String
  gate : EvidenceState
  requestedBy : String
  approvedBy : String
  reason : String
  authorization : AuthorizationDecision
  hex : String
  now : String

def ControlAction.transition (taskId : String) (store : PromptStore) (action : ControlAction) :
    Except Raised RolloutTransition := do
  let state ← requiredRolloutState taskId (store.rollouts.get? taskId)
  match action.actionType with
  | .promoteCandidate =>
    let version ← promotable action.gate state action.candidate
    let prompt ← governedCandidate taskId version (store.versions.get? (taskId, version))
    let active ← requiredPromptVersion taskId state.activePromptVersion
      (store.versions.get? (taskId, state.activePromptVersion))
    return promoteTransition state prompt active taskId action.requestedBy action.approvedBy
      action.reason action.authorization action.hex action.now
  | .rollbackToPreviousActive =>
    let version ← previousActive state taskId action.candidate
    let active ← requiredPromptVersion taskId state.activePromptVersion
      (store.versions.get? (taskId, state.activePromptVersion))
    let previous ← requiredPromptVersion taskId version (store.versions.get? (taskId, version))
    return rollbackTransition state active previous taskId action.requestedBy action.reason
      action.authorization action.hex action.now

namespace PromptStore

/-- A completed action. -/
def apply (taskId : String) (store : PromptStore) (action : ControlAction) :
    Except Raised PromptStore := do
  let transition ← action.transition taskId store
  store.saveRolloutTransition transition

/-- Completed actions, one after the other. -/
def applyAll (taskId : String) (store : PromptStore) (actions : List ControlAction) :
    Except Raised PromptStore :=
  actions.foldlM (apply taskId) store

def status (store : PromptStore) (taskId version : String) : Option PromptLifecycleStatus :=
  (store.versions.get? (taskId, version)).map (·.lifecycleStatus)

/-- One version is active, the one that the state names. -/
structure OneActive (store : PromptStore) (taskId : String) (state : PromptRolloutState) :
    Prop where
  stored : store.rollouts.get? taskId = some state
  active_iff : ∀ v, store.status taskId v = some .active ↔ v = state.activePromptVersion

/-- A version that is remembered is another one, which exists and is not active. -/
def PreviousKept (store : PromptStore) (taskId : String) (state : PromptRolloutState) : Prop :=
  ∀ v, state.previousActivePromptVersion = some v → v ≠ state.activePromptVersion ∧
    ∃ found, store.status taskId v = some found ∧ found ≠ .active

end PromptStore

/-- Events that lead from one active version to another, each from where the last one led. -/
def Chains : String → List PromptRolloutEvent → String → Prop
  | start, [], stop => start = stop
  | start, event :: rest, stop => event.priorActivePromptVersion = some start ∧
      ∃ next, event.resultingActivePromptVersion = some next ∧ Chains next rest stop

/-! ### One action -/

/-- What an action leaves of the version that was active. -/
def PromptControlActionType.leaves : PromptControlActionType → PromptLifecycleStatus
  | promoteCandidate => .retired
  | rollbackToPreviousActive => .candidate

/-- The outcome of an action. -/
structure Switches (taskId : String) (type : PromptControlActionType) (store store' : PromptStore)
    (state next : PromptRolloutState) (event : PromptRolloutEvent) : Prop where
  stored : store.rollouts.get? taskId = some state
  written : store'.rollouts.get? taskId = some next
  status : ∀ v, store'.status taskId v =
    if v = next.activePromptVersion then some .active
    else if v = state.activePromptVersion then some type.leaves else store.status taskId v
  events : store'.events = store.events ++ [event]
  prior : event.priorActivePromptVersion = some state.activePromptVersion
  resulting : event.resultingActivePromptVersion = some next.activePromptVersion
  promoted : type = .promoteCandidate →
    next.previousActivePromptVersion = some state.activePromptVersion ∧
    next.activePromptVersion ≠ state.activePromptVersion ∧
    store.status taskId next.activePromptVersion = some .candidate
  rolledBack : type = .rollbackToPreviousActive →
    state.previousActivePromptVersion = some next.activePromptVersion ∧
    next.previousActivePromptVersion = none

section Step

variable {taskId version : String} {store store' : PromptStore} {action : ControlAction}
  {state : PromptRolloutState} {prompt : PromptDescriptor} {candidate : Option String}
  {found : Option PromptDescriptor}

/-- A saved transition has written its two versions, the second over the first. -/
theorem status_of_save {transition : RolloutTransition} {a b : PromptDescriptor}
    {x y : PromptLifecycleStatus} (h : store.saveRolloutTransition transition = .ok store')
    (hprompts : transition.prompts =
      [{ a with lifecycleStatus := x }, { b with lifecycleStatus := y }])
    (hstate : transition.state.taskId = taskId)
    (ha : store.versions.get? (taskId, a.promptVersion) = some a)
    (hb : store.versions.get? (taskId, b.promptVersion) = some b) :
    (∀ v, store'.status taskId v = if v = b.promptVersion then some y
      else if v = a.promptVersion then some x else store.status taskId v) ∧
    store'.rollouts.get? taskId = some transition.state ∧
    store'.events = store.events ++ [transition.event] := by
  obtain rfl : a.taskId = taskId := congrArg Prod.fst (key_of_get? ha)
  have htask : b.taskId = a.taskId := congrArg Prod.fst (key_of_get? hb)
  simp only [PromptStore.saveRolloutTransition, bind_eq_ok, hprompts, saveVersions, ha,
    PromptDescriptor.managedAs, get?_upsert] at h
  obtain ⟨versions, hversions, h⟩ := h
  split at h
  · cases h
  · cases h
    refine ⟨fun v => ?_, (get?_upsert ..).trans (if_pos hstate.symm), rfl⟩
    -- where both are one version, the second is written over what the first has written
    by_cases hsame : b.promptVersion = a.promptVersion
    · obtain rfl : b = a := Option.mem_unique hb (hsame ▸ ha)
      simp at hversions
      subst hversions
      simp only [PromptStore.status, get?_upsert]
      split_ifs <;> simp_all
    · simp [htask, hsame, hb] at hversions
      subst hversions
      simp only [PromptStore.status, get?_upsert]
      split_ifs <;> simp_all

theorem requiredRolloutState_eq_ok {found : Option PromptRolloutState} :
    requiredRolloutState taskId found = .ok state ↔ found = some state := by
  cases found <;> simp [requiredRolloutState]

theorem requiredPromptVersion_eq_ok :
    requiredPromptVersion taskId version found = .ok prompt ↔ found = some prompt := by
  cases found <;> simp [requiredPromptVersion]

theorem of_promotable {gate : EvidenceState} (h : promotable gate state candidate = .ok version) :
    version ≠ state.activePromptVersion := by
  unfold promotable at h
  cases candidate <;> grind

theorem of_governedCandidate
    (h : governedCandidate taskId version found = .ok prompt) :
    found = some prompt ∧ prompt.lifecycleStatus = .candidate := by
  unfold governedCandidate at h
  cases found <;> grind

theorem of_previousActive (h : previousActive state taskId candidate = .ok version) :
    state.previousActivePromptVersion = some version := by
  unfold previousActive at h
  grind

/-- Everything that an action does. -/
theorem switches_of_apply (h : store.apply taskId action = .ok store') :
    ∃ state next event, Switches taskId action.actionType store store' state next event := by
  obtain ⟨transition, htransition, hsave⟩ := bind_eq_ok.mp h
  have hlabel : ∀ {v prompt}, store.versions.get? (taskId, v) = some prompt →
      prompt.promptVersion = v := fun h => congrArg Prod.snd (key_of_get? h)
  simp only [ControlAction.transition, bind_eq_ok, requiredRolloutState_eq_ok] at htransition
  obtain ⟨state, hstate, htransition⟩ := htransition
  have htask : state.taskId = taskId := key_of_get? hstate
  cases haction : action.actionType with
  | promoteCandidate =>
    simp only [haction, bind_eq_ok, requiredPromptVersion_eq_ok, pure_eq_ok] at htransition
    obtain ⟨version, hversion, prompt, hprompt, active, hactive, rfl⟩ := htransition
    obtain ⟨hprompt, hcandidate⟩ := of_governedCandidate hprompt
    obtain rfl := hlabel hprompt
    have hlabelled := hlabel hactive
    obtain ⟨hstatus, hwritten, hevents⟩ :=
      status_of_save hsave rfl htask (hlabelled ▸ hactive) hprompt
    refine ⟨state, _, _, hstate, hwritten, hlabelled ▸ hstatus, hevents, congrArg some hlabelled,
      rfl, fun _ => ⟨congrArg some hlabelled, of_promotable hversion, ?_⟩, by simp⟩
    simp [promoteTransition, PromptStore.status, hprompt, hcandidate]
  | rollbackToPreviousActive =>
    simp only [haction, bind_eq_ok, requiredPromptVersion_eq_ok, pure_eq_ok] at htransition
    obtain ⟨version, hversion, active, hactive, previous, hprevious, rfl⟩ := htransition
    obtain rfl := hlabel hprevious
    have hlabelled := hlabel hactive
    obtain ⟨hstatus, hwritten, hevents⟩ :=
      status_of_save hsave rfl htask (hlabelled ▸ hactive) hprevious
    exact ⟨state, _, _, hstate, hwritten, hlabelled ▸ hstatus, hevents, congrArg some hlabelled,
      rfl, (by simp), fun _ => ⟨of_previousActive hversion, rfl⟩⟩

end Step

/-! ### Sequences -/

section Run

open PromptStore

variable {taskId : String} {store store' : PromptStore} {state next : PromptRolloutState}
  {type : PromptControlActionType} {event : PromptRolloutEvent} {actions : List ControlAction}

/-- An action keeps that one version is active, and what it remembers is another one. -/
theorem Switches.oneActive (h : Switches taskId type store store' state next event)
    (hone : OneActive store taskId state) :
    OneActive store' taskId next ∧ PreviousKept store' taskId next := by
  refine ⟨⟨h.written, fun v => ?_⟩, fun v hv => ?_⟩
  · rw [h.status]
    have hleaves : type.leaves ≠ .active := by cases type <;> decide
    have hother := hone.active_iff v
    split_ifs <;> simp_all
  · cases type with
    | promoteCandidate =>
      obtain ⟨hprevious, hne, -⟩ := h.promoted rfl
      obtain rfl := Option.mem_unique hprevious hv
      refine ⟨hne.symm, .retired, ?_, by decide⟩
      rw [h.status, if_neg hne.symm, if_pos rfl]
      rfl
    | rollbackToPreviousActive => cases (h.rolledBack rfl).2.symm.trans hv

/-- A rollback directly after a promotion restores the status of every version. -/
theorem Switches.restores {store'' : PromptStore} {last : PromptRolloutState}
    {event' : PromptRolloutEvent} (hone : OneActive store taskId state)
    (h : Switches taskId .promoteCandidate store store' state next event)
    (h' : Switches taskId .rollbackToPreviousActive store' store'' next last event') (v : String) :
    store''.status taskId v = store.status taskId v := by
  obtain ⟨hprevious, hne, hcandidate⟩ := h.promoted rfl
  have hlast := Option.some.inj (hprevious.symm.trans (h'.rolledBack rfl).1)
  have hactive := (hone.active_iff state.activePromptVersion).mpr rfl
  rw [h'.status, h.status, ← hlast]
  split_ifs <;> simp_all [PromptControlActionType.leaves]

theorem exists_of_applyAll (h : store.applyAll taskId actions = .ok store')
    (hone : OneActive store taskId state) :
    ∃ last events, OneActive store' taskId last ∧
      (actions ≠ [] ∨ PreviousKept store taskId state → PreviousKept store' taskId last) ∧
      store'.events = store.events ++ events ∧
      Chains state.activePromptVersion events last.activePromptVersion := by
  induction actions generalizing store state with
  | nil =>
    cases h
    exact ⟨state, [], hone, by simp, by simp, rfl⟩
  | cons action rest ih =>
    obtain ⟨middle, hfirst, hrest⟩ := bind_eq_ok.mp h
    obtain ⟨state', next, event, hswitch⟩ := switches_of_apply hfirst
    obtain rfl := Option.mem_unique hone.stored hswitch.stored
    obtain ⟨hone', hkept⟩ := hswitch.oneActive hone
    obtain ⟨last, events, hlast, hprevious, hevents, hchain⟩ := ih hrest hone'
    refine ⟨last, event :: events, hlast, fun _ => hprevious (.inr hkept), ?_, hswitch.prior, _,
      hswitch.resulting, hchain⟩
    simp [hevents, hswitch.events]

/-- After completed actions one version is active, the one that the state names; what is remembered
is another version that is not active, if it was so before or there was an action; the events chain;
and a rollback directly after a promotion restores the status of every version. -/
theorem oneActive_of_applyAll (h : store.applyAll taskId actions = .ok store')
    (hone : OneActive store taskId state) :
    ∃ last events, OneActive store' taskId last ∧
      (actions ≠ [] ∨ PreviousKept store taskId state → PreviousKept store' taskId last) ∧
      store'.events = store.events ++ events ∧
      Chains state.activePromptVersion events last.activePromptVersion ∧
      ∀ before promotion rollback after, actions = before ++ promotion :: rollback :: after →
        promotion.actionType = .promoteCandidate →
        rollback.actionType = .rollbackToPreviousActive →
        ∃ start restored, store.applyAll taskId before = .ok start ∧
          start.applyAll taskId [promotion, rollback] = .ok restored ∧
          ∀ v, restored.status taskId v = start.status taskId v := by
  obtain ⟨last, events, hlast, hprevious, hevents, hchain⟩ := exists_of_applyAll h hone
  refine ⟨last, events, hlast, hprevious, hevents, hchain, ?_⟩
  rintro before promotion rollback after rfl hpromotion hrollback
  simp only [applyAll, List.foldlM_append, List.foldlM_cons, bind_eq_ok] at h
  obtain ⟨start, hstart, middle, hpromoted, restored, hrestored, -⟩ := h
  refine ⟨start, restored, hstart, ?_, ?_⟩
  · simp only [applyAll, List.foldlM_cons, List.foldlM_nil, bind_eq_ok, pure_eq_ok]
    exact ⟨middle, hpromoted, restored, hrestored, rfl⟩
  obtain ⟨state₀, -, hone₀, -⟩ := exists_of_applyAll hstart hone
  obtain ⟨state', next, event, hswitch⟩ := switches_of_apply hpromoted
  obtain ⟨next', last', event', hswitch'⟩ := switches_of_apply hrestored
  obtain rfl := Option.mem_unique hone₀.stored hswitch.stored
  obtain rfl := Option.mem_unique hswitch.written hswitch'.stored
  exact (hpromotion ▸ hswitch).restores hone₀ (hrollback ▸ hswitch')

end Run

/-! ### A task with two versions -/

def samplePrompt (version : String) (status : PromptLifecycleStatus) : PromptDescriptor :=
  ⟨"task", version, "", status, .seededMemory, "", "", ""⟩

def sampleState (previous : Option String) : PromptRolloutState :=
  ⟨"task", "v1", some "v2", previous, .governedStateReadOnly, false⟩

def sampleStore (previous : Option String) : PromptStore where
  versions := .ofList [samplePrompt "v1" .active, samplePrompt "v2" .candidate]
  rollouts := .ofList [sampleState previous]
  events := []

def sampleAction (type : PromptControlActionType) (candidate : Option String) : ControlAction :=
  ⟨type, candidate, .runtimePass, "", "", "", ⟨"", true, ""⟩, "", ""⟩

theorem oneActive_sampleStore (previous : Option String) :
    (sampleStore previous).OneActive "task" (sampleState previous) := by
  refine ⟨rfl, fun v => ?_⟩
  simp only [PromptStore.status, sampleStore, ofList, List.foldl, get?_upsert,
    samplePrompt, sampleState]
  by_cases hv : v = "v2"
  · simp [hv]
  · by_cases hv' : v = "v1" <;> simp [hv, hv', get?, empty]

theorem oneActive_after_promotion_and_rollback :
    ∃ store last, (sampleStore none).applyAll "task" [sampleAction .promoteCandidate (some "v2"),
        sampleAction .rollbackToPreviousActive none] = .ok store ∧
      store.OneActive "task" last := by
  have h : ∃ store, (sampleStore none).applyAll "task" [sampleAction .promoteCandidate (some "v2"),
        sampleAction .rollbackToPreviousActive none] = .ok store := ⟨_, rfl⟩
  obtain ⟨store, h⟩ := h
  obtain ⟨last, _, hlast, _⟩ := oneActive_of_applyAll h (oneActive_sampleStore none)
  exact ⟨store, last, h, hlast⟩

/-- Before any action, what is remembered may be a version that does not exist. -/
theorem exists_previous_not_kept :
    ∃ store state, PromptStore.OneActive store "task" state ∧
      store.applyAll "task" [] = .ok store ∧ ¬ store.PreviousKept "task" state := by
  refine ⟨_, _, oneActive_sampleStore (some "v9"), rfl, fun h => ?_⟩
  obtain ⟨-, _, hfound, -⟩ := h "v9" rfl
  have hmissing : (sampleStore (some "v9")).status "task" "v9" = none := by decide +kernel
  cases hmissing.symm.trans hfound

end LotusAI.Prompts
