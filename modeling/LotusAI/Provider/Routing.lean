import LotusAI.Provider.Gateway
import Mathlib.Data.List.TakeWhile

/-!
# What ordered-fallback routing guarantees

For every assignment of outcomes to the steps of the gateway: in which order candidates
are executed, which ones are not, what the fallback path says, and when a refusal
accounts for every candidate.
-/

namespace LotusAI.Provider

open Lib Attempts

variable {ρ : Type} {entry : ExecutionConfig × ℕ}

/-! ### Outcomes -/

/-- An outcome for every step, by the position of the candidate. -/
structure Outcomes (ρ : Type) where
  killSwitches : ℕ → Except ProviderError Unit
  quota : Except ProviderError Unit
  budget : Except ProviderError Unit
  deadline : ℕ → Except ProviderError Unit
  breaker : ℕ → Except ProviderError Unit
  bind : ℕ → Except ProviderError CatalogueEntry
  capability : ℕ → Except ProviderError Unit
  adapter : ℕ → Except ProviderError (ExecutionResponse ρ)
  now : String

namespace Outcomes

variable (o : Outcomes ρ)

/-- The steps with these outcomes. The positions at which the adapter is called are noted. -/
def controls : Controls (StateM (List ℕ)) ρ where
  enforceKillSwitches index _ := pure (o.killSwitches index)
  enforceProviderQuota := pure o.quota
  enforceProviderBudget := pure o.budget
  requireBudgetRemaining index := pure (o.deadline index)
  enforceProviderDegradationPreflight index _ := pure (o.breaker index)
  bindCatalogueEntry index _ := pure (o.bind index)
  enforceCapabilityRequirements index _ := pure (o.capability index)
  execute index _ := do
    modify (· ++ [index])
    return o.adapter index
  recordProviderFailure _ := pure ()
  recordModelRevisionDrift _ _ := pure ()
  recordSuccessfulProviderExecution := pure ()
  utcNow := pure o.now

/-- What preflight says of a candidate. -/
def preflight (index : ℕ) : Except ProviderError CatalogueEntry := do
  o.deadline index
  o.breaker index
  let entry ← o.bind index
  o.capability index
  return entry

/-- Whether a candidate that is reached is executed. -/
def executes (index : ℕ) : Bool := (o.preflight index).toOption.isSome

/-- Why a candidate that is reached does not serve, if it does not. -/
def failure (index : ℕ) : Option ProviderError :=
  match o.preflight index with
  | .error e => some e
  | .ok _ => match o.adapter index with
    | .error e => some e
    | .ok _ => none

/-- Whether the loop goes on behind a candidate that is reached. -/
def goesOn (index : ℕ) : Bool :=
  match o.preflight index with
  | .error _ => true
  | .ok _ => match o.adapter index with
    | .error e => e.category.isFallbackTrigger
    | .ok _ => false

/-- The gateway under these outcomes: how it ends, and the positions it executed. -/
def execute (request : OrderedRequest) :
    Except GatewayError (ExecutionResponse ρ) × List ℕ :=
  (executeOrderedFallback o.controls request).run []

end Outcomes

/-! ### The loops -/

section Loops

variable (o : Outcomes ρ) (candidate : ExecutionConfig)

theorem vetoLoop_run (candidates : List (ExecutionConfig × ℕ)) (vetoes : Vetoes) (log : List ℕ) :
    ∃ vetoes', (vetoLoop o.controls candidates vetoes).run log = (vetoes', log) ∧
      vetoes'.eligible = vetoes.eligible ++
        candidates.filter (fun entry => (o.killSwitches entry.2).toOption.isSome) ∧
      (∀ index, (vetoes'.rejections.get? index).isSome ↔ (vetoes.rejections.get? index).isSome ∨
        ∃ candidate, (candidate, index) ∈ candidates ∧ (o.killSwitches index).toOption = none) ∧
      (vetoes'.errors = [] ↔ vetoes.errors = [] ∧
        ∀ entry ∈ candidates, (o.killSwitches entry.2).toOption.isSome) := by
  induction candidates generalizing vetoes with
  | nil => exact ⟨vetoes, rfl, by simp, by simp, by simp⟩
  | cons entry rest ih =>
    obtain ⟨candidate, index⟩ := entry
    cases hveto : o.killSwitches index with
    | error e =>
      obtain ⟨vetoes', hrun, heligible, hrejections, herrors⟩ := ih { vetoes with
        rejections := vetoes.rejections.insert index e.category
        errors := vetoes.errors ++ [e] }
      refine ⟨vetoes', ?_, ?_, ?_, ?_⟩
      · rw [← hrun]
        simp [vetoLoop, Outcomes.controls, hveto]
      · simpa [hveto, Except.toOption] using heligible
      · intro position
        rw [hrejections, Dict.get?_insert]
        by_cases hsame : position = index
        · subst hsame
          simp [hveto, Except.toOption]
        · simp [hsame]
      · simp [herrors, hveto, Except.toOption]
    | ok =>
      obtain ⟨vetoes', hrun, heligible, hrejections, herrors⟩ := ih { vetoes with
        eligible := vetoes.eligible ++ [(candidate, index)] }
      refine ⟨vetoes', ?_, ?_, ?_, ?_⟩
      · rw [← hrun]
        simp [vetoLoop, Outcomes.controls, hveto]
      · simpa [hveto, Except.toOption] using heligible
      · intro position
        rw [hrejections]
        by_cases hsame : position = index
        · subst hsame
          simp [hveto, Except.toOption]
        · simp [hsame]
      · simp [herrors, hveto, Except.toOption]

/-- Preflight reads the outcomes in order and executes nothing. -/
theorem preflight_run (index : ℕ) (log : List ℕ) :
    (preflight o.controls candidate index).run log = (o.preflight index, log) := by
  unfold preflight Outcomes.preflight
  cases hdeadline : o.deadline index with
  | error e => simp [Outcomes.controls, hdeadline]; rfl
  | ok =>
    cases hbreaker : o.breaker index with
    | error e => simp [Outcomes.controls, hdeadline, hbreaker]; rfl
    | ok =>
      cases hbind : o.bind index with
      | error e => simp [Outcomes.controls, hdeadline, hbreaker, hbind]; rfl
      | ok entry =>
        cases hcapability : o.capability index with
        | error e | ok => simp [Outcomes.controls, hdeadline, hbreaker, hbind, hcapability]; rfl

/-- One round of the loop. -/
theorem attemptLoop_run_cons (index : ℕ)
    (rest : List (ExecutionConfig × ℕ)) (attempts : Attempts) (log : List ℕ) :
    (attemptLoop o.controls ((candidate, index) :: rest) attempts).run log =
      match o.preflight index with
      | .error e => (attemptLoop o.controls rest (attempts.reject candidate index e false)).run log
      | .ok entry =>
        match o.adapter index with
        | .error e =>
          if e.category.isFallbackTrigger then
            (attemptLoop o.controls rest (attempts.reject candidate index e true)).run
              (log ++ [index])
          else ((none, attempts.reject candidate index e true), log ++ [index])
        | .ok response => ((some (⟨index, candidate, entry⟩, response), attempts),
            log ++ [index]) := by
  rw [attemptLoop, StateT.run_bind, preflight_run]
  cases hpreflight : o.preflight index with
  | error e => rfl
  | ok entry =>
    cases hadapter : o.adapter index with
    | ok response => simp [Outcomes.controls, hadapter]; rfl
    | error e =>
      by_cases htrigger : e.category.isFallbackTrigger
      · simp [Outcomes.controls, hadapter, htrigger]; rfl
      · simp [Outcomes.controls, hadapter, htrigger]; rfl

/-- What a candidate that is reached and does not serve leaves behind. -/
def Attempts.after (attempts : Attempts) (entry : ExecutionConfig × ℕ) : Attempts :=
  match o.failure entry.2 with
  | some e => attempts.reject entry.1 entry.2 e (o.executes entry.2)
  | none => attempts

/-- The positions executed among the reached ones. -/
def executedOf (reached : List (ExecutionConfig × ℕ)) : List ℕ :=
  (reached.filter fun entry => o.executes entry.2).map Prod.snd

variable {o}

theorem executes_iff {index : ℕ} : o.executes index ↔ ∃ found, o.preflight index = .ok found := by
  unfold Outcomes.executes
  cases o.preflight index <;> simp [Except.toOption]

theorem executedOf_append (reached rest : List (ExecutionConfig × ℕ)) :
    executedOf o (reached ++ rest) = executedOf o reached ++ executedOf o rest := by
  simp [executedOf]

/-- How the loop ends: every candidate is passed over, or one of them serves, or one of them
fails for good. -/
inductive LoopEnd (o : Outcomes ρ) (eligible : List (ExecutionConfig × ℕ)) (attempts : Attempts)
    (log : List ℕ) : (Option (Serving × ExecutionResponse ρ) × Attempts) × List ℕ → Prop
  | exhausted (goesOn : ∀ entry ∈ eligible, o.goesOn entry.2) :
      LoopEnd o eligible attempts log
        ((none, eligible.foldl (Attempts.after o) attempts), log ++ executedOf o eligible)
  | served (passed rest : List (ExecutionConfig × ℕ)) (candidate : ExecutionConfig) (index : ℕ)
      (found : CatalogueEntry) (response : ExecutionResponse ρ)
      (split : eligible = passed ++ (candidate, index) :: rest)
      (goesOn : ∀ entry ∈ passed, o.goesOn entry.2)
      (preflight : o.preflight index = .ok found) (adapter : o.adapter index = .ok response) :
      LoopEnd o eligible attempts log
        ((some (⟨index, candidate, found⟩, response), passed.foldl (Attempts.after o) attempts),
          log ++ executedOf o (passed ++ [(candidate, index)]))
  | stopped (passed rest : List (ExecutionConfig × ℕ)) (candidate : ExecutionConfig) (index : ℕ)
      (e : ProviderError) (split : eligible = passed ++ (candidate, index) :: rest)
      (goesOn : ∀ entry ∈ passed, o.goesOn entry.2) (executes : o.executes index)
      (adapter : o.adapter index = .error e) (final : e.category.isFallbackTrigger = false) :
      LoopEnd o eligible attempts log
        ((none, (passed ++ [(candidate, index)]).foldl (Attempts.after o) attempts),
          log ++ executedOf o (passed ++ [(candidate, index)]))

/-- A candidate that is passed over comes before whatever ends the loop. -/
theorem LoopEnd.cons {eligible : List (ExecutionConfig × ℕ)} {attempts : Attempts}
    {log : List ℕ}
    {out : (Option (Serving × ExecutionResponse ρ) × Attempts) × List ℕ}
    (hgoes : o.goesOn entry.2)
    (h : LoopEnd o eligible (attempts.after o entry) (log ++ executedOf o [entry]) out) :
    LoopEnd o (entry :: eligible) attempts log out := by
  cases h with
  | exhausted goesOn =>
    rw [List.append_assoc, ← executedOf_append]
    exact .exhausted (List.forall_mem_cons.mpr ⟨hgoes, goesOn⟩)
  | served passed rest candidate index found response split goesOn preflight adapter =>
    rw [List.append_assoc, ← executedOf_append]
    exact .served (entry :: passed) rest candidate index found response (by rw [split]; rfl)
      (List.forall_mem_cons.mpr ⟨hgoes, goesOn⟩) preflight adapter
  | stopped passed rest candidate index e split goesOn executes adapter final =>
    rw [List.append_assoc, ← executedOf_append]
    exact .stopped (entry :: passed) rest candidate index e (by rw [split]; rfl)
      (List.forall_mem_cons.mpr ⟨hgoes, goesOn⟩) executes adapter final

theorem attemptLoop_end (eligible : List (ExecutionConfig × ℕ)) (attempts : Attempts)
    (log : List ℕ) :
    LoopEnd o eligible attempts log ((attemptLoop o.controls eligible attempts).run log) := by
  induction eligible generalizing attempts log with
  | nil =>
    have hend : LoopEnd o [] attempts log ((none, attempts), log ++ executedOf o []) :=
      .exhausted nofun
    change LoopEnd o [] attempts log ((none, attempts), log)
    simpa [executedOf] using hend
  | cons entry rest ih =>
    obtain ⟨candidate, index⟩ := entry
    rw [attemptLoop_run_cons]
    cases hpreflight : o.preflight index with
    | error e =>
      -- rejected at preflight: not executed, and the loop goes on
      have hexecutes : o.executes index = false := by
        simp [Outcomes.executes, hpreflight, Except.toOption]
      have hafter : attempts.after o (candidate, index) =
          attempts.reject candidate index e false := by
        simp [after, Outcomes.failure, hexecutes, hpreflight]
      apply LoopEnd.cons (by simp [Outcomes.goesOn, hpreflight])
      simpa [hafter, executedOf, hexecutes] using ih (attempts.reject candidate index e false) log
    | ok found =>
      have hexecutes := executes_iff.mpr ⟨found, hpreflight⟩
      have hlog : executedOf o [(candidate, index)] = [index] := by simp [executedOf, hexecutes]
      cases hadapter : o.adapter index with
      | ok response =>
        have hend : LoopEnd o ((candidate, index) :: rest) attempts log _ :=
          .served [] rest candidate index found response rfl nofun hpreflight hadapter
        simpa [hlog] using hend
      | error e =>
        have hafter : attempts.after o (candidate, index) =
            attempts.reject candidate index e true := by
          simp [after, Outcomes.failure, hexecutes, hpreflight, hadapter]
        by_cases htrigger : e.category.isFallbackTrigger
        · apply LoopEnd.cons (by simp [Outcomes.goesOn, hpreflight, hadapter, htrigger])
          simpa [hafter, hlog, htrigger] using
            ih (attempts.reject candidate index e true) (log ++ [index])
        · have hend : LoopEnd o ((candidate, index) :: rest) attempts log _ :=
            .stopped [] rest candidate index e rfl nofun hexecutes hadapter
              (by simpa using htrigger)
          simpa [hlog, hafter, htrigger] using hend

/-! ### What the attempts leave -/

variable {index : ℕ} {e : ProviderError}

theorem failure_of_error (h : o.adapter index = .error e) :
    (o.failure index).isSome := by
  unfold Outcomes.failure
  cases o.preflight index with
  | error e => rfl
  | ok found => simp [h]

/-- A candidate that is executed and passed over failed with a fallback trigger. -/
theorem trigger_of_goesOn (h : o.goesOn index) (hexecutes : o.executes index) :
    ∃ e, o.adapter index = .error e ∧ e.category.isFallbackTrigger := by
  obtain ⟨found, hfound⟩ := executes_iff.mp hexecutes
  cases hadapter : o.adapter index with
  | error e => exact ⟨e, rfl, by simpa [Outcomes.goesOn, hfound, hadapter] using h⟩
  | ok response => simp [Outcomes.goesOn, hfound, hadapter] at h

theorem failure_of_goesOn (h : o.goesOn index) : (o.failure index).isSome := by
  cases hexecutes : o.executes index with
  | true =>
    obtain ⟨e, he, -⟩ := trigger_of_goesOn h hexecutes
    exact failure_of_error he
  | false =>
    unfold Outcomes.failure
    cases hpreflight : o.preflight index with
    | error e => rfl
    | ok found => simp [Outcomes.executes, hpreflight, Except.toOption] at hexecutes

theorem not_goesOn_of_served {response : ExecutionResponse ρ} (hexecutes : o.executes index)
    (h : o.adapter index = .ok response) : o.goesOn index = false := by
  obtain ⟨found, hfound⟩ := executes_iff.mp hexecutes
  simp [Outcomes.goesOn, hfound, h]

theorem not_goesOn_of_final (hexecutes : o.executes index)
    (h : o.adapter index = .error e) (hfinal : e.category.isFallbackTrigger = false) :
    o.goesOn index = false := by
  obtain ⟨found, hfound⟩ := executes_iff.mp hexecutes
  simp [Outcomes.goesOn, hfound, h, hfinal]

section After

variable {reached : List (ExecutionConfig × ℕ)} (attempts : Attempts)

theorem rejections_reject (candidate : ExecutionConfig) (index : ℕ)
    (e : ProviderError) (executed : Bool) :
    (attempts.reject candidate index e executed).rejections =
      attempts.rejections.insert index e.category := rfl

theorem errors_reject (candidate : ExecutionConfig) (index : ℕ)
    (e : ProviderError) (executed : Bool) :
    (attempts.reject candidate index e executed).errors = attempts.errors ++ [e] := rfl

theorem after_eq_reject (h : (o.failure entry.2).isSome)
    (attempts : Attempts) :
    ∃ e, attempts.after o entry = attempts.reject entry.1 entry.2 e (o.executes entry.2) := by
  obtain ⟨e, he⟩ := Option.isSome_iff_exists.mp h
  exact ⟨e, by simp only [after, he]⟩

section

variable (hfailed : ∀ entry ∈ reached, (o.failure entry.2).isSome) (attempts : Attempts)

include hfailed

/-- Every candidate that was reached is rejected. -/
theorem get?_foldl_after (index : ℕ) :
    ((reached.foldl (after o) attempts).rejections.get? index).isSome ↔
      (attempts.rejections.get? index).isSome ∨ index ∈ reached.map Prod.snd := by
  induction reached generalizing attempts with
  | nil => simp
  | cons entry rest ih =>
    obtain ⟨hentry, hrest⟩ := List.forall_mem_cons.mp hfailed
    obtain ⟨e, he⟩ := after_eq_reject hentry attempts
    rw [List.foldl_cons, ih hrest, he, rejections_reject, Dict.get?_insert]
    by_cases hsame : index = entry.2 <;> simp [hsame]

theorem errors_foldl_after :
    (reached.foldl (after o) attempts).errors.length =
      attempts.errors.length + reached.length := by
  induction reached generalizing attempts with
  | nil => rfl
  | cons entry rest ih =>
    obtain ⟨hentry, hrest⟩ := List.forall_mem_cons.mp hfailed
    obtain ⟨e, he⟩ := after_eq_reject hentry attempts
    rw [List.foldl_cons, ih hrest, he, errors_reject, List.length_append]
    simp only [List.length_cons, List.length_nil]
    omega

/-- The fallback path names the candidates that were executed, and only those. -/
theorem fallbackPath_foldl_after :
    (reached.foldl (after o) attempts).fallbackPath = attempts.fallbackPath ++
      (reached.filter fun entry => o.executes entry.2).filterMap
        fun entry => truthy entry.1.providerId := by
  induction reached generalizing attempts with
  | nil => simp
  | cons entry rest ih =>
    obtain ⟨hentry, hrest⟩ := List.forall_mem_cons.mp hfailed
    obtain ⟨e, he⟩ := after_eq_reject hentry attempts
    rw [List.foldl_cons, ih hrest, he]
    cases hexecutes : o.executes entry.2 with
    | false => simp [reject, hexecutes]
    | true =>
      cases hprovider : truthy entry.1.providerId with
      | none | some providerId => simp [reject, hexecutes, hprovider]

end

end After

end Loops

/-! ### The contract -/

section Contract

/-- The candidates the kill switches left, with their positions. -/
def eligibleOf (o : Outcomes ρ) (candidates : List ExecutionConfig) :
    List (ExecutionConfig × ℕ) :=
  candidates.zipIdx.filter fun entry => (o.killSwitches entry.2).toOption.isSome

/-- What is promised of the positions that are executed: they increase, so that candidates
run in universe order and at most once; kill switches and preflight let each of them pass;
and whatever is followed by another failed with a fallback trigger. -/
structure ExecutionOrder (o : Outcomes ρ) (candidates : List ExecutionConfig)
    (executed : List ℕ) : Prop where
  increasing : executed.Pairwise (· < ·)
  admitted : ∀ index ∈ executed, index < candidates.length ∧
    (o.killSwitches index).toOption.isSome ∧ (o.preflight index).toOption.isSome
  triggered : ∀ index ∈ executed.dropLast, ∃ e, o.adapter index = .error e ∧
    e.category.isFallbackTrigger

/-- What is promised of an ending and the positions that were executed. -/
structure RoutingContract (o : Outcomes ρ) (candidates : List ExecutionConfig)
    (ending : Except GatewayError (ExecutionResponse ρ)) (executed : List ℕ) : Prop
    extends ExecutionOrder o candidates executed where
  /-- A response, or `ProviderGatewayUnavailableError`. -/
  raises : ∀ error, ending = .error error → ∃ detail decision, error = .unavailable detail decision
  /-- The fallback path of a response names what was executed and failed before the server. -/
  path : ∀ response, ending = .ok response → ∃ failed server decision,
    executed = failed ++ [server] ∧ response.routingDecision = some decision ∧
    (∀ index ∈ failed, ∃ e, o.adapter index = .error e) ∧ (∃ r, o.adapter server = .ok r) ∧
    decision.fallbackPath = failed.filterMap fun index =>
      candidates[index]?.bind fun candidate => truthy candidate.providerId
  /-- A refusal lists every candidate with the reason it was rejected for. -/
  refusal : ∀ detail decision, ending = .error (.unavailable detail decision) →
    decision.candidates.length = candidates.length ∧
    ∀ candidate ∈ decision.candidates, candidate.rejectionReason.isSome

/-- No candidate is left, and the exclusion that is to say why is one of missing connection
material, which `_FAILURE_BY_UNIVERSE_EXCLUSION` does not know. -/
def Unexplained (request : OrderedRequest) : Prop :=
  request.candidates = [] ∧ ∃ exclusion,
    firstPolicyIdentityExclusion request.candidateUniverse = some exclusion ∧
    exclusion.reason = .connectionMaterialMissing

/-- Quota and budget permit, and the first eligible candidate behind which the loop does not
go on fails with further candidates behind it. -/
def Strands (o : Outcomes ρ) (candidates : List ExecutionConfig) : Prop :=
  o.quota.toOption.isSome ∧ o.budget.toOption.isSome ∧ ∃ entry rest e,
    (eligibleOf o candidates).dropWhile (fun entry => o.goesOn entry.2) = entry :: rest ∧
    rest ≠ [] ∧ o.adapter entry.2 = .error e

variable {o : Outcomes ρ} {candidates : List ExecutionConfig} {index : ℕ}
  {passed rest : List (ExecutionConfig × ℕ)} {candidate : ExecutionConfig}
  {context : RoutingContext} {now : String} {vetoes : Vetoes} {reached : List (ExecutionConfig × ℕ)}

theorem mem_eligibleOf :
    (candidate, index) ∈ eligibleOf o candidates ↔
      candidates[index]? = some candidate ∧ (o.killSwitches index).toOption.isSome := by
  simp [eligibleOf, List.mem_zipIdx_iff_getElem?]

/-- Positions increase along the eligible candidates. -/
theorem eligibleOf_increasing (o : Outcomes ρ) (candidates : List ExecutionConfig) :
    ((eligibleOf o candidates).map Prod.snd).Pairwise (· < ·) := by
  have hall : (candidates.zipIdx.map Prod.snd).Pairwise (· < ·) := by
    rw [List.zipIdx_map_snd]
    exact List.pairwise_lt_range'
  exact hall.sublist (List.filter_sublist.map Prod.snd)

/-! #### The executed positions -/

theorem mem_executedOf :
    index ∈ executedOf o reached ↔
      ∃ candidate, (candidate, index) ∈ reached ∧ o.executes index := by
  simp [executedOf]

theorem ExecutionOrder.nil : ExecutionOrder o candidates [] :=
  ⟨List.Pairwise.nil, nofun, nofun⟩

/-- The order of the eligible candidates is that of the executed ones, wherever the loop
stops. -/
theorem ExecutionOrder.of_reached
    (rest : List (ExecutionConfig × ℕ)) (hsplit : eligibleOf o candidates = reached ++ rest)
    (htriggered : ∀ index ∈ (executedOf o reached).dropLast, o.goesOn index) :
    ExecutionOrder o candidates (executedOf o reached) where
  increasing := by
    have hsublist : (executedOf o reached).Sublist ((eligibleOf o candidates).map Prod.snd) := by
      rw [hsplit]
      exact (List.filter_sublist.trans (List.sublist_append_left reached rest)).map Prod.snd
    exact (eligibleOf_increasing o candidates).sublist hsublist
  admitted index hmem := by
    obtain ⟨candidate, hreached, hexecutes⟩ := mem_executedOf.mp hmem
    have heligible : (candidate, index) ∈ eligibleOf o candidates := by
      rw [hsplit]
      exact List.mem_append_left rest hreached
    obtain ⟨hget, hkill⟩ := mem_eligibleOf.mp heligible
    exact ⟨(List.getElem?_eq_some_iff.mp hget).1, hkill, hexecutes⟩
  triggered index hmem := by
    obtain ⟨candidate, _, hexecutes⟩ := mem_executedOf.mp ((List.dropLast_sublist _).subset hmem)
    exact trigger_of_goesOn (htriggered index hmem) hexecutes

theorem executedOf_concat (passed : List (ExecutionConfig × ℕ)) (candidate : ExecutionConfig)
    (hexecutes : o.executes index) :
    executedOf o (passed ++ [(candidate, index)]) = executedOf o passed ++ [index] := by
  simp [executedOf, hexecutes]

/-- Whatever ends the loop, the order is kept. -/
theorem ExecutionOrder.of_split
    (hsplit : eligibleOf o candidates = passed ++ (candidate, index) :: rest)
    (hgoes : ∀ entry ∈ passed, o.goesOn entry.2) (hexecutes : o.executes index) :
    ExecutionOrder o candidates (executedOf o (passed ++ [(candidate, index)])) := by
  apply ExecutionOrder.of_reached rest
  · rw [hsplit, List.append_assoc, List.singleton_append]
  · intro position hmem
    rw [executedOf_concat passed candidate hexecutes, List.dropLast_concat] at hmem
    obtain ⟨passedCandidate, hpassed, -⟩ := mem_executedOf.mp hmem
    exact hgoes _ hpassed

/-! #### Refusals -/

/-- A refusal with the last of some errors, over given rejections, keeps the contract exactly
if every position is rejected. -/
theorem refuseWithLast_iff {errors : List ProviderError} {rejections : Dict ℕ FailureCategory}
    {fallbackPath : List String} {executed : List ℕ} (herrors : errors ≠ [])
    (horder : ExecutionOrder o candidates executed) :
    RoutingContract o candidates
        (.error (refuseWithLast context errors candidates rejections fallbackPath now)) executed ↔
      ∀ index < candidates.length, (rejections.get? index).isSome := by
  obtain ⟨error, herror⟩ := Option.isSome_iff_exists.mp (List.getLast?_isSome.mpr herrors)
  simp only [refuseWithLast, herror, orderedRefusal]
  have hcandidates : ∀ decision, decision = buildOrderedRoutingDecision context
      (withRejections candidates rejections) none fallbackPath now →
      decision.candidates.length = candidates.length ∧
      ((∀ candidate ∈ decision.candidates, candidate.rejectionReason.isSome) ↔
        ∀ index < candidates.length, (rejections.get? index).isSome) := by
    rintro _ rfl
    constructor
    · simp [buildOrderedRoutingDecision, withRejections]
    · simp only [buildOrderedRoutingDecision, withRejections, routingCandidate, List.mem_map,
        Prod.exists, List.mem_zipIdx_iff_getElem?]
      constructor
      · intro hall index hlt
        exact hall _ ⟨candidates[index], _, ⟨_, index, List.getElem?_eq_getElem hlt, rfl⟩, rfl⟩
      · rintro hall _ ⟨candidate, _, ⟨_, index, hget, heq⟩, rfl⟩
        cases heq
        exact hall index (List.getElem?_eq_some_iff.mp hget).1
  constructor
  · intro hcontract
    obtain ⟨-, hreasons⟩ := hcontract.refusal _ _ rfl
    exact (hcandidates _ rfl).2.mp hreasons
  · intro hall
    refine { toExecutionOrder := horder, raises := ?_, path := ?_, refusal := ?_ }
    · rintro _ ⟨⟩
      exact ⟨_, _, rfl⟩
    · rintro _ ⟨⟩
    · rintro _ _ ⟨⟩
      exact ⟨(hcandidates _ rfl).1, (hcandidates _ rfl).2.mpr hall⟩

theorem get?_rejectAll (eligible : List (ExecutionConfig × ℕ)) (category : FailureCategory)
    (rejections : Dict ℕ FailureCategory) (index : ℕ) :
    ((rejectAll eligible category rejections).get? index).isSome ↔
      (rejections.get? index).isSome ∨ index ∈ eligible.map Prod.snd := by
  induction eligible generalizing rejections with
  | nil => simp [rejectAll]
  | cons entry rest ih =>
    rw [rejectAll, List.foldl_cons, ← rejectAll, ih, Dict.get?_insert]
    by_cases hsame : index = entry.2 <;> simp [hsame]

/-- What the kill switches leave: the eligible candidates, and a rejection for every other
position. -/
structure Vetoed (o : Outcomes ρ) (candidates : List ExecutionConfig) (vetoes : Vetoes) :
    Prop where
  eligible : vetoes.eligible = eligibleOf o candidates
  rejections : ∀ index < candidates.length, (vetoes.rejections.get? index).isSome ↔
    index ∉ (eligibleOf o candidates).map Prod.snd
  errors : candidates ≠ [] → vetoes.eligible = [] → vetoes.errors ≠ []

theorem vetoed_run (o : Outcomes ρ) (candidates : List ExecutionConfig) (log : List ℕ) :
    ∃ vetoes, (vetoLoop o.controls candidates.zipIdx ⟨.empty, [], []⟩).run log = (vetoes, log) ∧
      Vetoed o candidates vetoes := by
  obtain ⟨vetoes, hrun, heligible, hrejections, herrors⟩ :=
    vetoLoop_run o candidates.zipIdx ⟨.empty, [], []⟩ log
  have heligible' : vetoes.eligible = eligibleOf o candidates := by
    simpa [eligibleOf] using heligible
  refine ⟨vetoes, hrun, ⟨heligible', ?_, ?_⟩⟩
  · intro index hlt
    have hget : candidates[index]? = some candidates[index] := List.getElem?_eq_getElem hlt
    rw [hrejections]
    simp [mem_eligibleOf, List.mem_zipIdx_iff_getElem?, hget]
  · intro hne hnone
    obtain ⟨candidate, rest, hcons⟩ := List.exists_cons_of_ne_nil hne
    have hfirst : (candidate, 0) ∉ eligibleOf o candidates := by
      rw [← heligible', hnone]
      exact List.not_mem_nil
    -- the first candidate is vetoed, so its error was noted
    intro hempty
    have hpass := (herrors.mp hempty).2 (candidate, 0) (by simp [hcons])
    exact hfirst (mem_eligibleOf.mpr ⟨by simp [hcons], hpass⟩)

/-! #### The gateway -/

/-- Quota, then budget. -/
def Outcomes.economics (o : Outcomes ρ) : Except ProviderError Unit := do
  o.quota
  o.budget

variable {request : OrderedRequest}

/-- The checks of the request as a whole read the outcomes in order and execute nothing. -/
theorem economics_run (log : List ℕ) :
    StateT.run (ExceptT.run do
      ExceptT.mk o.controls.enforceProviderQuota
      ExceptT.mk o.controls.enforceProviderBudget) log = (o.economics, log) := by
  unfold Outcomes.economics
  cases hquota : o.quota with
  | error e | ok => simp [Outcomes.controls, hquota]; rfl

theorem serveEligible_run (vetoes : Vetoes) (log : List ℕ) :
    (serveEligible o.controls request vetoes).run log =
      match o.economics with
      | .error e => (.error (refuseWithLast request.context [e] request.candidates
          (rejectAll vetoes.eligible e.category vetoes.rejections) [] o.now), log)
      | .ok _ =>
        let out := (attemptLoop o.controls vetoes.eligible ⟨vetoes.rejections, [], []⟩).run log
        (match out.1.1 with
          | some (serving, response) => .ok (stampResponse response serving.entry
              (buildOrderedRoutingDecision request.context
                (withRejections request.candidates out.1.2.rejections) (some serving)
                out.1.2.fallbackPath o.now))
          | none => .error (refuseWithLast request.context out.1.2.errors request.candidates
              out.1.2.rejections out.1.2.fallbackPath o.now), out.2) := by
  unfold serveEligible
  rw [StateT.run_bind, economics_run]
  cases heconomics : o.economics with
  | error e => rfl
  | ok =>
    refine (StateT.run_bind (attemptLoop o.controls vetoes.eligible ⟨vetoes.rejections, [], []⟩)
      _ log).trans ?_
    generalize (attemptLoop o.controls vetoes.eligible ⟨vetoes.rejections, [], []⟩).run log = out
    obtain ⟨⟨served, attempts⟩, log'⟩ := out
    cases served with
    | none | some serving => rfl

/-! #### When the contract is kept -/

theorem routingContract_empty_iff {candidateUniverse : CandidateUniverse} :
    RoutingContract o [] (.error (emptyUniverseRefusal context candidateUniverse now)) [] ↔
      ¬ ∃ exclusion, firstPolicyIdentityExclusion candidateUniverse = some exclusion ∧
        exclusion.reason = .connectionMaterialMissing := by
  -- with a category at hand the refusal lists no candidate, and that is all of them
  have hkept : ∀ error, (∃ detail decision, error = GatewayError.unavailable detail decision ∧
      decision.candidates = []) → RoutingContract o [] (.error error) [] := by
    rintro _ ⟨detail, decision, rfl, hnone⟩
    refine { toExecutionOrder := .nil, raises := ?_, path := ?_, refusal := ?_ }
    · rintro _ ⟨⟩
      exact ⟨_, _, rfl⟩
    · rintro _ ⟨⟩
    · rintro _ _ ⟨⟩
      simp [hnone]
  cases hfirst : firstPolicyIdentityExclusion candidateUniverse with
  | none =>
    have hcontract := hkept (emptyUniverseRefusal context candidateUniverse now) (by
      simp only [emptyUniverseRefusal, hfirst]
      exact ⟨_, _, rfl, rfl⟩)
    simpa using hcontract
  | some exclusion =>
    cases hreason : exclusion.reason with
    | connectionMaterialMissing =>
      simp only [Option.some.injEq, exists_eq_left', hreason, not_true_eq_false, iff_false]
      intro hcontract
      obtain ⟨_, _, hraised⟩ := hcontract.raises _ rfl
      simp [emptyUniverseRefusal, hfirst, hreason, failureByUniverseExclusion] at hraised
    | modelNotCatalogued | lifecycleIneligible | policyExcluded =>
      have hcontract := hkept (emptyUniverseRefusal context candidateUniverse now) (by
        simp only [emptyUniverseRefusal, hfirst, hreason, failureByUniverseExclusion]
        exact ⟨_, _, rfl, rfl⟩)
      simpa [hreason] using hcontract

theorem economics_eq_ok : o.economics = .ok () ↔
    o.quota.toOption.isSome ∧ o.budget.toOption.isSome := by
  unfold Outcomes.economics
  cases hquota : o.quota with
  | error e => simp [Except.toOption, bind, Except.bind]
  | ok =>
    cases hbudget : o.budget with
    | error e | ok => simp [Except.toOption, bind, Except.bind]

/-- Behind the kill switches, every position is rejected exactly if every eligible candidate
was reached. -/
theorem accounted_iff (hvetoed : Vetoed o candidates vetoes)
    (hfailed : ∀ entry ∈ reached, (o.failure entry.2).isSome)
    (hsplit : eligibleOf o candidates = reached ++ rest) :
    (∀ index < candidates.length, ((reached.foldl (after o)
      ⟨vetoes.rejections, [], []⟩).rejections.get? index).isSome) ↔ rest = [] := by
  simp only [get?_foldl_after hfailed]
  constructor
  · intro hall
    by_contra hrest
    obtain ⟨⟨candidate, index⟩, more, rfl⟩ := List.exists_cons_of_ne_nil hrest
    have hmem : (candidate, index) ∈ eligibleOf o candidates := by simp [hsplit]
    have hlt := (List.getElem?_eq_some_iff.mp (mem_eligibleOf.mp hmem).1).1
    have hincreasing := eligibleOf_increasing o candidates
    rw [hsplit, List.map_append, List.pairwise_append] at hincreasing
    cases hall index hlt with
    | inl hveto =>
      exact (hvetoed.rejections index hlt).mp hveto (List.mem_map_of_mem hmem)
    | inr hreached =>
      exact lt_irrefl index (hincreasing.2.2 index hreached index (by simp))
  · rintro rfl index hlt
    by_cases heligible : index ∈ (eligibleOf o candidates).map Prod.snd
    · exact .inr (by simpa [hsplit] using heligible)
    · exact .inl ((hvetoed.rejections index hlt).mpr heligible)

theorem dropWhile_of_split
    (hgoes : ∀ entry ∈ passed, o.goesOn entry.2) (hstop : o.goesOn entry.2 = false) :
    (passed ++ entry :: rest).dropWhile (fun entry => o.goesOn entry.2) = entry :: rest := by
  rw [List.dropWhile_append_of_pos hgoes, List.dropWhile_cons_of_neg (by simp [hstop])]

/-- The fallback path read off the executed positions. -/
theorem fallbackPath_eq (hsplit : eligibleOf o candidates = passed ++ rest)
    (hfailed : ∀ entry ∈ passed, (o.failure entry.2).isSome) (rejections : Dict ℕ FailureCategory) :
    (passed.foldl (after o) ⟨rejections, [], []⟩).fallbackPath =
      (executedOf o passed).filterMap fun index =>
        candidates[index]?.bind fun candidate => truthy candidate.providerId := by
  rw [fallbackPath_foldl_after hfailed, List.nil_append, executedOf, List.filterMap_map]
  apply List.filterMap_congr
  intro entry hmem
  have heligible : entry ∈ eligibleOf o candidates := by
    rw [hsplit]
    exact List.mem_append_left rest (List.mem_of_mem_filter hmem)
  have hget := (mem_eligibleOf.mp heligible).1
  simp [hget]

/-- The part behind the kill switches keeps the contract exactly if it strands nobody. -/
theorem routingContract_serveEligible_iff (hvetoed : Vetoed o request.candidates vetoes)
    (hne : vetoes.eligible ≠ []) :
    RoutingContract o request.candidates ((serveEligible o.controls request vetoes).run []).1
      ((serveEligible o.controls request vetoes).run []).2 ↔ ¬ Strands o request.candidates := by
  rw [serveEligible_run]
  cases heconomics : o.economics with
  | error e =>
    have hnot : ¬ Strands o request.candidates := by
      rintro ⟨hquota, hbudget, -⟩
      rw [economics_eq_ok.mpr ⟨hquota, hbudget⟩] at heconomics
      cases heconomics
    refine iff_of_true ((refuseWithLast_iff (by simp) .nil).mpr ?_) hnot
    intro index hlt
    rw [get?_rejectAll, hvetoed.eligible, hvetoed.rejections index hlt]
    exact (em _).symm
  | ok =>
    obtain ⟨hquota, hbudget⟩ := economics_eq_ok.mp heconomics
    have hend := attemptLoop_end (o := o) vetoes.eligible ⟨vetoes.rejections, [], []⟩ []
    generalize (attemptLoop o.controls vetoes.eligible ⟨vetoes.rejections, [], []⟩).run [] = out
      at hend ⊢
    rw [hvetoed.eligible] at hend hne
    cases hend with
    | exhausted hgoes =>
      have hfailed : ∀ entry ∈ eligibleOf o request.candidates, (o.failure entry.2).isSome :=
        fun entry hmem => failure_of_goesOn (hgoes entry hmem)
      have horder : ExecutionOrder o request.candidates
          (executedOf o (eligibleOf o request.candidates)) := by
        apply ExecutionOrder.of_reached [] (List.append_nil _).symm
        intro index hmem
        obtain ⟨candidate, heligible, -⟩ := mem_executedOf.mp ((List.dropLast_sublist _).subset hmem)
        exact hgoes _ heligible
      have hnot : ¬ Strands o request.candidates := by
        rintro ⟨-, -, entry, rest, e, hdrop, -⟩
        rw [List.dropWhile_eq_nil_iff.mpr hgoes] at hdrop
        cases hdrop
      refine iff_of_true ((refuseWithLast_iff ?_ horder).mpr ?_) hnot
      · rw [← List.length_pos_iff, errors_foldl_after hfailed]
        have := List.length_pos_iff.mpr hne
        omega
      · exact (accounted_iff hvetoed hfailed (List.append_nil _).symm).mpr rfl
    | served passed rest candidate index found response hsplit hgoes hpreflight hadapter =>
      have hexecutes := executes_iff.mpr ⟨found, hpreflight⟩
      have hfailed : ∀ entry ∈ passed, (o.failure entry.2).isSome :=
        fun entry hmem => failure_of_goesOn (hgoes entry hmem)
      have hnot : ¬ Strands o request.candidates := by
        rintro ⟨-, -, entry, more, e, hdrop, -, herror⟩
        rw [hsplit, dropWhile_of_split hgoes (not_goesOn_of_served hexecutes hadapter)] at hdrop
        cases hdrop
        rw [hadapter] at herror
        cases herror
      refine iff_of_true ?_ hnot
      refine { toExecutionOrder := .of_split hsplit hgoes hexecutes, raises := ?_, path := ?_,
               refusal := ?_ }
      · rintro _ ⟨⟩
      · rintro _ ⟨⟩
        refine ⟨executedOf o passed, index, _, executedOf_concat passed candidate hexecutes, rfl,
          ?_, ⟨response, hadapter⟩, ?_⟩
        · intro position hmem
          obtain ⟨passedCandidate, hpassed, hran⟩ := mem_executedOf.mp hmem
          obtain ⟨e, he, -⟩ := trigger_of_goesOn (hgoes _ hpassed) hran
          exact ⟨e, he⟩
        · exact fallbackPath_eq hsplit hfailed vetoes.rejections
      · rintro _ _ ⟨⟩
    | stopped passed rest candidate index e hsplit hgoes hexecutes hadapter hfinal =>
      have hreached : eligibleOf o request.candidates = (passed ++ [(candidate, index)]) ++ rest := by
        rw [hsplit, List.append_assoc, List.singleton_append]
      have hfailed : ∀ entry ∈ passed ++ [(candidate, index)], (o.failure entry.2).isSome := by
        intro entry hmem
        cases List.mem_append.mp hmem with
        | inl hpassed => exact failure_of_goesOn (hgoes entry hpassed)
        | inr hlast =>
          obtain rfl := List.mem_singleton.mp hlast
          exact failure_of_error hadapter
      have hstrands : Strands o request.candidates ↔ rest ≠ [] := by
        unfold Strands
        rw [hsplit, dropWhile_of_split hgoes (not_goesOn_of_final hexecutes hadapter hfinal)]
        constructor
        · rintro ⟨-, -, entry, more, error, heq, hmore, -⟩
          cases heq
          exact hmore
        · intro hrest
          exact ⟨hquota, hbudget, (candidate, index), rest, e, rfl, hrest, hadapter⟩
      rw [hstrands, not_not, ← accounted_iff hvetoed hfailed hreached]
      refine refuseWithLast_iff ?_ (.of_split hsplit hgoes hexecutes)
      rw [← List.length_pos_iff, errors_foldl_after hfailed]
      simp

section Authorized

variable (hallowed : request.authorization.allowed = true) (hfindings : request.findings = [])
  (halternate : request.alternate = true)

include hallowed hfindings halternate

theorem execute_of_candidates_eq_nil (o : Outcomes ρ) (hempty : request.candidates = []) :
    o.execute request =
      (.error (emptyUniverseRefusal request.context request.candidateUniverse o.now), []) := by
  simp [Outcomes.execute, executeOrderedFallback, hallowed, hfindings, halternate, hempty,
    Outcomes.controls]
  rfl

theorem execute_of_candidates_ne_nil (o : Outcomes ρ) (hne : request.candidates ≠ []) :
    ∃ vetoes, Vetoed o request.candidates vetoes ∧ o.execute request =
      if vetoes.eligible = [] then
        (.error (refuseWithLast request.context vetoes.errors request.candidates
          vetoes.rejections [] o.now), [])
      else (serveEligible o.controls request vetoes).run [] := by
  obtain ⟨vetoes, hrun, hvetoed⟩ := vetoed_run o request.candidates []
  refine ⟨vetoes, hvetoed, ?_⟩
  simp only [Outcomes.execute, executeOrderedFallback, hallowed, hfindings, halternate, hne,
    StateT.run_bind, hrun, ne_eq, not_true_eq_false, Bool.true_eq_false, or_self, if_false]
  change StateT.run (if vetoes.eligible = [] then _ else _) [] = _
  by_cases hnone : vetoes.eligible = []
  · rw [if_pos hnone, if_pos hnone]
    rfl
  · rw [if_neg hnone, if_neg hnone]

end Authorized

/-! #### Requests -/

def productionEntry (providerId candidateIdV2 : String) : CatalogueEntry where
  entryId := s!"{providerId}:m1"
  candidateIdV2 := candidateIdV2
  providerMode := "live"
  modelRevision := "m1"
  revisionPinned := true
  lifecycleState := .production

/-- A catalogue of two providers, ordered by policy. -/
def pairUniverse (hasMaterial : String → Bool) : CandidateUniverse :=
  deriveCandidateUniverse [productionEntry "p" "cand2_p", productionEntry "q" "cand2_q"]
    ["cand2_p", "cand2_q"] (some 1) hasMaterial "live"

/-- An authorized request over a universe. -/
def requestOver (candidateUniverse : CandidateUniverse) : OrderedRequest where
  authorization := ⟨"caller", true, "authorized"⟩
  findings := []
  alternate := true
  config := ⟨some "p", some "m1", none, none⟩
  modeValue := "live"
  requirements := none
  candidateUniverse := candidateUniverse
  connection
    | "cand2_p" => some ⟨some "p", some "m1", none, none⟩
    | "cand2_q" => some ⟨some "q", some "m1", none, none⟩
    | _ => none

/-- Every step permits, the first adapter fails with a category and the second serves. -/
def firstFails (category : FailureCategory) : Outcomes Unit where
  killSwitches _ := .ok ()
  quota := .ok ()
  budget := .ok ()
  deadline _ := .ok ()
  breaker _ := .ok ()
  bind index := .ok (productionEntry (if index = 0 then "p" else "q") "")
  capability _ := .ok ()
  adapter
    | 0 => .error ⟨category, ""⟩
    | _ => .ok ⟨(), none, none, none, none, none⟩
  now := "now"

/-- The request with connection material for both identities, or for neither. -/
def pairRequest (hasMaterial : Bool) : OrderedRequest :=
  requestOver (pairUniverse fun _ => hasMaterial)

end Contract

end LotusAI.Provider
