import LotusAI.Governance.Protocol

/-!
# Calls as steps of the protocol

Each call of a governed-action service is a step of the protocol, provided the
session knows what the step asks for. The rules below say what a session may assume
after a call: what it has read stays true of the request it read, what it has won
stays in the history, and an identifier it drew stays its own.
-/

namespace LotusAI.Governance

open Lib Protocol

variable {ι : Type} {sha256 : String → String} {sessions : ι → Session}
  {ok : ι → World ι → Call → Prop} {i : ι} {w w' : World ι}

/-! ### Writes keep the invariant -/

namespace Ledger

variable (h : Ledger sha256 sessions w)

include h

theorem observe (hobs : Observes w w') :
    Ledger sha256 sessions w' where
  keyed actionId record hget := h.keyed actionId record (hobs.actions ▸ hget)
  known actionId record hget := (h.known actionId record (hobs.actions ▸ hget)).mono hobs.absent
  issued actionId record hget := hobs.issued ▸ h.issued actionId record (hobs.actions ▸ hget)
  unique := hobs.issued ▸ h.unique
  recorded actionId := by rw [hobs.actions, hobs.history, h.recorded]

variable {actionId : String} {record : GovernedActionRecord}

theorem issue (fresh : actionId ∉ w.issued.map Prod.fst) :
    Ledger sha256 sessions (w.issue i actionId) where
  keyed := h.keyed
  known actionId' record hget := (h.known actionId' record hget).mono fun _ hread => hread
  issued actionId' record hget := .tail _ (h.issued actionId' record hget)
  unique := List.nodup_cons.mpr ⟨fresh, h.unique⟩
  recorded := h.recorded

theorem start (record : GovernedActionRecord) :
    Ledger sha256 sessions (w.start i record) where
  keyed := h.keyed
  known actionId stored hget := (h.known actionId stored hget).mono fun _ hread => hread
  issued := h.issued
  unique := h.unique
  recorded actionId := by
    exact h.recorded actionId

/-- Writing a well-formed record under its own, issued identifier keeps the invariant. -/
theorem write {event : Event ι}
    (hwrite : event.write? = some (i, record)) (hid : record.actionId = actionId)
    (hissued : actionId ∈ w.issued.map Prod.fst) (hknown : Known sha256 sessions w record) :
    Ledger sha256 sessions { w with actions := w.actions.insert actionId record,
                                    history := event :: w.history } where
  keyed := Dict.forall_insert hid h.keyed
  known := Dict.forall_insert (hknown.mono fun _ hread => hread) fun actionId' record' hget =>
    (h.known actionId' record' hget).mono fun _ hread => hread
  issued := Dict.forall_insert hissued h.issued
  unique := h.unique
  recorded actionId' := by
    rw [Dict.get?_insert, lastWrite_cons, Event.writes?, hwrite, Option.filter_some]
    by_cases hsame : actionId' = actionId
    · subst hsame
      simp [hid]
    · have hother : record.actionId ≠ actionId' := fun heq => hsame (heq.symm.trans hid)
      simpa [hsame, hother] using h.recorded actionId'

theorem store
    (owns : Owns i w record.actionId) (hknown : Known sha256 sessions w record) :
    Ledger sha256 sessions (w.store i record) :=
  h.write rfl rfl (List.mem_map_of_mem owns.1) hknown

theorem move {before after : GovernedActionRecord} (hbefore : w.actions.get? actionId = some before)
    (same : after.toGovernedActionRequest = before.toGovernedActionRequest)
    (hknown : Known sha256 sessions w after) :
    Ledger sha256 sessions (w.move i actionId before after) := by
  have hid : after.actionId = actionId :=
    (congrArg GovernedActionRequest.actionId same).trans (h.keyed _ _ hbefore)
  exact h.write rfl hid (h.issued _ _ hbefore) hknown

end Ledger

/-! ### Single calls -/

section Calls

variable {β : Type} {Fact : β → World ι → Prop} {call : Call}

/-- A call that writes nothing. -/
theorem ensures_observation {f : call.Answer → Service β}
    (hobserves : ∀ w w' r, call.Outcome i w w' r → Observes w w')
    (h : ∀ w₁ w₂ r, Ledger sha256 sessions w₁ → Follows i w w₁ → call.Outcome i w₁ w₂ r →
      Ledger sha256 sessions w₂ → Follows i w w₂ →
      Assures sha256 sessions ok i (f r) Fact w₂) :
    Assures sha256 sessions ok i (ask call >>= f) Fact w := by
  apply ensures_ask
  intro w₁ hledger hfollows _ choice r w₂ hexec
  have houtcome := Call.outcome_of_exec hexec
  have hobs := hobserves w₁ w₂ r houtcome
  have hledger₂ := hledger.observe hobs
  exact ⟨hledger₂, .observe hobs,
    h w₁ w₂ r hledger hfollows houtcome hledger₂ (hfollows.trans hobs.follows)⟩

theorem observes_rfl (w : World ι) : Observes w w :=
  ⟨rfl, rfl, rfl, fun _ h => h, fun _ h => .inl h⟩

theorem observes_tick (w : World ι) (now : String) : Observes w (w.tick now) :=
  ⟨rfl, rfl, rfl, fun _ h => h, fun _ h => .inl h⟩

variable {actionId : String} {record : GovernedActionRecord} {f : String → Service β}

theorem observes_noteAbsent (h : w.actions.get? actionId = none) :
    Observes w (w.noteAbsent i actionId) where
  actions := rfl
  history := rfl
  issued := rfl
  absent _ hread := .tail _ hread
  missing read hread := by
    rcases List.mem_cons.mp hread with rfl | hread
    · exact .inr h
    · exact .inl hread

/-- A call that leaves the store untouched. -/
theorem ensures_quiet {f : call.Answer → Service β}
    (hquiet : ∀ w w' r, call.Outcome i w w' r → w' = w)
    (h : ∀ w₁ r, Ledger sha256 sessions w₁ → Follows i w w₁ → call.Outcome i w₁ w₁ r →
      Assures sha256 sessions ok i (f r) Fact w₁) :
    Assures sha256 sessions ok i (ask call >>= f) Fact w := by
  apply ensures_observation
  · intro w w' r houtcome
    exact hquiet w w' r houtcome ▸ observes_rfl w
  · intro w₁ w₂ r hledger hfollows houtcome _ _
    obtain rfl := hquiet w₁ w₂ r houtcome
    exact h w₂ r hledger hfollows houtcome

theorem ensures_utcNowIso
    (h : ∀ w' now, Ledger sha256 sessions w' → Follows i w w' →
      Assures sha256 sessions ok i (f now) Fact w') :
    Assures sha256 sessions ok i (ask .utcNowIso >>= f) Fact w := by
  apply ensures_observation
  · rintro w w' now rfl
    exact observes_tick w now
  · intro w₁ w₂ now _ _ _ hledger hfollows
    exact h w₂ now hledger hfollows

theorem ensures_getGovernedAction {f : Option GovernedActionRecord → Service β}
    (found : ∀ w' record, Ledger sha256 sessions w' → Follows i w w' →
      w'.actions.get? actionId = some record →
      Assures sha256 sessions ok i (f (some record)) Fact w')
    (missing : ∀ w', Ledger sha256 sessions w' → Follows i w w' → (i, actionId) ∈ w'.absentReads →
      Assures sha256 sessions ok i (f none) Fact w') :
    Assures sha256 sessions ok i (ask (.getGovernedAction actionId) >>= f) Fact w := by
  apply ensures_observation
  · rintro w w' answer ⟨rfl, rfl⟩
    split_ifs with hnone
    · exact observes_noteAbsent hnone
    · exact observes_rfl w
  · rintro w₁ w₂ answer _ _ ⟨hanswer, hw₂⟩ hledger hfollows
    cases answer with
    | none =>
      apply missing w₂ hledger hfollows
      rw [hw₂, if_pos rfl]
      exact .head _
    | some record =>
      obtain rfl : w₂ = w₁ := by simpa using hw₂
      exact found w₂ record hledger hfollows hanswer.symm

/-- A compare-and-set: lost, or won with the record in the history. -/
theorem ensures_transition {expectedStatus : GovernedActionStatus}
    {expectedClaimedAt : Option String} {f : Bool → Service β}
    (known : Known sha256 sessions w record)
    (present : Present w actionId record.toGovernedActionRequest)
    (legal : ∀ w' before, Ledger sha256 sessions w' → Follows i w w' →
      w'.actions.get? actionId = some before → before.status = expectedStatus →
      (expectedClaimedAt.isSome → before.claimedAt = expectedClaimedAt) →
      Legal i w' before record)
    (lost : ∀ w', Ledger sha256 sessions w' → Follows i w w' →
      Assures sha256 sessions ok i (f false) Fact w')
    (won : ∀ w', Ledger sha256 sessions w' → Follows i w w' → Won i w' record →
      Assures sha256 sessions ok i (f true) Fact w') :
    Assures sha256 sessions ok i
      (ask (.transitionGovernedAction actionId expectedStatus record expectedClaimedAt) >>= f)
      Fact w := by
  apply ensures_ask
  intro w₁ hledger hfollows hok choice r w₂ hexec
  rcases Call.outcome_of_exec hexec with ⟨rfl, rfl⟩ | ⟨rfl, before, hadmits, rfl⟩
  · exact ⟨hledger, .observe (observes_rfl _), lost _ hledger hfollows⟩
  · obtain ⟨hbefore, hstatus, hclaimedAt⟩ := World.admits_eq_some hadmits
    -- what was read and what is replaced have one request
    obtain ⟨stored, hstored, hsame⟩ := hfollows.present _ _ present
    obtain rfl := Option.mem_unique hbefore hstored
    have hledger₂ := hledger.move (i := i) hbefore hsame.symm (known.mono hfollows.absent)
    refine ⟨hledger₂, .move actionId expectedStatus before record expectedClaimedAt hok hadmits
      hsame.symm (legal w₁ before hledger hfollows hbefore hstatus hclaimedAt), ?_⟩
    exact won _ hledger₂ (hfollows.trans (follows_move hbefore hsame.symm)) ⟨before, (.head _)⟩

theorem ensures_newActionId
    (h : ∀ w' actionId, Ledger sha256 sessions w' → Follows i w w' → Owns i w' actionId →
      Assures sha256 sessions ok i (f actionId) Fact w') :
    Assures sha256 sessions ok i (ask .newActionId >>= f) Fact w := by
  apply ensures_ask
  intro w₁ hledger hfollows _ choice actionId w₂ hexec
  obtain ⟨hfresh, rfl⟩ := Call.outcome_of_exec hexec
  have hledger₂ := hledger.issue (i := i) hfresh
  refine ⟨hledger₂, .issue actionId hfresh, ?_⟩
  refine h _ actionId hledger₂ (hfollows.trans follows_issue) ⟨(.head _), ?_⟩
  -- stored actions have issued identifiers
  cases hget : w₁.actions.get? actionId with
  | none => exact hget
  | some record => exact absurd (hledger.issued actionId record hget) hfresh

theorem ensures_upsertGovernedAction {f : Unit → Service β} (owns : Owns i w record.actionId)
    (known : Known sha256 sessions w record) (unclaimed : record.status ≠ .claimed)
    (h : ∀ w', Ledger sha256 sessions w' → Assures sha256 sessions ok i (f ()) Fact w') :
    Assures sha256 sessions ok i (ask (.upsertGovernedAction record) >>= f) Fact w := by
  apply ensures_ask
  intro w₁ hledger hfollows hok choice r w₂ hexec
  obtain rfl : w₂ = w₁.store i record := Call.outcome_of_exec hexec
  have howns := hfollows.owns _ owns
  have hledger₂ := hledger.store howns (known.mono hfollows.absent)
  exact ⟨hledger₂, .store record hok howns unclaimed, h _ hledger₂⟩

theorem ensures_callbackStarts {f : Unit → Service β} (won : Won i w record)
    (h : ∀ w', Ledger sha256 sessions w' → Follows i w w' →
      Assures sha256 sessions ok i (f ()) Fact w') :
    Assures sha256 sessions ok i (ask (.callbackStarts record) >>= f) Fact w := by
  apply ensures_ask
  intro w₁ hledger hfollows _ choice r w₂ hexec
  obtain rfl : w₂ = w₁.start i record := Call.outcome_of_exec hexec
  exact ⟨hledger.start record, .start record (hfollows.won won),
    h _ (hledger.start record) (hfollows.trans follows_start)⟩

end Calls

end LotusAI.Governance
