import LotusAI.Governance.FourEyes

/-!
# Single ownership of a governed effect

Resume, finalization and release all compete for a live claim by a compare-and-set
on its claim instant. Each win consumes the claim, so the instant works as a fence
exactly as long as no later claim of the same action carries it again.

A resume regenerates its instant until it differs from the one it replaces. A fresh
approval after a release does not: it stamps what the clock shows, which may be the
instant of the claim that was released. A session that still holds the released
claim then finalizes over the new owner's.
-/

namespace LotusAI.Governance

open Lib Protocol Event List World Option

variable {ι : Type} {sha256 : String → String} {sessions : ι → Session}

/-! ### Claims in a history -/

def GovernedActionRecord.isClaim (record : GovernedActionRecord) (actionId : String)
    (instant : Option String) : Bool :=
  record.status = .claimed && record.actionId = actionId && record.claimedAt = instant

/-- The event made a claim on the action with this instant. -/
def Event.claims (actionId : String) (instant : Option String) : Event ι → Bool
  | moved _ _ after => after.isClaim actionId instant
  | _ => false

/-- The event consumed such a claim: a resume rotated it, a finalization executed it, or a
release withdrew it. -/
def Event.consumes (actionId : String) (instant : Option String) : Event ι → Bool
  | moved _ before _ => before.isClaim actionId instant
  | _ => false

/-- Whether such a claim is stored. -/
def World.live (w : World ι) (actionId : String) (instant : Option String) : ℕ :=
  match w.actions.get? actionId with
  | some record => if record.isClaim actionId instant then 1 else 0
  | none => 0

/-- If the older event executed an action, a newer write of it leaves it executed. -/
def KeepsExecuted (newer older : Event ι) : Prop :=
  ∀ write later, older.write? = some write → write.2.status = .executed →
    newer.write? = some later → later.2.actionId = write.2.actionId → later.2.status = .executed

/-- Single ownership of the effect of governed actions. -/
structure SingleOwnership (w : World ι) : Prop where
  /-- The stored actions are the ones the history wrote. -/
  recorded : ∀ actionId, w.actions.get? actionId = (lastWrite w.history actionId).map Prod.snd
  /-- A callback starts only after its session won the compare-and-set for its claim. -/
  started : ∀ i record earlier, (Event.started i record :: earlier) <:+ w.history →
    ∃ before, Event.moved i before record ∈ earlier
  /-- One winner consumes each claim. -/
  consumed : ∀ actionId instant, w.history.countP (Event.consumes actionId instant) ≤ 1
  /-- A finalization replaces the claim that its own session wrote. -/
  finalized : ∀ i before after earlier, (Event.moved i before after :: earlier) <:+ w.history →
    after.status = .executed → lastWrite earlier before.actionId = some (i, before)
  /-- An executed action stays executed. -/
  final : w.history.Pairwise KeepsExecuted

/-- A compare-and-set that would make a claim carries an instant that no earlier claim of
the action had. -/
def freshInstant (_ : ι) (w : World ι) : Call → Bool
  | .transitionGovernedAction actionId expectedStatus record expectedClaimedAt =>
    !((w.admits actionId expectedStatus expectedClaimedAt).isSome && record.status = .claimed &&
      w.history.any (Event.claims actionId record.claimedAt))
  | _ => true

/-! ### Every claim is consumed at most once -/

variable {ok : ι → World ι → Call → Prop} {i : ι} {w w' : World ι}

/-- Claims consumed and the claim that is stored, against claims made. -/
def Balanced (w : World ι) : Prop :=
  ∀ actionId instant, w.history.countP (Event.consumes actionId instant) + w.live actionId instant ≤
    w.history.countP (Event.claims actionId instant)

variable {record before : GovernedActionRecord} {history : List (Event ι)}

theorem isClaim_eq_false (h : record.status ≠ .claimed) (actionId : String)
    (instant : Option String) : record.isClaim actionId instant = false := by
  simp [GovernedActionRecord.isClaim, h]

theorem live_insert (history : List (Event ι)) (record : GovernedActionRecord)
    (actionId actionId' : String) (instant : Option String) :
    live { w with actions := w.actions.insert actionId record, history := history }
        actionId' instant =
      if actionId' = actionId then (if record.isClaim actionId instant then 1 else 0)
      else w.live actionId' instant := by
  unfold live
  rw [Dict.get?_insert]
  split_ifs <;> simp_all

variable {actionId : String} {event : Event ι} {write : ι × GovernedActionRecord}

theorem live_eq (hget : w.actions.get? actionId = some record) (instant : Option String) :
    w.live actionId instant = if record.isClaim actionId instant then 1 else 0 := by
  simp [live, hget]

theorem Balanced.step (hledger : Ledger sha256 sessions w) (h : Balanced w)
    (hmove : Move ok i w w') : Balanced w' := by
  intro actionId instant
  have hbefore := h actionId instant
  cases hmove with
  | observe observes => simpa [live, observes.actions, observes.history] using hbefore
  | issue => exact hbefore
  | start => simpa [start, consumes, claims, live] using hbefore
  | store record _ owns unclaimed =>
    rw [store, live_insert]
    simp only [countP_cons, consumes, claims, isClaim_eq_false unclaimed,
      Bool.false_eq_true, if_false, Nat.add_zero]
    split_ifs
    · omega
    · exact hbefore
  | move actionId' _ before after _ _ admitted sameRequest =>
    obtain ⟨hget, -, -⟩ := admits_eq_some admitted
    have hid : before.actionId = actionId' := hledger.keyed _ _ hget
    have hid' : after.actionId = actionId' :=
      (congrArg GovernedActionRequest.actionId sameRequest).trans hid
    rw [move, live_insert]
    simp only [countP_cons, consumes, claims]
    by_cases hsame : actionId = actionId'
    · subst hsame
      rw [live_eq hget] at hbefore
      -- the replaced claim moves from stored to consumed, the new one from nothing to stored
      by_cases hwas : before.isClaim actionId instant = true <;>
        by_cases hnow : after.isClaim actionId instant = true <;>
        simp only [hwas, hnow, if_true] at hbefore ⊢ <;> omega
    · have hbefore' : before.isClaim actionId instant = false := by
        simp [GovernedActionRecord.isClaim, hid, Ne.symm hsame]
      have hafter' : after.isClaim actionId instant = false := by
        simp [GovernedActionRecord.isClaim, hid', Ne.symm hsame]
      simpa [hsame, hbefore', hafter'] using hbefore

/-- A claim is consumed at most as often as it was made. -/
theorem consumed_le (h : Balanced w) (actionId : String) (instant : Option String) :
    w.history.countP (consumes actionId instant) ≤
      w.history.countP (claims actionId instant) :=
  (Nat.le_add_right _ _).trans (h actionId instant)

/-! ### Fresh instants -/

/-- No two claims of an action carry one instant. -/
def DistinctClaims (w : World ι) : Prop :=
  ∀ actionId instant, w.history.countP (Event.claims actionId instant) ≤ 1

theorem DistinctClaims.step (hledger : Ledger sha256 sessions w) (h : DistinctClaims w)
    (hmove : Move (fun i w call => freshInstant i w call) i w w') : DistinctClaims w' := by
  intro actionId instant
  have hbefore := h actionId instant
  cases hmove with
  | observe observes => rwa [observes.history]
  | issue => exact hbefore
  | start => simpa [start, claims] using hbefore
  | store => simpa [store, claims] using hbefore
  | move actionId' expectedStatus before after expectedClaimedAt allowed admitted sameRequest =>
    rw [move, countP_cons]
    cases hclaims : after.isClaim actionId instant with
    | false => simpa [claims, hclaims] using hbefore
    | true =>
      obtain ⟨⟨hclaimed, hid⟩, hinstant⟩ : (after.status = .claimed ∧ after.actionId = actionId) ∧
          after.claimedAt = instant := by simpa [GovernedActionRecord.isClaim] using hclaims
      -- the condition on the run: nothing in the history claims with this instant
      have hkeyed : actionId' = actionId := by
        rw [← hledger.keyed _ _ (admits_eq_some admitted).1, ← hid]
        exact (congrArg GovernedActionRequest.actionId sameRequest).symm
      have hnone : w.history.countP (claims actionId instant) = 0 := by
        rw [countP_eq_zero]
        intro event hmem hevent
        have hfresh : ∀ event ∈ w.history,
            claims actionId' after.claimedAt event = false := by
          simpa [freshInstant, admitted, hclaimed] using allowed
        have := hfresh event hmem
        rw [hkeyed, hinstant, hevent] at this
        cases this
      simp [claims, hclaims, hnone]

/-- Two events of one kind are the same event when that kind occurs at most once. -/
theorem eq_of_countP_le_one {α : Type*} {p : α → Bool} {l : List α} (h : l.countP p ≤ 1) {a b : α}
    (ha : a ∈ l) (hb : b ∈ l) (hpa : p a) (hpb : p b) : a = b := by
  rw [countP_eq_length_filter] at h
  have hmem : a ∈ l.filter p := mem_filter.mpr ⟨ha, hpa⟩
  have hmem' : b ∈ l.filter p := mem_filter.mpr ⟨hb, hpb⟩
  generalize l.filter p = kept at h hmem hmem'
  match kept with
  | [] => cases hmem
  | [x] => rw [mem_singleton.mp hmem, mem_singleton.mp hmem']
  | _ :: _ :: _ => simp at h

/-! ### Histories -/

theorem writes?_eq_some :
    event.writes? actionId = some write ↔
      event.write? = some write ∧ write.2.actionId = actionId := by
  simp [writes?, filter_eq_some_iff]

/-- Once an action was executed, its latest write is an executed one. -/
theorem executed_lastWrite (hfinal : history.Pairwise KeepsExecuted) (hmem : event ∈ history)
    (hwrite : event.write? = some write) (hexecuted : write.2.status = .executed) :
    ∃ latest, lastWrite history write.2.actionId = some latest ∧ latest.2.status = .executed := by
  induction history with
  | nil => cases hmem
  | cons newest rest ih =>
    obtain ⟨hnewest, hrest⟩ := pairwise_cons.mp hfinal
    rw [lastWrite_cons]
    cases hwrites : newest.writes? write.2.actionId with
    | some latest =>
      refine ⟨latest, rfl, ?_⟩
      obtain ⟨hlatest, hid⟩ := writes?_eq_some.mp hwrites
      rcases mem_cons.mp hmem with rfl | hmem
      · obtain rfl := mem_unique hwrite hlatest
        exact hexecuted
      · exact hnewest event hmem write latest hwrite hexecuted hlatest hid
    | none =>
      rcases mem_cons.mp hmem with rfl | hmem
      · exact nomatch hwrites.symm.trans (writes?_eq_some.mpr ⟨hwrite, rfl⟩)
      · exact ih hrest hmem

theorem exists_write_of_lastWrite (h : lastWrite history actionId = some write) :
    ∃ event ∈ history, event.write? = some write := by
  obtain ⟨event, hmem, hwrites⟩ := exists_of_findSome?_eq_some h
  exact ⟨event, hmem, (writes?_eq_some.mp hwrites).1⟩

/-- What a history of fresh instants satisfies. -/
structure Owned (w : World ι) : Prop where
  started : ∀ i record earlier, (Event.started i record :: earlier) <:+ w.history →
    ∃ before, Event.moved i before record ∈ earlier
  finalized : ∀ i before after earlier, (Event.moved i before after :: earlier) <:+ w.history →
    after.status = .executed → lastWrite earlier before.actionId = some (i, before)
  final : w.history.Pairwise KeepsExecuted
  unclaimed : ∀ i record, Event.stored i record ∈ w.history → record.status ≠ .claimed

/-- A new event: the earlier ones keep what they had. -/
theorem Owned.cons (h : Owned w) (hhistory : w'.history = event :: w.history)
    (started : ∀ i record, event = .started i record →
      ∃ before, moved i before record ∈ w.history)
    (finalized : ∀ i before after, event = .moved i before after → after.status = .executed →
      lastWrite w.history before.actionId = some (i, before))
    (final : ∀ older ∈ w.history, KeepsExecuted event older)
    (unclaimed : ∀ i record, event = .stored i record → record.status ≠ .claimed) :
    Owned w' where
  started i record earlier hsuffix := by
    rw [hhistory, suffix_cons_iff] at hsuffix
    rcases hsuffix with heq | hsuffix
    · obtain ⟨rfl, rfl⟩ := cons.inj heq
      exact started i record rfl
    · exact h.started i record earlier hsuffix
  finalized i before after earlier hsuffix := by
    rw [hhistory, suffix_cons_iff] at hsuffix
    rcases hsuffix with heq | hsuffix
    · obtain ⟨rfl, rfl⟩ := cons.inj heq
      exact finalized i before after rfl
    · exact h.finalized i before after earlier hsuffix
  final := hhistory ▸ pairwise_cons.mpr ⟨final, h.final⟩
  unclaimed i record hmem := by
    rw [hhistory] at hmem
    rcases mem_cons.mp hmem with heq | hmem
    · exact unclaimed i record heq.symm
    · exact h.unclaimed i record hmem

/-- No earlier write executed an action that is now stored in another status, or not at all. -/
theorem keepsExecuted_of_not_executed (hledger : Ledger sha256 sessions w) (h : Owned w)
    {older : Event ι} (hwrite : event.write? = some write)
    (hstored : ∀ record, w.actions.get? write.2.actionId = some record →
      record.status ≠ .executed) (hmem : older ∈ w.history) : KeepsExecuted event older := by
  intro earlier later hearlier hexecuted hlater hid
  obtain rfl := mem_unique hwrite hlater
  obtain ⟨latest, hlatest, hstatus⟩ := executed_lastWrite h.final hmem hearlier hexecuted
  have hget := hledger.recorded earlier.2.actionId
  rw [hlatest, ← hid] at hget
  exact absurd hstatus (hstored latest.2 hget)

/-- The session that finalizes is the one whose claim is stored: the instants of claims
tell them apart. -/
theorem lastWrite_of_own_claim (hledger : Ledger sha256 sessions w) (h : Owned w)
    (hdistinct : DistinctClaims w) {claimed : GovernedActionRecord}
    (hget : w.actions.get? actionId = some before) (hstatus : before.status = .claimed)
    (hwon : Won i w claimed) (hclaimed : claimed.status = .claimed)
    (hid : claimed.actionId = before.actionId) (hinstant : claimed.claimedAt = before.claimedAt) :
    lastWrite w.history before.actionId = some (i, before) := by
  obtain rfl := hledger.keyed _ _ hget
  have hrecorded := hledger.recorded before.actionId
  rw [hget] at hrecorded
  obtain ⟨⟨j, latest⟩, hlatest, rfl⟩ := map_eq_some_iff.mp hrecorded.symm
  dsimp only at hlatest hstatus hid hinstant ⊢
  obtain ⟨event, hmem, hwrite⟩ := exists_write_of_lastWrite hlatest
  cases event with
  | started => cases hwrite
  | stored k record =>
    cases hwrite
    exact absurd hstatus (h.unclaimed _ _ hmem)
  | moved k replaced record =>
    obtain ⟨rfl, rfl⟩ := Prod.mk.inj (some.inj hwrite)
    obtain ⟨replaced', hmem'⟩ := hwon
    have hsame := eq_of_countP_le_one (hdistinct record.actionId record.claimedAt) hmem hmem'
      (by simp [claims, GovernedActionRecord.isClaim, hstatus])
      (by simp [claims, GovernedActionRecord.isClaim, hclaimed, hid, hinstant])
    obtain ⟨rfl, -, -⟩ := moved.inj hsame
    exact hlatest

theorem Legal.not_executed {after : GovernedActionRecord} (h : Legal i w before after) :
    before.status ≠ .executed := by
  cases h <;> simp_all

theorem Owned.step (hledger : Ledger sha256 sessions w) (hdistinct : DistinctClaims w)
    (h : Owned w) (hmove : Move ok i w w') : Owned w' := by
  cases hmove with
  | observe observes =>
    obtain ⟨hstarted, hfinalized, hfinal, hunclaimed⟩ := h
    rw [← observes.history] at hstarted hfinalized hfinal hunclaimed
    exact ⟨hstarted, hfinalized, hfinal, hunclaimed⟩
  | issue => exact ⟨h.started, h.finalized, h.final, h.unclaimed⟩
  | start record won =>
    refine h.cons rfl ?_ (fun _ _ _ heq => nomatch heq) ?_ (fun _ _ heq => nomatch heq)
    · rintro _ _ ⟨⟩
      exact won
    · intro older _ write later _ _ hlater
      cases hlater
  | store record _ owns unclaimed =>
    refine h.cons rfl (fun _ _ heq => nomatch heq) (fun _ _ _ heq => nomatch heq) ?_ ?_
    · intro older hmem
      refine keepsExecuted_of_not_executed hledger h rfl ?_ hmem
      intro stored hget
      exact nomatch owns.2.symm.trans hget
    · rintro _ _ ⟨⟩
      exact unclaimed
  | move actionId _ before after _ _ admitted sameRequest legal =>
    obtain ⟨hget, -, -⟩ := admits_eq_some admitted
    have hid : after.actionId = actionId :=
      (congrArg GovernedActionRequest.actionId sameRequest).trans (hledger.keyed _ _ hget)
    refine h.cons rfl (fun _ _ heq => nomatch heq) ?_ ?_ (fun _ _ heq => nomatch heq)
    · rintro _ _ _ ⟨⟩ hexecuted
      cases legal with
      | finalize was _ own =>
        obtain ⟨claimed, hwon, hclaimed, hsame, hinstant⟩ := own
        exact lastWrite_of_own_claim hledger h hdistinct hget was hwon hclaimed hsame hinstant
      | claim _ becomes | rotate _ becomes | release _ becomes | supersede _ becomes =>
        exact nomatch hexecuted.symm.trans becomes
    · intro older hmem
      refine keepsExecuted_of_not_executed hledger h rfl ?_ hmem
      intro stored hstored
      rw [hid, hget] at hstored
      cases hstored
      exact legal.not_executed

/-- Single ownership holds in every state that any interleaving of any sessions reaches, as
long as every claim that is won carries an instant no earlier claim of its action had. -/
theorem singleOwnership_of_reach [DecidableEq ι] (hsha : Function.Injective sha256)
    {c : Machine.Config Call.Answer ι (World ι) (Except Raised GovernedActionRecord)}
    (hreach : (machine ι).Reach (fun i w call => freshInstant i w call) (pool sha256 sessions) c) :
    SingleOwnership c.store := by
  have hpool : SafePool (protocol sha256 sessions fun i w call => freshInstant i w call)
      (machine ι) (fun _ _ _ => True) (pool sha256 sessions) := safePool hsha
  have hinvariant : Balanced c.store ∧ DistinctClaims c.store ∧ Owned c.store := by
    refine hpool.invariant (J := fun w => Balanced w ∧ DistinctClaims w ∧ Owned w) hreach ?_ ?_
    · refine ⟨fun _ _ => le_rfl, fun _ _ => Nat.zero_le 1, ?_, ?_, List.Pairwise.nil, ?_⟩
      · intro i record earlier hsuffix
        exact absurd (List.suffix_nil.mp hsuffix) (by simp)
      · intro i before after earlier hsuffix
        exact absurd (List.suffix_nil.mp hsuffix) (by simp)
      · intro i record hmem
        exact nomatch hmem
    · rintro i w w' hledger _ hmove ⟨hbalanced, hdistinct, howned⟩
      exact ⟨hbalanced.step hledger hmove, hdistinct.step hledger hmove,
        howned.step hledger hdistinct hmove⟩
  obtain ⟨hbalanced, hdistinct, howned⟩ := hinvariant
  refine ⟨(hpool.reach hreach).inv.recorded, howned.started, ?_, howned.finalized, howned.final⟩
  intro actionId instant
  exact (consumed_le hbalanced actionId instant).trans (hdistinct actionId instant)

/-! ### Runs -/

section Runs

/-- A reset is claimed under `holder`, whose callback is slow; the claim is released, and the
reset is approved again under `newcomer`. -/
def takeoverSessions : ℕ → Session
  | 0 => .submit (operator "requester") .providerOperationsReset (by simp) "budget"
      resetPayload none
  | 1 => .approve (operator "holder") .providerOperations resetApproval
  | 2 => .requestRelease (operator "first") releaseIntent
  | 3 => .approveRelease (operator "third") (releaseApproval "gact_b")
  | _ => .approve (operator "newcomer") .providerOperations resetApproval

/-- The claim of `holder` is released and `newcomer` claims at the instant `now`. -/
def takeoverSteps (now : String) : List (ℕ × Choice) :=
  frozenSteps ++ [(3, granted), (3, .store), (3, .store), (3, .store), (3, .store),
    (3, .time sampleInstant), (3, .store), (3, .store), (3, .store), (3, .store),
    (3, .time sampleInstant), (3, .store),
    (4, .store), (4, .payload (.ok resetPayload)), (4, .time now), (4, .store), (4, .store)]

/-- The callback of a session returns and the session finalizes. -/
def finishSteps (session : ℕ) (now : String) : List (ℕ × Choice) :=
  [(session, .result (.ok none)), (session, .time now), (session, .store)]

/-- An instant after `sampleInstant`. -/
def laterInstant : String := "2026-01-01T00:00:00.000001+00:00"

theorem evidence_takeover :
    ((machine ℕ).schedule (fun i w call => freshInstant i w call) (pool id takeoverSessions)
      (takeoverSteps laterInstant ++ finishSteps 4 laterInstant ++
        finishSteps 1 laterInstant)).map (fun c => evidence c.store "gact_a") =
      some (some ⟨.providerOperationsReset, .executed, some "requester", some "newcomer",
        none⟩) := by
  decide +kernel

/-- Ownership after a takeover at a later instant: the new owner's finalization lands, the
old one's does not. -/
theorem singleOwnership_takeover : ∃ c,
    (machine ℕ).Reach (fun i w call => freshInstant i w call) (pool id takeoverSessions) c ∧
    evidence c.store "gact_a" = some ⟨.providerOperationsReset, .executed, some "requester",
      some "newcomer", none⟩ ∧ SingleOwnership c.store := by
  obtain ⟨c, hrun, hevidence⟩ := Option.map_eq_some_iff.mp evidence_takeover
  have hreach := Machine.reach_of_schedule hrun
  exact ⟨c, hreach, hevidence, singleOwnership_of_reach Function.injective_id hreach⟩

/-- How often the claim of `sampleInstant` on the reset was consumed, who executed it, and
whether the clock ever ran backwards. -/
def sharedInstantOutcome (w : World ℕ) : ℕ × Option Evidence × Bool :=
  (w.history.countP (Event.consumes "gact_a" (some sampleInstant)), evidence w "gact_a",
    decide (w.clockReads.Pairwise fun newer older => older ≤ newer))

theorem outcome_sharedInstant :
    ((machine ℕ).schedule (fun _ _ _ => True) (pool id takeoverSessions)
      (takeoverSteps sampleInstant ++ finishSteps 1 sampleInstant)).map
        (fun c => sharedInstantOutcome c.store) =
      some (2, some ⟨.providerOperationsReset, .executed, some "requester", some "holder", none⟩,
        true) := by
  decide +kernel

/-- The newcomer's claim is stamped at the instant of the released one. The old holder, whose
claim was released, finalizes over it: one claim is consumed by a release and by a
finalization. No clock reading is below an earlier one. -/
theorem exists_shared_instant : ∃ c,
    (machine ℕ).Reach (fun _ _ _ => True) (pool id takeoverSessions) c ∧
    c.store.clockReads.Pairwise (fun newer older => older ≤ newer) ∧
    c.store.history.countP (Event.consumes "gact_a" (some sampleInstant)) = 2 ∧
    ¬ SingleOwnership c.store := by
  obtain ⟨c, hrun, houtcome⟩ := Option.map_eq_some_iff.mp outcome_sharedInstant
  simp only [sharedInstantOutcome, Prod.mk.injEq, decide_eq_true_eq] at houtcome
  obtain ⟨hconsumed, -, hclock⟩ := houtcome
  refine ⟨c, Machine.reach_of_schedule hrun, hclock, hconsumed, fun howned => ?_⟩
  have := howned.consumed "gact_a" (some sampleInstant)
  omega

end Runs

end LotusAI.Governance
