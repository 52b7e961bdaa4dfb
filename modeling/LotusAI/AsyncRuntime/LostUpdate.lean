import LotusAI.AsyncRuntime.Interleaving

/-!
# No update of a worker is lost behind an operator's fence

Where every job an operator saves is still at the stage at which the operator read it,
nothing a worker committed is overwritten, whatever the interleaving. Without the fence
an operator's stale record can replace a finished job, artifacts and all, or queue a job
that a worker has just claimed.
-/

namespace LotusAI.AsyncRuntime

open Lib Store Protocol LifecycleStatus Call Option

variable {ι : Type} {extendLease : String → ℕ → String}

/-! ### The protocol -/

/-- The invariant: leases are fenced, and every committed record has only later ones. -/
structure Sound (w : World ι) : Prop where
  fenced : Fenced w.store
  kept : ∀ job ∈ w.commits, ∃ stored, w.store.jobs.get? job.jobId = some stored ∧ Later job stored

/-- What the others may do while session `i` waits. -/
structure Rely (i : ι) (w w' : World ι) : Prop where
  evolves : Evolves w.store w'.store
  read : w'.read i = w.read i

/-- What one call of session `i` may do. -/
structure Guarantee (i : ι) (w w' : World ι) : Prop where
  evolves : Evolves w.store w'.store
  read : ∀ j, i ≠ j → w'.read j = w.read j

theorem Rely.trans {i : ι} {w w' w'' : World ι} (h : Rely i w w') (h' : Rely i w' w'') :
    Rely i w w'' :=
  ⟨h.evolves.trans h'.evolves, h'.read.trans h.read⟩

/-- Invariant, rely and guarantee of the sessions. -/
def protocol (ι : Type) : Protocol Call ι (World ι) where
  inv := Sound
  ok i w call := call.fenced i w
  rely := Rely
  guar := Guarantee
  rely_refl _ _ := ⟨.refl _, rfl⟩
  rely_trans := Rely.trans
  guar_rely hij _ _ hguar := ⟨hguar.evolves, hguar.read _ hij⟩

/-! ### Single saves -/

section Saves

variable {s : Store} {job : JobRecord}

theorem advances_saveAttempt (h : Fenced s) (record : AttemptRecord) :
    Advances s (s.saveAttempt record) [] :=
  ⟨h.of_eq rfl rfl rfl, .of_eq rfl rfl, nofun⟩

variable {leaseId j : String} {record : JobRecord}

/-- Deleting a lease leaves the others. -/
theorem get?_leasesByJob_of_deleteLease {k : String} {lease : LeaseRecord}
    (h : (s.deleteLease leaseId).2.leasesByJob.get? k = some lease) :
    s.leasesByJob.get? k = some lease := by
  unfold Store.deleteLease at h
  split at h
  · exact h
  · rw [Dict.get?_erase] at h
    split_ifs at h
    exact h

theorem advances_deleteLease (h : Fenced s) (leaseId : String) :
    Advances s (s.deleteLease leaseId).2 [] where
  fenced := by
    refine ⟨?_, fun j lease hget => ?_, fun j lease hget => ?_, h.inverse.deleteLease leaseId⟩
    · rw [jobs_deleteLease]
      exact h.jobId
    · exact h.lease j lease (get?_leasesByJob_of_deleteLease hget)
    · rw [jobs_deleteLease]
      exact h.active j lease (get?_leasesByJob_of_deleteLease hget)
  evolves := by
    refine ⟨fun j job hjob => ⟨job, by rw [jobs_deleteLease, hjob], .refl job⟩, ?_⟩
    intro j _ _ _ _ _ lease hget
    exact ⟨lease, get?_leasesByJob_of_deleteLease hget, rfl⟩
  stored _ hjob := nomatch hjob

/-- A lease whose id is deleted is gone. -/
theorem get?_leasesByJob_deleteLease_eq_none (h : Fenced s)
    (hid : ∀ lease, s.leasesByJob.get? j = some lease → lease.leaseId = leaseId) :
    (s.deleteLease leaseId).2.leasesByJob.get? j = none := by
  cases hlease : s.leasesByJob.get? j with
  | none =>
    cases hdeleted : (s.deleteLease leaseId).2.leasesByJob.get? j with
    | none => rfl
    | some lease => exact nomatch hlease.symm.trans (get?_leasesByJob_of_deleteLease hdeleted)
  | some lease =>
    rw [← hid lease hlease, h.inverse.get?_leasesByJob_deleteLease hlease, if_pos rfl]

/-- A job that is not stored holds no lease. -/
theorem Fenced.get?_leasesByJob_eq_none (h : Fenced s)
    (hinactive : ∀ job, s.jobs.get? j = some job → job.lifecycleStatus.isActive = false) :
    s.leasesByJob.get? j = none := by
  cases hlease : s.leasesByJob.get? j with
  | none => rfl
  | some lease =>
    obtain ⟨job, hjob, hactive⟩ := h.active j lease hlease
    rw [hinactive job hjob] at hactive
    cases hactive

/-- Saving a new job. -/
theorem advances_saveJob_new (h : Fenced s) (hnew : s.jobs.get? record.jobId = none) :
    Advances s (s.saveJob record) [] where
  fenced := by
    have hfree : s.leasesByJob.get? record.jobId = none := by
      apply h.get?_leasesByJob_eq_none
      intro job hjob
      exact nomatch hnew.symm.trans hjob
    exact h.rewrite (rewrites_saveJob h rfl hfree) rfl nofun
  evolves := by
    have hother : ∀ j job, s.jobs.get? j = some job →
        (s.saveJob record).jobs.get? j = some job := by
      intro j job hjob
      rw [get?_jobs_saveJob, if_neg, hjob]
      rintro rfl
      exact nomatch hnew.symm.trans hjob
    refine ⟨fun j job hjob => ⟨job, hother j job hjob, .refl job⟩, ?_⟩
    intro j _ _ _ _ _ lease hget
    exact ⟨lease, hget, rfl⟩
  stored _ hjob := nomatch hjob

/-- Saving a job that holds no lease, as a later record of what is stored. -/
theorem advances_saveJob_later (h : Fenced s) {stored : JobRecord}
    (hstored : s.jobs.get? record.jobId = some stored)
    (hfree : s.leasesByJob.get? record.jobId = none) (hlater : Later stored record) :
    Advances s (s.saveJob record) [] := by
  have hrewrites := rewrites_saveJob h rfl hfree
  refine ⟨h.rewrite hrewrites rfl nofun, ?_, nofun⟩
  exact Evolves.rewrite hrewrites hstored hlater nofun

end Saves

/-! ### What an operator knows between its calls -/

/-- Session `i` read `job`, and what is stored now is a later record of it. -/
structure Read (i : ι) (job : JobRecord) (w : World ι) : Prop where
  read : w.read i = some job
  later : ∃ stored, w.store.jobs.get? job.jobId = some stored ∧ Later job stored

/-- While the job stays at its stage, its lease can only be the given one. -/
def Held (job : JobRecord) (leaseId : String) (w : World ι) : Prop :=
  ∀ stored, w.store.jobs.get? job.jobId = some stored → stored.stage = job.stage →
    ∀ lease, w.store.leasesByJob.get? job.jobId = some lease → lease.leaseId = leaseId

/-- While the job stays at its stage, it holds no lease. -/
def Free (job : JobRecord) (w : World ι) : Prop :=
  ∀ stored, w.store.jobs.get? job.jobId = some stored → stored.stage = job.stage →
    w.store.leasesByJob.get? job.jobId = none

variable {i : ι} {w w' : World ι} {job : JobRecord}

theorem Read.rely (h : Read i job w) (hrely : Rely i w w') : Read i job w' := by
  obtain ⟨stored, hstored, hlater⟩ := h.later
  obtain ⟨stored', hstored', hlater'⟩ := hrely.evolves.jobs _ stored hstored
  exact ⟨hrely.read.trans h.read, stored', hstored', hlater.trans hlater'⟩

/-- Where the job is at its stage, it has been there ever since it was read. -/
theorem Read.stage_eq (h : Read i job w) (hrely : Rely i w w') {stored' : JobRecord}
    (hstored' : w'.store.jobs.get? job.jobId = some stored') (hstage : stored'.stage = job.stage) :
    ∃ stored, w.store.jobs.get? job.jobId = some stored ∧ stored.stage = job.stage ∧
      ∀ lease', w'.store.leasesByJob.get? job.jobId = some lease' →
        ∃ lease, w.store.leasesByJob.get? job.jobId = some lease ∧
          lease.leaseId = lease'.leaseId := by
  obtain ⟨stored, hstored, hlater⟩ := h.later
  obtain ⟨found, hfound, hlater'⟩ := hrely.evolves.jobs _ stored hstored
  obtain rfl := mem_unique hstored' hfound
  have hle := hlater.stage_le
  have hle' := hlater'.stage_le
  refine ⟨stored, hstored, by omega, ?_⟩
  exact hrely.evolves.leases _ stored stored' hstored hstored' (by omega)

theorem Held.rely {leaseId : String} (h : Held job leaseId w) (hread : Read i job w)
    (hrely : Rely i w w') : Held job leaseId w' := by
  intro stored' hstored' hstage lease' hlease'
  obtain ⟨stored, hstored, hstage₀, hsame⟩ := hread.stage_eq hrely hstored' hstage
  obtain ⟨lease, hlease, hid⟩ := hsame lease' hlease'
  rw [← hid]
  exact h stored hstored hstage₀ lease hlease

theorem Free.rely (h : Free job w) (hread : Read i job w) (hrely : Rely i w w') :
    Free job w' := by
  intro stored' hstored' hstage
  obtain ⟨stored, hstored, hstage₀, hsame⟩ := hread.stage_eq hrely hstored' hstage
  cases hlease' : w'.store.leasesByJob.get? job.jobId with
  | none => rfl
  | some lease' =>
    obtain ⟨lease, hlease, -⟩ := hsame lease' hlease'
    exact nomatch (h stored hstored hstage₀).symm.trans hlease

/-- A job that was read inactive holds no lease while it stays so. -/
theorem free_of_inactive (h : Sound w) (hinactive : job.lifecycleStatus.isActive = false) :
    Free job w := by
  intro stored hstored hstage
  apply h.fenced.get?_leasesByJob_eq_none
  intro found hfound
  obtain rfl := mem_unique hstored hfound
  have hphase := (JobRecord.stage_eq_iff.mp hstage).2
  rw [← Bool.not_eq_true, ← phase_eq_one_iff, hphase,
    phase_eq_one_iff, hinactive]
  decide

/-- What the invariant says about the property. -/
theorem Sound.noLostUpdate (h : Sound w) : NoLostUpdate w where
  finished job hmem hstatus := by
    obtain ⟨stored, hstored, hlater⟩ := h.kept job hmem
    refine ⟨stored, hstored, hlater.artifacts, ?_⟩
    have hphase : job.lifecycleStatus.phase = 2 := by
      rcases hstatus with hstatus | hstatus <;> rw [hstatus] <;> rfl
    by_cases hsame : stored.stage = job.stage
    · exact .inl (hlater.finished hsame hphase)
    · -- nothing comes after a finished attempt but the next one
      right
      have hle := hlater.stage_le
      have hstored := stored.lifecycleStatus.phase_le
      unfold JobRecord.stage at hle hsame
      omega
  claimed job hmem hstatus := by
    obtain ⟨stored, hstored, hlater⟩ := h.kept job hmem
    have hphase : job.lifecycleStatus.phase = 1 := by rw [hstatus]; rfl
    have hle := hlater.stage_le
    have hbound := stored.lifecycleStatus.phase_le
    unfold JobRecord.stage at hle
    refine ⟨stored, hstored, by omega, fun hcount hqueued => ?_⟩
    rw [hqueued, phase_queued] at hle
    omega
  leased j job hjob hstatus := by
    apply h.fenced.get?_leasesByJob_eq_none
    intro found hfound
    obtain rfl := mem_unique hjob hfound
    rcases hstatus with hstatus | hstatus <;> rw [hstatus] <;> rfl

/-! ### Calls -/

variable {call : Call} {choice : Choice} {s' : Store} {r : call.Answer}
  {f : call.Answer → Service β} {reason jobId : String} {s : Store}

/-- A tame call advances the store and answers with what it committed. -/
theorem Call.Tame.advances (htame : call.Tame) (h : Fenced s)
    (hexec : call.exec extendLease s choice = some (r, s')) : Advances s s' (call.commits r) := by
  cases call with
  | saveJob | saveAttempt | deleteLease => exact htame.elim
  | claimNextRunnableJob jobTypes args =>
    cases choice <;> simp only [exec, reduceCtorEq] at hexec
    obtain ⟨rfl, rfl⟩ := Prod.mk.inj (some.inj hexec)
    exact h.claimNextRunnableJob jobTypes args
  | claimRunnableJobById jobId args =>
    cases choice <;> simp only [exec, reduceCtorEq] at hexec
    obtain ⟨rfl, rfl⟩ := Prod.mk.inj (some.inj hexec)
    exact h.claimRunnableJobById jobId args
  | transitionCurrentClaim args =>
    cases choice <;> simp only [exec, reduceCtorEq] at hexec
    obtain rfl := congrArg Prod.fst (some.inj hexec)
    obtain rfl := congrArg Prod.snd (some.inj hexec)
    refine h.transitionCurrentClaim extendLease (htame.imp (fun hr => ?_) fun he => ?_)
    · exact ⟨hr.lease, hr.job, hr.attempt, hr.successor, hr.artifact⟩
    · exact ⟨he.lease, he.job, he.attempt⟩
  | recoverExpiredClaim args =>
    obtain ⟨now, rfl⟩ := effect_of_exec hexec
    obtain ⟨_, hadvances⟩ := h.recoverExpiredClaim
      { args with nowFactory := some (args.nowFactory.getD now) }
    exact ⟨hadvances.fenced, hadvances.evolves, fun _ => (absurd · List.not_mem_nil)⟩
  | saveControlEvent record =>
    obtain rfl := effect_of_exec hexec
    exact ⟨h.of_eq rfl rfl rfl, .of_eq rfl rfl, fun _ => (absurd · List.not_mem_nil)⟩
  | _ =>
    obtain rfl := effect_of_exec hexec
    exact .refl h

variable [DecidableEq ι]

/-- A call that advances the store keeps the protocol. -/
theorem Sound.after (h : Sound w) (hadvances : Advances w.store s' (call.commits r)) :
    Sound (w.after i call r s') ∧ Guarantee i w (w.after i call r s') := by
  refine ⟨⟨hadvances.fenced, ?_⟩, hadvances.evolves, ?_⟩
  · intro job hmem
    rcases List.mem_append.mp hmem with hnew | hold
    · exact ⟨job, hadvances.stored job hnew, .refl job⟩
    · obtain ⟨stored, hstored, hlater⟩ := h.kept job hold
      obtain ⟨stored', hstored', hlater'⟩ := hadvances.evolves.jobs _ stored hstored
      exact ⟨stored', hstored', hlater.trans hlater'⟩
  · intro j hij
    unfold World.after
    split
    · exact Function.update_of_ne (Ne.symm hij) _ _
    · rfl

/-- The session `i` may run `p` from `w`. -/
abbrev Fine (extendLease : String → ℕ → String) (i : ι) {α : Type} (p : Prog Call.Answer α)
    (w : World ι) : Prop :=
  (protocol ι).Safe (sharedMachine ι extendLease) i (fun _ _ => True) p w

variable {α β : Type}

theorem fine_of_tame {p : Prog Call.Answer α} (hp : p.CallsOnly Call.Tame) :
    Fine extendLease i p w := by
  refine Safe.of_callsOnly hp ?_ (fun _ _ _ => trivial)
  intro call w₁ choice r w₂ htame hsound _ hexec
  obtain ⟨s', hexec', rfl⟩ := exec_sharedMachine hexec
  exact hsound.after (htame.advances hsound.fenced hexec')

/-- Tame calls may follow anything. -/
theorem fine_bind_tame {p : Service α} {f : α → Service β}
    (hp : Fine extendLease i p.run w) (hf : ∀ a, (f a).run.CallsOnly Call.Tame) :
    Fine extendLease i (ExceptT.run (p >>= f)) w := by
  refine Safe.bind hp fun result w' _ _ => ?_
  cases result with
  | ok a => exact fine_of_tame (hf a)
  | error e => exact fun _ _ _ => trivial

theorem fine_throw {e : Raised} : Fine extendLease i (throw e : Service α).run w :=
  fun _ _ _ => trivial

/-! ### Rules for single calls -/

/-- Calls whose own effect a session can rely on as on that of the others: they neither read
a job nor save one. -/
def Call.Still : Call → Prop
  | .getJob _ => False
  | .saveJob _ => False
  | .transitionCurrentClaim _ => False
  | _ => True

theorem Call.Still.advances (hstill : call.Still) (h : Fenced s)
    (hexec : call.exec extendLease s choice = some (r, s')) : Advances s s' (call.commits r) := by
  cases call with
  | getJob | saveJob | transitionCurrentClaim => exact hstill.elim
  | saveAttempt record =>
    obtain rfl := effect_of_exec hexec
    exact advances_saveAttempt h record
  | deleteLease leaseId =>
    obtain rfl := effect_of_exec hexec
    exact advances_deleteLease h leaseId
  | _ =>
    refine Call.Tame.advances ?_ h hexec
    trivial

theorem Call.Still.rely (hstill : call.Still) (hevolves : Evolves w.store s') :
    Rely i w (w.after i call r s') := by
  refine ⟨hevolves, ?_⟩
  cases call with
  | getJob => exact hstill.elim
  | _ => rfl

/-- A still call: what it answered, and what the session can go on relying on. -/
theorem fine_still (hstill : call.Still) (h : ∀ w₁ choice r s', Sound w₁ → Rely i w w₁ →
      call.exec extendLease w₁.store choice = some (r, s') →
      Sound (w₁.after i call r s') → Rely i w₁ (w₁.after i call r s') →
      Fine extendLease i (f r).run (w₁.after i call r s')) :
    Fine extendLease i (ExceptT.run (ask call >>= f)) w := by
  apply safe_ask
  intro w₁ hsound hrely _ choice r w₂ hexec
  obtain ⟨s', hexec', rfl⟩ := exec_sharedMachine hexec
  have hadvances := hstill.advances hsound.fenced hexec'
  obtain ⟨hsound', hguar⟩ := hsound.after hadvances
  exact ⟨hsound', hguar,
    h w₁ choice r s' hsound hrely hexec' hsound' (hstill.rely hadvances.evolves)⟩

/-- A still call whose answer does not matter. -/
theorem fine_skip (hstill : call.Still)
    (h : ∀ w' r, Sound w' → Rely i w w' → Fine extendLease i (f r).run w') :
    Fine extendLease i (ExceptT.run (ask call >>= f)) w :=
  fine_still hstill fun _ _ r _ _ hrely _ hsound' hrely' => h _ r hsound' (hrely.trans hrely')

/-- A neighbour answers or raises. -/
theorem fine_askNeighbour {request : Neighbour} {f : Bool → Service β}
    (h : ∀ w' answer, Sound w' → Rely i w w' → Fine extendLease i (f answer).run w') :
    Fine extendLease i (ExceptT.run (askNeighbour request >>= f)) w := by
  change Fine extendLease i (ExceptT.run (ask (.neighbour request) >>= fun result =>
    orRaise result >>= f)) w
  refine fine_skip trivial ?_
  intro w' result hsound hrely
  cases result with
  | ok answer => exact h w' answer hsound hrely
  | error e => exact fine_throw

/-- An operator saves a later record of a job it read and that holds no lease; what follows
are tame calls. -/
theorem fine_saveJob {record : JobRecord} {f : Unit → Service β} (hread : Read i job w)
    (hfree : Free job w) (hid : record.jobId = job.jobId)
    (hartifacts : record.artifactIds = job.artifactIds) (hstage : job.stage ≤ record.stage)
    (hunfinished : record.stage = job.stage → job.lifecycleStatus.phase ≠ 2)
    (hf : ∀ r, (f r).run.CallsOnly Call.Tame) :
    Fine extendLease i (ExceptT.run (ask (.saveJob record) >>= f)) w := by
  apply safe_ask
  intro w₁ hsound hrely hfenced choice r w₂ hexec
  obtain ⟨s', hexec', rfl⟩ := exec_sharedMachine hexec
  obtain rfl := effect_of_exec hexec'
  have hread₁ := hread.rely hrely
  -- the fence: the stored record is at the stage that was read
  obtain ⟨stored, hstored, hlater⟩ := hread₁.later
  have hsame : stored.stage = job.stage := by
    simpa [protocol, fenced, hread₁.read, hstored] using hfenced
  have hlease := hfree.rely hread hrely stored hstored hsame
  rw [← hid] at hstored hlease
  have hlater' : Later stored record := by
    have hkept := hlater.same hsame
    refine ⟨fun a ha => ?_, hsame.trans_le hstage, fun _ => ?_, fun heq hphase => ?_⟩
    · rw [hartifacts, ← hkept]
      exact ha
    · rw [hartifacts, hkept]
    · have hfinished := (JobRecord.stage_eq_iff.mp hsame).2.symm.trans hphase
      exact absurd hfinished (hunfinished (heq.trans hsame))
  have hadvances : Advances w₁.store (w₁.store.saveJob record) (commits (.saveJob record) r) :=
    advances_saveJob_later hsound.fenced hstored hlease hlater'
  obtain ⟨hsound', hguar⟩ := hsound.after hadvances
  exact ⟨hsound', hguar, fine_of_tame (hf r)⟩

/-! ### The operator's actions -/

variable {request : ControlActionRequest} {authorization : AuthorizationDecision}

theorem fine_queueNextAsyncAttempt {message : String} (hread : Read i job w)
    (hphase : job.lifecycleStatus.phase = 2) :
    Fine extendLease i (queueNextAsyncAttempt job message).run w := by
  have hinactive : job.lifecycleStatus.isActive = false := by
    rw [← Bool.not_eq_true, ← phase_eq_one_iff, hphase]
    decide
  refine fine_skip trivial ?_
  intro w₁ _ hsound₁ hrely₁
  refine fine_saveJob (hread.rely hrely₁) (free_of_inactive hsound₁ hinactive) rfl rfl ?_ ?_ ?_
  · simp only [JobRecord.stage]
    omega
  · simp only [JobRecord.stage, phase_queued]
    omega
  · intro _
    refine (callsOnly_ask (.getJob job.jobId) trivial).bindRaising fun stored => ?_
    cases stored with
    | none => trivial
    | some queuedJob => exact (callsOnly_askNeighbour _).bindRaising fun _ => trivial

theorem fine_queueAgain {allowed : LifecycleStatus → Bool} {refusal manner : String}
    (hread : Read i job w) (hallowed : ∀ status, allowed status → status.phase = 2) :
    Fine extendLease i (queueAgain job allowed refusal manner reason).run w := by
  unfold queueAgain
  split_ifs with hstatus
  · exact fine_queueNextAsyncAttempt hread (hallowed _ hstatus)
  · exact fine_throw

theorem exec_getJob {job? : Option JobRecord}
    (h : (getJob jobId).exec extendLease s choice = some (job?, s')) :
    job? = s.jobs.get? jobId ∧ s' = s := by
  cases choice <;> simp only [exec, reduceCtorEq] at h
  cases h
  exact ⟨rfl, rfl⟩

theorem exec_getActiveLease {lease? : Option LeaseRecord}
    (h : (getActiveLease jobId).exec extendLease s choice = some (lease?, s')) :
    lease? = s.leasesByJob.get? jobId ∧ s' = s := by
  cases choice <;> simp only [exec, reduceCtorEq] at h
  cases h
  exact ⟨rfl, rfl⟩

theorem fine_abandonActiveJob (hread : Read i job w) :
    Fine extendLease i (abandonActiveJob job reason).run w := by
  unfold abandonActiveJob
  split_ifs with hinactive
  · exact fine_throw
  have hphase : job.lifecycleStatus.phase = 1 := by
    rw [phase_eq_one_iff]
    simpa using hinactive
  -- the lease that was read is the only one the job can have at this stage
  refine fine_still trivial ?_
  intro w₁ choice lease? s₁ _ hrely₁ hexec₁ _ hrely₁'
  have hread₁ := hread.rely (hrely₁.trans hrely₁')
  cases lease? with
  | none => exact fine_throw
  | some lease =>
    obtain ⟨hlease, rfl⟩ := exec_getActiveLease hexec₁
    have hheld₁ : Held job lease.leaseId
        (w₁.after i (.getActiveLease job.jobId) (some lease) w₁.store) := by
      intro stored _ _ found hfound
      rw [some.inj (hlease.trans hfound)]
    refine fine_skip trivial ?_
    intro w₂ attempt? _ hrely₂
    cases attempt? with
    | none => exact fine_throw
    | some attempt =>
      refine fine_skip trivial ?_
      intro w₃ now _ hrely₃
      refine fine_skip trivial ?_
      intro w₄ _ _ hrely₄
      have hrely := hrely₂.trans (hrely₃.trans hrely₄)
      refine fine_still trivial ?_
      intro w₅ choice deleted s₅ hsound₅ hrely₅ hexec₅ _ hrely₅'
      have hheld₅ := hheld₁.rely hread₁ (hrely.trans hrely₅)
      have hread₅ := hread₁.rely ((hrely.trans hrely₅).trans hrely₅')
      refine fine_saveJob hread₅ ?_ rfl rfl ?_ ?_ (fun _ => trivial)
      · obtain rfl := effect_of_exec hexec₅
        intro stored hstored hstage
        apply get?_leasesByJob_deleteLease_eq_none hsound₅.fenced
        rw [World.after, jobs_deleteLease] at hstored
        exact hheld₅ stored hstored hstage
      · simp only [JobRecord.stage, phase_abandoned]
        omega
      · omega

theorem fine_requireQueuedWithoutLease {action : String} {f : Unit → Service β}
    (h : job.lifecycleStatus = .queued → ∀ w', Sound w' → Rely i w w' →
      Fine extendLease i (f ()).run w') :
    Fine extendLease i (ExceptT.run (requireQueuedWithoutLease job action >>= f)) w := by
  unfold requireQueuedWithoutLease
  split_ifs with hstatus
  · exact fine_throw
  · change Fine extendLease i (ExceptT.run (ask (.getActiveLease job.jobId) >>= fun lease? =>
      (_ : Service Unit) >>= f)) w
    refine fine_skip trivial ?_
    intro w' lease? hsound hrely
    cases lease? with
    | some lease => exact fine_throw
    | none => exact h (not_not.mp hstatus) w' hsound hrely

theorem fine_latestAttempt {f : Option AttemptRecord → Service β}
    (h : ∀ w' attempt?, Sound w' → Rely i w w' → Fine extendLease i (f attempt?).run w') :
    Fine extendLease i (ExceptT.run (latestAttempt job >>= f)) w := by
  change Fine extendLease i (ExceptT.run (ask (.listAttempts job.jobId) >>= fun attempts =>
    f attempts.getLast?)) w
  refine fine_skip trivial ?_
  intro w' attempts hsound hrely
  exact h w' _ hsound hrely

theorem fine_redriveQueuedAsyncJob (hread : Read i job w) :
    Fine extendLease i (redriveQueuedAsyncJob job request authorization).run w := by
  apply fine_requireQueuedWithoutLease
  intro hstatus w₁ _ hrely₁
  apply fine_latestAttempt
  intro w₂ attempt? _ hrely₂
  cases attempt? with
  | none => exact fine_throw
  | some attempt =>
    dsimp only
    split_ifs
    · exact fine_throw
    refine fine_skip trivial ?_
    intro w₃ uuid _ hrely₃
    apply fine_askNeighbour
    intro w₄ published hsound₄ hrely₄
    split_ifs
    · have hread₄ := hread.rely (hrely₁.trans (hrely₂.trans (hrely₃.trans hrely₄)))
      have hfree₄ : Free job w₄ := free_of_inactive hsound₄ (by rw [hstatus]; rfl)
      refine fine_saveJob hread₄ hfree₄ rfl rfl ?_ ?_ (fun _ => callsOnly_controlEvent ..)
      · simp only [JobRecord.stage, hstatus, le_refl]
      · simp [hstatus]
    · exact fine_throw

theorem fine_quarantineQueuedAsyncJob (hread : Read i job w) :
    Fine extendLease i (quarantineQueuedAsyncJob job request authorization).run w := by
  apply fine_requireQueuedWithoutLease
  intro hstatus w₁ _ hrely₁
  apply fine_latestAttempt
  intro w₂ attempt? _ hrely₂
  refine fine_skip trivial ?_
  intro w₃ now hsound₃ hrely₃
  have hinactive : job.lifecycleStatus.isActive = false := by rw [hstatus]; rfl
  have hread₃ := hread.rely (hrely₁.trans (hrely₂.trans hrely₃))
  have hsave : ∀ w', Sound w' → Read i job w' → Fine extendLease i (ExceptT.run (do
      ask (.saveJob { job with
        lifecycleStatus := .abandoned
        latestMessage := s!"Queued async job quarantined: {request.reason}" })
      controlEvent job request authorization .abandoned (attempt?.map (·.attemptId)))) w' := by
    intro w' hsound' hread'
    refine fine_saveJob hread' (free_of_inactive hsound' hinactive) rfl rfl ?_ ?_
      (fun _ => callsOnly_controlEvent ..)
    · simp only [JobRecord.stage, phase_abandoned, hstatus,
        phase_queued]
      omega
    · simp [hstatus]
  cases attempt? with
  | none => exact hsave w₃ hsound₃ hread₃
  | some attempt =>
    refine fine_skip trivial ?_
    intro w₄ _ hsound₄ hrely₄
    exact hsave w₄ hsound₄ (hread₃.rely hrely₄)

theorem phase_of_decide_eq {status status' : LifecycleStatus} (hphase : status'.phase = 2)
    (h : decide (status = status') = true) : status.phase = 2 := by
  rw [of_decide_eq_true h, hphase]

theorem fine_applyControlAction (hread : Read i job w) :
    Fine extendLease i (applyControlAction job request authorization).run w := by
  unfold applyControlAction
  split
  · exact fine_bind_tame (fine_queueAgain hread fun _ => phase_of_decide_eq rfl) fun _ =>
      (callsOnly_syncEvaluationRetryableAction ..).bindRaising fun _ => callsOnly_controlEvent ..
  · exact fine_bind_tame (fine_queueAgain hread fun _ => phase_of_isTerminal)
      fun _ => (callsOnly_syncEvaluationRetryableAction ..).bindRaising fun _ =>
        callsOnly_controlEvent ..
  · exact fine_bind_tame (fine_queueAgain hread fun _ => phase_of_decide_eq rfl) fun _ =>
      (callsOnly_syncEvaluationRetryableAction ..).bindRaising fun _ => callsOnly_controlEvent ..
  · exact fine_bind_tame (fine_abandonActiveJob hread) fun _ =>
      (callsOnly_syncEvaluationAbandon ..).bindRaising fun _ => callsOnly_controlEvent ..
  · exact fine_redriveQueuedAsyncJob hread
  · exact fine_quarantineQueuedAsyncJob hread

/-- An operator's action, from its authorization on. -/
theorem fine_applyAsyncControlAction (request : ControlActionRequest) :
    Fine extendLease i (applyAsyncControlAction request).run w := by
  refine fine_skip trivial ?_
  intro w₁ decision _ _
  unfold requireAuthorized
  split_ifs
  · apply safe_ask
    intro w₂ hsound₂ _ _ choice job? w₃ hexec
    obtain ⟨s', hexec', rfl⟩ := exec_sharedMachine hexec
    have htame : (getJob request.jobId).Tame := trivial
    obtain ⟨hsound₃, hguar⟩ := hsound₂.after (htame.advances hsound₂.fenced hexec')
    refine ⟨hsound₃, hguar, ?_⟩
    cases job? with
    | none => exact fine_throw
    | some job =>
      obtain ⟨hjob, rfl⟩ := exec_getJob hexec'
      have hread : Read i job (w₂.after i (.getJob request.jobId) (some job) w₂.store) := by
        refine ⟨Function.update_self .., job, ?_, .refl job⟩
        rw [World.after, hsound₂.fenced.jobId _ job hjob.symm, ← hjob]
      exact fine_bind_tame (fine_applyControlAction hread) fun event =>
        (callsOnly_ask (.saveControlEvent event) trivial).bindRaising fun _ => trivial
  · exact fine_throw

/-! ### Any number of sessions -/

/-- A submission brings a new job. -/
theorem fine_submitAsyncJob (sub : Submission) (hnone : w.read i = none) :
    Fine extendLease i (submitAsyncJob sub).run w := by
  apply safe_ask
  intro w₁ hsound hrely hfenced choice r w₂ hexec
  obtain ⟨s', hexec', rfl⟩ := exec_sharedMachine hexec
  obtain rfl := effect_of_exec hexec'
  have hnew : w₁.store.jobs.get? sub.jobRecord.jobId = none := by
    simpa [protocol, fenced, hrely.read, hnone] using hfenced
  have hadvances : Advances w₁.store (w₁.store.saveJob sub.jobRecord)
      (commits (.saveJob sub.jobRecord) r) :=
    advances_saveJob_new hsound.fenced hnew
  obtain ⟨hsound', hguar⟩ := hsound.after hadvances
  refine ⟨hsound', hguar, fine_skip trivial ?_⟩
  intro w' _ _ _
  exact fine_of_tame (callsOnly_askNeighbour _)

theorem fine_program (op : Operation) (hnone : w.read i = none) :
    Fine extendLease i op.program.run w := by
  cases op with
  | submit sub => exact fine_bind_tame (fine_submitAsyncJob sub hnone) fun _ => trivial
  | control request =>
    exact fine_bind_tame (fine_applyAsyncControlAction request) fun _ => trivial
  | claimNext jobTypes args =>
    exact fine_of_tame ((callsOnly_ask (.claimNextRunnableJob jobTypes args)
      trivial).bindRaising fun _ => trivial)
  | claimById jobId args =>
    exact fine_of_tame ((callsOnly_ask (.claimRunnableJobById jobId args)
      trivial).bindRaising fun _ => trivial)
  | recover args =>
    exact fine_of_tame ((callsOnly_ask (.recoverExpiredClaim args)
      trivial).bindRaising fun _ => trivial)
  | start => exact fine_of_tame (callsOnly_startAsyncJob ..)
  | heartbeat => exact fine_of_tame (callsOnly_heartbeatAsyncJob ..)
  | complete => exact fine_of_tame (callsOnly_completeAsyncJob ..)
  | fail => exact fine_of_tame (callsOnly_failAsyncJob ..)

theorem safePool (hs : Coherent s) (sessions : ι → Operation) :
    SafePool (protocol ι) (sharedMachine ι extendLease) (fun _ _ _ => True) (pool s sessions) := by
  exact ⟨⟨hs.fenced, nofun⟩, fun i => fine_program (sessions i) rfl⟩

/-- In every run of workers and operators over a reachable store in which each saved job is
still at the stage at which the operator read it, no update of a worker is lost. -/
theorem noLostUpdate_of_reach {s : Store} (hs : Reachable extendLease s) {sessions : ι → Operation}
    {c : Machine.Config Call.Answer ι (World ι) (Except Raised Unit)}
    (hreach : (sharedMachine ι extendLease).Reach (fun i w call => call.fenced i w)
      (pool s sessions) c) : NoLostUpdate c.store :=
  ((safePool hs.coherent sessions).reach hreach).inv.noLostUpdate

/-! ### Runs -/

section Races

/-- A job under a short name. -/
def shortSubmission : Submission := { sampleSubmission with jobId := "j" }

/-- The job as submitted. -/
def queuedStore : Store :=
  (Store.empty.saveJob shortSubmission.jobRecord).saveAttempt shortSubmission.attemptRecord

def ownedStore : Store := (queuedStore.claimRunnableJobById "j" sampleClaim).2

/-- Leases are extended to the end of the day. -/
def untilEvening (_ : String) (_ : ℕ) : String := "2026-01-05T23:59:59Z"

theorem reachable_queuedStore : Reachable untilEvening queuedStore :=
  .step (.submit shortSubmission) [.store, .store, .neighbour (.ok false)] (.ok ()) .empty rfl rfl

theorem reachable_ownedStore : Reachable untilEvening ownedStore :=
  .step (.claimById "j" sampleClaim) [.store] (.ok ()) reachable_queuedStore trivial rfl

/-- An operator's request. -/
def operatorRequest (action : ControlActionType) : ControlActionRequest :=
  ⟨"ops", "j", action, "alice", none, "stuck"⟩

/-- A worker completes the job while an operator acts on it. -/
def completeAgainst (action : ControlActionType) : Fin 2 → Operation
  | 0 => .complete "j" "worker-1" "j_attempt_001" "done"
  | 1 => .control (operatorRequest action)

/-- A worker claims the job while an operator acts on it. -/
def claimAgainst (action : ControlActionType) : Fin 2 → Operation
  | 0 => .claimById "j" sampleClaim
  | 1 => .control (operatorRequest action)

def storeCalls (i : Fin 2) (n : ℕ) : List (Fin 2 × Choice) := List.replicate n (i, .store)

def authorizeStep : Fin 2 × Choice := (1, .authorization ⟨"ops", true, ""⟩)

/-- The steps of the completing worker. -/
def completeSteps : List (Fin 2 × Choice) :=
  [(0, .store), (0, .time "2026-01-05T09:01:00Z"), (0, .artifact (.ok ⟨"artifact-1", "ref"⟩)),
    (0, .time "2026-01-05T09:01:00Z"), (0, .neighbour (.ok true))]

/-- What a run left of job `j`. -/
structure View where
  commits : List (String × LifecycleStatus × List String)
  job : Option (LifecycleStatus × List String)
  leased : Bool
  deriving DecidableEq

def view (w : World (Fin 2)) : View where
  commits := w.commits.map fun job => (job.jobId, job.lifecycleStatus, job.artifactIds)
  job := (w.store.jobs.get? "j").map fun job => (job.lifecycleStatus, job.artifactIds)
  leased := (w.store.leasesByJob.get? "j").isSome

theorem view_replay :
    ((sharedMachine (Fin 2) untilEvening).schedule (fun i w call => call.fenced i w)
      (pool ownedStore (completeAgainst .replayTerminalJob))
      (completeSteps ++ authorizeStep :: storeCalls 1 3)).map (fun c => view c.store) =
    some ⟨[("j", .completed, ["artifact-1"])], some (.queued, ["artifact-1"]), false⟩ := by
  decide +kernel

/-- A fenced run: the operator replays a job the worker completed, and the artifact stays. -/
theorem noLostUpdate_replay : ∃ c,
    (sharedMachine (Fin 2) untilEvening).Reach (fun i w call => call.fenced i w)
      (pool ownedStore (completeAgainst .replayTerminalJob)) c ∧
    view c.store = ⟨[("j", .completed, ["artifact-1"])], some (.queued, ["artifact-1"]), false⟩ ∧
    NoLostUpdate c.store := by
  obtain ⟨c, hrun, hview⟩ := Option.map_eq_some_iff.mp view_replay
  have hreach := Machine.reach_of_schedule hrun
  exact ⟨c, hreach, hview, noLostUpdate_of_reach reachable_ownedStore hreach⟩

/-- The operator reads the claimed job, its lease and its attempt; the worker completes the
job; then the operator writes. -/
theorem view_abandon :
    ((sharedMachine (Fin 2) untilEvening).schedule (fun _ _ _ => True)
      (pool ownedStore (completeAgainst .abandonActiveJob))
      (authorizeStep :: storeCalls 1 3 ++ [(1, .time "2026-01-05T09:02:00Z")] ++ completeSteps ++
        storeCalls 1 3)).map (fun c => view c.store) =
    some ⟨[("j", .completed, ["artifact-1"])], some (.abandoned, []), false⟩ := by
  decide +kernel

/-- The operator reads the queued job, that it has no lease, and its attempts; the worker
claims the job; then the operator writes. -/
theorem view_quarantine :
    ((sharedMachine (Fin 2) untilEvening).schedule (fun _ _ _ => True)
      (pool queuedStore (claimAgainst .quarantineQueuedJob))
      (authorizeStep :: storeCalls 1 3 ++ [(1, .time "2026-01-05T09:02:00Z")] ++
        storeCalls 0 1 ++ storeCalls 1 2)).map (fun c => view c.store) =
    some ⟨[("j", .claimed, [])], some (.abandoned, []), true⟩ := by
  decide +kernel

/-- An abandoned job that lost its artifact. -/
theorem not_noLostUpdate_of_artifact {w : World (Fin 2)}
    (h : view w = ⟨[("j", .completed, ["artifact-1"])], some (.abandoned, []), false⟩) :
    ¬ NoLostUpdate w := by
  intro hkept
  obtain ⟨hcommits, hjob, -⟩ := View.mk.inj h
  obtain ⟨job, hsingle, hfields⟩ := List.map_eq_singleton_iff.mp hcommits
  obtain ⟨hid, hstatus, hartifacts⟩ := (Prod.mk.inj hfields).imp_right Prod.mk.inj
  obtain ⟨stored, hstored, hsubset, -⟩ := hkept.finished job (by simp [hsingle]) (.inl hstatus)
  rw [hid] at hstored
  simp only [hstored, map_some, some.injEq, Prod.mk.injEq] at hjob
  have hmissing := hsubset "artifact-1" (by simp [hartifacts])
  rw [hjob.2] at hmissing
  cases hmissing

/-- An abandoned job that still holds a lease. -/
theorem not_noLostUpdate_of_lease {w : World (Fin 2)}
    (h : view w = ⟨[("j", .claimed, [])], some (.abandoned, []), true⟩) : ¬ NoLostUpdate w := by
  intro hkept
  obtain ⟨-, hjob, hleased⟩ := View.mk.inj h
  obtain ⟨job, hstored, hfields⟩ := map_eq_some_iff.mp hjob
  have hnone := hkept.leased "j" job hstored (.inr (Prod.mk.inj hfields).1)
  rw [hnone] at hleased
  cases hleased

/-- One worker and one operator, no fence: an operator that read the job before the worker
completed it abandons it without its artifact, and one that read the job before the worker
claimed it abandons it under the worker's lease. -/
theorem exists_lost_update :
    (∃ c, (sharedMachine (Fin 2) untilEvening).Reach (fun _ _ _ => True)
      (pool ownedStore (completeAgainst .abandonActiveJob)) c ∧
      view c.store = ⟨[("j", .completed, ["artifact-1"])], some (.abandoned, []), false⟩ ∧
      ¬ NoLostUpdate c.store) ∧
    ∃ c, (sharedMachine (Fin 2) untilEvening).Reach (fun _ _ _ => True)
      (pool queuedStore (claimAgainst .quarantineQueuedJob)) c ∧
      view c.store = ⟨[("j", .claimed, [])], some (.abandoned, []), true⟩ ∧
      ¬ NoLostUpdate c.store := by
  obtain ⟨c, hrun, hview⟩ := Option.map_eq_some_iff.mp view_abandon
  obtain ⟨c', hrun', hview'⟩ := Option.map_eq_some_iff.mp view_quarantine
  exact ⟨⟨c, Machine.reach_of_schedule hrun, hview, not_noLostUpdate_of_artifact hview⟩,
    c', Machine.reach_of_schedule hrun', hview', not_noLostUpdate_of_lease hview'⟩

end Races

end LotusAI.AsyncRuntime
