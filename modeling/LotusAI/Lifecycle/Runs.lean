import LotusAI.Lifecycle.Engine

/-!
# Runs of the lifecycle engine

A run takes the families one after the other. Each store has a handler that acts on it; the
others leave it alone, with three exceptions: every handler adds its event to the lifecycle
events, evaluation runs take their cases with them, and jobs take their leases. So what a run
does to a store is mostly what one handler does to it.
-/

namespace LotusAI.Lifecycle

open Lib RetentionFamily DataStores Environment Table List

/-- The family that brings a handler into a run, with its period. -/
def scheduled? (h : FamilyHandler) : List RetentionFamily → Option (RetentionFamily × ℕ)
  | [] => none
  | family :: rest =>
    match family.schedule? with
    | some (handler, period) => if handler = h then some (family, period) else scheduled? h rest
    | none => scheduled? h rest

variable {family : RetentionFamily} {period : ℕ} {families : List RetentionFamily}
  {h : FamilyHandler} {env : Environment} {t : RetainedTable} {s : DataStores} {row : t.Row}

theorem RetentionFamily.familyId_of_schedule?
    (hschedule : family.schedule? = some (h, period)) : family.familyId = h.familyId := by
  unfold schedule? at hschedule
  split_ifs at hschedule
  obtain ⟨handler, hof, hmap⟩ := Option.bind_eq_some_iff.mp hschedule
  obtain ⟨_, _, heq⟩ := Option.map_eq_some_iff.mp hmap
  cases heq
  exact (FamilyHandler.familyId_of_of? hof).symm

theorem schedule?_of_scheduled?
    (hfound : scheduled? h families = some (family, period)) :
    family ∈ families ∧ family.schedule? = some (h, period) := by
  induction families with
  | nil => cases hfound
  | cons first rest ih =>
    unfold scheduled? at hfound
    split at hfound
    · rename_i handler firstPeriod hschedule
      split_ifs at hfound with hhandler
      · cases hfound
        exact ⟨(.head _), hhandler ▸ hschedule⟩
      · exact (ih hfound).imp_left (mem_cons_of_mem _)
    · exact (ih hfound).imp_left (mem_cons_of_mem _)

theorem schedule?_ne_of_scheduled?_eq_none
    (hnone : scheduled? h families = none) :
    ∀ family ∈ families, ∀ period, family.schedule? ≠ some (h, period) := by
  induction families with
  | nil => simp
  | cons first rest ih =>
    intro family hfamily period hschedule
    rcases mem_cons.mp hfamily with rfl | hrest
    · simp [scheduled?, hschedule] at hnone
    · refine ih ?_ family hrest period hschedule
      unfold scheduled? at hnone
      split at hnone
      · split_ifs at hnone
        exact hnone
      · exact hnone

/-- A horizon depends on the stores through the holds only. -/
theorem RetentionFamily.horizon_congr (family : RetentionFamily) (period : ℕ) (now : ℤ)
    {s' : DataStores} (h : s'.legalHolds = s.legalHolds) :
    family.horizon period now s' = family.horizon period now s := by
  simp [horizon, heldTenants, activeLegalHolds, h]

namespace Environment

variable (env : Environment) (policyVersion : String) (run : Run) (s : DataStores)

/-- A family that is not enforced leaves the stores as they are. -/
theorem runFamily_of_none (h : family.schedule? = none) :
    (env.runFamily policyVersion run family s).2 = s := by
  simp [runFamily, h]

theorem runFamily_of_some {handler : FamilyHandler}
    (h : family.schedule? = some (handler, period)) :
    (env.runFamily policyVersion run family s).2 =
      env.recordDeletionEvidence policyVersion run family.familyId
        (env.expire (family.horizon period run.now s) handler s) := by
  simp [runFamily, h]

variable {α : Type} {π : DataStores → α} (familyId : String) (outcome : Outcome)

/-- What the writing of an event does not change. -/
theorem recordDeletionEvidence_keeps
    (h : ∀ s event, π (saveLifecycleEvent s event) = π s) :
    π (env.recordDeletionEvidence policyVersion run familyId outcome) = π outcome.stores := by
  unfold recordDeletionEvidence
  split_ifs
  · rfl
  · exact h ..

theorem tables_recordDeletionEvidence
    (ht : t ≠ .lifecycleEvents) :
    (env.recordDeletionEvidence policyVersion run familyId outcome).tables t =
      outcome.stores.tables t :=
  env.recordDeletionEvidence_keeps policyVersion run (π := fun s => s.tables t) familyId outcome
    fun s _ => s.tables_put_of_ne ht _

/-- One family, as seen from what only the handlers write to. -/
theorem view_runFamily (hevent : ∀ s event, π (saveLifecycleEvent s event) = π s)
    (family : RetentionFamily) (s : DataStores) :
    π (env.runFamily policyVersion run family s).2 =
      match family.schedule? with
      | some (h, period) => π (env.expire (family.horizon period run.now s) h s).stores
      | none => π s := by
  cases hschedule : family.schedule? with
  | none => rw [env.runFamily_of_none _ _ _ hschedule]
  | some found =>
    rw [env.runFamily_of_some _ _ _ hschedule]
    exact env.recordDeletionEvidence_keeps _ _ _ _ hevent

/-- What each family of a list preserves, the loop preserves. -/
theorem runFamilies_preserves {I : DataStores → Prop} (families : List RetentionFamily)
    (hstep : ∀ family ∈ families, ∀ s, I s → I (env.runFamily policyVersion run family s).2)
    {s : DataStores} (h : I s) : I (env.runFamilies policyVersion run families s).2 := by
  induction families generalizing s with
  | nil => exact h
  | cons family rest ih =>
    refine ih (fun other hother => hstep other (.tail _ hother)) ?_
    exact hstep family (.head _) s h

theorem runFamilies_append (before after : List RetentionFamily) (s : DataStores) :
    (env.runFamilies policyVersion run (before ++ after) s).2 =
      (env.runFamilies policyVersion run after
        (env.runFamilies policyVersion run before s).2).2 := by
  induction before generalizing s with
  | nil => rfl
  | cons family rest ih => exact ih _

@[simp] theorem legalHolds_runFamily (family : RetentionFamily) (s : DataStores) :
    (env.runFamily policyVersion run family s).2.legalHolds = s.legalHolds := by
  cases hschedule : family.schedule? with
  | none => rw [runFamily_of_none _ _ _ _ hschedule]
  | some found =>
    rw [env.runFamily_of_some policyVersion run s hschedule,
      env.recordDeletionEvidence_keeps policyVersion run (π := legalHolds) _ _
        fun _ _ => rfl, legalHolds_expire]

@[simp] theorem legalHolds_runFamilies (families : List RetentionFamily) (s : DataStores) :
    (env.runFamilies policyVersion run families s).2.legalHolds = s.legalHolds :=
  env.runFamilies_preserves policyVersion run families
    (fun family _ s' hs' => (env.legalHolds_runFamily policyVersion run family s').trans hs') rfl

/-- A view that one handler acts on and the others leave: a run acts on it once, if that handler's
family is enforced. -/
theorem view_runFamilies (h : FamilyHandler) (act : Horizon → DataStores → α)
    (hevent : ∀ s event, π (saveLifecycleEvent s event) = π s)
    (hact : ∀ horizon s, π (env.expire horizon h s).stores = act horizon s)
    (hkeeps : ∀ horizon h' s, h' ≠ h → π (env.expire horizon h' s).stores = π s)
    (hcongr : ∀ horizon s s', π s' = π s → act horizon s' = act horizon s) (hnodup : (families.map (·.familyId)).Nodup)
    (s : DataStores) :
    π (env.runFamilies policyVersion run families s).2 =
      match scheduled? h families with
      | some (family, period) => act (family.horizon period run.now s) s
      | none => π s := by
  have hskips : ∀ family s, (∀ period, family.schedule? ≠ some (h, period)) →
      π (env.runFamily policyVersion run family s).2 = π s := by
    intro family s hne
    rw [env.view_runFamily _ _ hevent]
    cases hschedule : family.schedule? with
    | none => rfl
    | some found => exact hkeeps _ _ _ fun hsame => hne found.2 (by rw [hschedule, ← hsame])
  induction families generalizing s with
  | nil => rfl
  | cons family rest ih =>
    rw [map_cons, nodup_cons] at hnodup
    change π (env.runFamilies policyVersion run rest
      (env.runFamily policyVersion run family s).2).2 = _
    by_cases hturn : ∃ period, family.schedule? = some (h, period)
    · -- the turn of the handler: no family after it brings it again
      obtain ⟨period, hschedule⟩ := hturn
      have hrest : ∀ other ∈ rest, ∀ period, other.schedule? ≠ some (h, period) := by
        intro other hother otherPeriod hagain
        refine hnodup.1 (mem_map.mpr ⟨other, hother, ?_⟩)
        rw [familyId_of_schedule? hagain,
          familyId_of_schedule? hschedule]
      have hafter := env.runFamilies_preserves policyVersion run rest
        (I := fun s' => π s' = π (env.runFamily policyVersion run family s).2)
        (fun other hother s' hs' => (hskips other s' (hrest other hother)).trans hs') rfl
      rw [hafter, env.view_runFamily _ _ hevent]
      simp only [scheduled?, hschedule, if_true, hact]
    · have hne : ∀ period, family.schedule? ≠ some (h, period) := fun period hschedule =>
        hturn ⟨period, hschedule⟩
      have hskip : scheduled? h (family :: rest) = scheduled? h rest := by
        cases hschedule : family.schedule? with
        | none => simp only [scheduled?, hschedule]
        | some found =>
          have hhandler : found.1 ≠ h := by
            rintro rfl
            exact hne found.2 hschedule
          simp only [scheduled?, hschedule, hhandler, if_false]
      rw [hskip, ih hnodup.2]
      split
      · rw [horizon_congr _ _ _ (env.legalHolds_runFamily policyVersion run family s)]
        exact hcongr _ _ _ (hskips family s hne)
      · exact hskips family s hne

end Environment

/-- The tables that only the handler of their own family writes to. -/
def RetainedTable.IsPrivate (t : RetainedTable) : Prop := t ≠ .lifecycleEvents ∧ t ≠ .caseResults

instance (t : RetainedTable) : Decidable t.IsPrivate :=
  inferInstanceAs (Decidable (_ ∧ _))

namespace Environment

variable (env : Environment) (run : Run) (policy : RetentionPolicy) (s : DataStores)

/-- The horizon of a handler in a run, where its family is enforced. -/
def horizon? (h : FamilyHandler) : Option Horizon :=
  (scheduled? h policy.families).map fun found => found.1.horizon found.2 run.now s

variable {policy} in
/-- No family brings the handler of another into a run. -/
theorem horizon?_of_schedule?
    (hfamily : family ∈ policy.families) (hschedule : family.schedule? = some (h, period)) :
    horizon? run policy s h = some (family.horizon period run.now s) := by
  cases hscheduled : scheduled? h policy.families with
  | none => exact absurd hschedule (schedule?_ne_of_scheduled?_eq_none hscheduled family hfamily _)
  | some found =>
    obtain ⟨hmem, hfound⟩ := schedule?_of_scheduled? hscheduled
    have hid : found.1.familyId = family.familyId := by
      rw [familyId_of_schedule? hfound,
        familyId_of_schedule? hschedule]
    have hsame : found.1 = family := inj_on_of_nodup_map policy.nodup hmem hfamily hid
    rw [hsame, hschedule] at hfound
    cases hfound
    simp [horizon?, hscheduled, hsame]

/-- What a run does to a view that one handler acts on. -/
theorem view_run {α : Type} {π : DataStores → α} (h : FamilyHandler)
    (act : Horizon → DataStores → α)
    (hevent : ∀ s event, π (saveLifecycleEvent s event) = π s)
    (hact : ∀ horizon s, π (env.expire horizon h s).stores = act horizon s)
    (hkeeps : ∀ horizon h' s, h' ≠ h → π (env.expire horizon h' s).stores = π s)
    (hcongr : ∀ horizon s s', π s' = π s → act horizon s' = act horizon s) :
    π (env.runDataLifecycle run policy s).2 =
      match horizon? run policy s h with
      | some horizon => act horizon s
      | none => π s := by
  refine (env.view_runFamilies policy.policyVersion run h act hevent hact hkeeps hcongr
    policy.nodup s).trans ?_
  unfold horizon?
  cases scheduled? h policy.families <;> rfl

variable {t : RetainedTable}

/-- A table of a family is swept, if the family is enforced. -/
theorem tables_run (ht : t.IsPrivate) :
    (env.runDataLifecycle run policy s).2.tables t =
      match horizon? run policy s t.handler with
      | some horizon => (s.tables t).sweep (env.scan t) (t.isDue env.iso horizon)
      | none => s.tables t := by
  refine env.view_run run policy s (π := fun s => s.tables t) t.handler
    (fun horizon s => (s.tables t).sweep (env.scan t) (t.isDue env.iso horizon))
    (fun s _ => s.tables_put_of_ne ht.1 _) (fun horizon s => env.tables_expire horizon s t) ?_ ?_
  · intro horizon handler s hne
    exact env.tables_expire_of_ne horizon s (Ne.symm hne) fun _ => ht.2
  · intro horizon s s' htable
    rw [htable]

theorem tables_run_of_horizon? (ht : t.IsPrivate) {horizon : Horizon}
    (hhorizon : horizon? run policy s t.handler = some horizon) :
    (env.runDataLifecycle run policy s).2.tables t =
      (s.tables t).sweep (env.scan t) (t.isDue env.iso horizon) := by
  rw [env.tables_run run policy s ht, hhorizon]

/-- A horizon of a run depends on the stores through the holds only. -/
theorem horizon?_congr {s s' : DataStores} (h : FamilyHandler)
    (hholds : s'.legalHolds = s.legalHolds) : horizon? run policy s' h = horizon? run policy s h := by
  unfold horizon?
  simp only [horizon_congr _ _ _ hholds]

end Environment

def listed (env : Environment) (s : DataStores) (t : RetainedTable) : List t.Row :=
  (env.scan t).window (s.tables t).list

theorem mem_of_mem_listed
    (h : row ∈ listed env s t) : row ∈ s.tables t :=
  mem_list.mp ((env.scan t).mem_of_mem_window h)

/-- A table without limit is listed as a whole. -/
theorem mem_listed_of_limit_eq_none
    (hlimit : t.limit = none) : row ∈ listed env s t ↔ row ∈ s.tables t :=
  ⟨mem_of_mem_listed, fun h =>
    (env.scan t).mem_window_of_limit_eq_none hlimit (mem_list.mpr h)⟩

section Survival

variable {env : Environment} {run : Run} {policy : RetentionPolicy} {s : DataStores}
  {t : RetainedTable} {row : t.Row} {horizon : Horizon}

/-- A row that its handler does not pick is left. -/
theorem mem_tables_run_of_not_due (ht : t.IsPrivate) (hrow : row ∈ s.tables t)
    (hdue : ∀ horizon, horizon? run policy s t.handler = some horizon →
      row ∈ listed env s t → t.isDue env.iso horizon row = false) :
    row ∈ (env.runDataLifecycle run policy s).2.tables t := by
  rw [env.tables_run run policy s ht]
  cases hhorizon : horizon? run policy s t.handler with
  | none => exact hrow
  | some horizon => exact mem_sweep.mpr ⟨hrow, hdue horizon hhorizon⟩

/-- A row that is listed and picked is lost. -/
theorem not_due_of_mem_tables_run (ht : t.IsPrivate)
    (hleft : row ∈ (env.runDataLifecycle run policy s).2.tables t)
    (hhorizon : horizon? run policy s t.handler = some horizon)
    (hlisted : row ∈ listed env s t) : t.isDue env.iso horizon row = false := by
  rw [env.tables_run run policy s ht, hhorizon] at hleft
  exact (mem_sweep.mp hleft).2 hlisted

/-- The key of a row that is not picked is not among those that are deleted. -/
theorem not_mem_expired (hrow : row ∈ s.tables t) (hdue : t.isDue env.iso horizon row = false) :
    t.key row ∉ env.expired horizon t s := by
  intro hexpired
  obtain ⟨other, hother, hkey⟩ := mem_map.mp hexpired
  obtain rfl := eq_of_key_eq (mem_of_mem_due hother) hrow hkey
  have hpicked := (mem_due.mp hother).2
  rw [hdue] at hpicked
  cases hpicked

/-- Rows that go with the rows of a table: what a run leaves of them. -/
theorem dependents_run {κ ν : Type} [DecidableEq κ] {key : ν → κ} {π : DataStores → Table key}
    {parent : ν → String} (ht : t.IsPrivate)
    (hevent : ∀ s event, π (saveLifecycleEvent s event) = π s)
    (hcascade : ∀ horizon s, π (env.expire horizon t.handler s).stores =
      (π s).deleteWhere fun child => parent child ∈ env.expired horizon t s)
    (hkeeps : ∀ horizon h s, h ≠ t.handler → π (env.expire horizon h s).stores = π s) :
    π (env.runDataLifecycle run policy s).2 =
      match horizon? run policy s t.handler with
      | some horizon => (π s).deleteWhere fun child => parent child ∈ env.expired horizon t s
      | none => π s := by
  -- the rows are part of the view, since the cascade depends on them
  have hview := env.view_run run policy s (π := fun s => (s.tables t, π s)) t.handler
    (fun horizon s => ((s.tables t).sweep (env.scan t) (t.isDue env.iso horizon),
      (π s).deleteWhere fun child => parent child ∈ env.expired horizon t s)) ?_ ?_ ?_ ?_
  · apply (congrArg Prod.snd hview).trans
    cases horizon? run policy s t.handler <;> rfl
  · intro s event
    exact Prod.ext (s.tables_put_of_ne ht.1 _) (hevent s event)
  · intro horizon s
    exact Prod.ext (env.tables_expire horizon s t) (hcascade horizon s)
  · intro horizon handler s hne
    exact Prod.ext (env.tables_expire_of_ne horizon s (Ne.symm hne) fun _ => ht.2)
      (hkeeps horizon handler s hne)
  · intro horizon s s' hview
    obtain ⟨htable, hdependents⟩ := Prod.mk.inj hview
    rw [htable, hdependents, env.expired_congr _ htable]

end Survival

/-! ### A run on New Year's Day -/

/-- The first instant of 2026, in microseconds. -/
def newYear2026 : ℤ := 1767225600000000

/-- A reader of two texts, and a writer of one of them. -/
def calendar : Environment where
  iso := ⟨fun text =>
    if text = "2026-01-01T00:00:00+00:00" then some (.aware newYear2026)
    else if text = "2015-01-01T00:00:00+00:00" then some (.aware 1420070400000000)
    else none⟩
  isoformat instant := if instant = newYear2026 then "2026-01-01T00:00:00+00:00" else "later"
  notBefore instant := by
    by_cases h : instant = newYear2026
    · subst h
      decide +kernel
    · simp only [h, if_false]
      rfl
  sha256 := id
  listing _ := .stored

/-- A run on that day. -/
def newYearRun : Run := ⟨"scheduler", newYear2026, fun familyId => familyId⟩

end LotusAI.Lifecycle
