import LotusAI.Lib.Sweep
import Mathlib.Data.String.Basic

/-!
# Source events of workflow-pack runs

The catalogue of source events takes a window of runs first, and orders the events of the runs
it keeps afterwards. A late event of a run that is not in the window is not seen, however late
it is. With a filter on supportability the window is taken before the filter.
-/

namespace LotusAI.WorkflowPacks

open Lib List

/-- `WorkflowPackRunRuntimeState`. -/
inductive RuntimeState
  | staged | running | completed | failed | expired | superseded
  deriving DecidableEq

/-- `WorkflowPackRunReviewState`. -/
inductive ReviewState
  | notReviewRequired | awaitingReview | accepted | rejected | revised | superseded | abandoned
  deriving DecidableEq

/-- `WorkflowPackRunSupportabilityStatus`. -/
inductive SupportabilityStatus
  | ready | actionRequired | historical
  deriving DecidableEq

/-- `WorkflowPackRunRecord`. -/
structure RunRecord where
  runId : String
  packId : String
  callerApp : String
  tenantId : Option String
  workflowSurface : Option String
  runtimeState : RuntimeState
  reviewState : ReviewState
  reviewRequired : Bool
  evidenceDescriptorCount : ℕ
  artifactRefCount : ℕ
  supersededByRunId : Option String
  createdAt : String
  deriving DecidableEq

/-- `WorkflowPackRunEventRecord`. -/
structure RunEventRecord where
  eventId : String
  eventType : String
  recordedAt : String
  deriving DecidableEq

/-- The runs, and the ledger of each. -/
structure RunStore where
  runs : Table RunRecord.runId
  events : Dict String (List RunEventRecord)

/-- `list_events`: oldest first. -/
def RunStore.listEvents (store : RunStore) (runId : String) : List RunEventRecord :=
  ((store.events.get? runId).getD []).insertionSort fun a b => a.recordedAt ≤ b.recordedAt

/-- `resolve_workflow_pack_run_record_supportability_status`. -/
def resolveSupportabilityStatus (record : RunRecord) : SupportabilityStatus :=
  if record.supersededByRunId.isSome ∨ record.reviewState ∈ [.revised, .superseded] ∨
      record.runtimeState = .superseded then .historical
  else if record.runtimeState ∈ [.failed, .expired] ∨
      record.reviewState ∈ [.rejected, .abandoned] ∨
      (record.reviewRequired ∧ record.reviewState = .awaitingReview) ∨
      record.artifactRefCount = 0 ∨ record.evidenceDescriptorCount = 0 then .actionRequired
  else .ready

/-- The filters of a catalogue. -/
structure EventFilters where
  packId : Option String := none
  callerApp : Option String := none
  tenantId : Option String := none
  workflowSurface : Option String := none
  supportabilityStatus : Option SupportabilityStatus := none
  deriving DecidableEq

/-- What `query_runs` filters by. -/
def EventFilters.queries (filters : EventFilters) (record : RunRecord) : Bool :=
  filters.packId.all (record.packId = ·) ∧ filters.callerApp.all (record.callerApp = ·) ∧
    filters.tenantId.all (record.tenantId = some ·) ∧
    filters.workflowSurface.all (record.workflowSurface = some ·)

/-- `_run_matches_filters`. -/
def EventFilters.matchesRun (filters : EventFilters) (record : RunRecord) : Bool :=
  filters.supportabilityStatus.all (resolveSupportabilityStatus record = ·)

/-- `_source_run_query_limit`. -/
def EventFilters.sourceRunQueryLimit (filters : EventFilters) (limit : ℕ) : ℕ :=
  match filters.supportabilityStatus with
  | none => limit
  | some _ => min (max (limit * 10) limit) 500

/-- A source event: one event of the ledger of a run. -/
structure SourceEvent where
  record : RunRecord
  event : RunEventRecord
  deriving DecidableEq

def SourceEvent.recordedAt (e : SourceEvent) : String := e.event.recordedAt

/-- `events.sort(key=…, reverse=True)`: newest first, and those of one instant as they were. -/
def newestFirst (events : List SourceEvent) : List SourceEvent :=
  events.insertionSort fun a b => b.recordedAt ≤ a.recordedAt

/-- `_build_source_events_for_run`, for each of some runs. -/
def RunStore.sourceEvents (store : RunStore) (runs : List RunRecord) : List SourceEvent :=
  runs.flatMap fun record => (store.listEvents record.runId).map (SourceEvent.mk record)

section Catalog

variable (listing : Listing RunRecord) (store : RunStore) (filters : EventFilters) (limit : ℕ)

/-- The runs a query without limit would yield. -/
def listedRuns : List RunRecord := listing.arrange (store.runs.list.filter filters.queries)

/-- The events of the runs that `query_runs` yields and the other filter keeps. -/
def windowEvents : List SourceEvent :=
  store.sourceEvents (((listedRuns listing store filters).take
    (filters.sourceRunQueryLimit limit)).filter filters.matchesRun)

/-- The events of the runs that `query_runs` stops before. -/
def eventsBeyond : List SourceEvent :=
  store.sourceEvents (((listedRuns listing store filters).drop
    (filters.sourceRunQueryLimit limit)).filter filters.matchesRun)

/-- `build_workflow_pack_source_event_catalog`, where the store lists its runs in some order. -/
def buildSourceEventCatalog : List SourceEvent :=
  (newestFirst (windowEvents listing store filters limit)).take limit

/-- All events of all runs that match the filters. -/
def matchingEvents : List SourceEvent :=
  store.sourceEvents (store.runs.list.filter fun record =>
    filters.queries record ∧ filters.matchesRun record)

end Catalog

/-- As many of the events as there may be, newest first, and none of the others is newer. -/
structure IsNewest (limit : ℕ) (events newest : List SourceEvent) : Prop where
  sorted : newest.Pairwise fun a b => b.recordedAt ≤ a.recordedAt
  length : newest.length = min limit events.length
  others : ∃ rest, (newest ++ rest).Perm events ∧
    ∀ e ∈ rest, ∀ a ∈ newest, e.recordedAt ≤ a.recordedAt

/-! ### What the window loses -/

section Newest

variable {inside beyond : List SourceEvent} (limit : ℕ)

theorem pairwise_newestFirst (events : List SourceEvent) :
    (newestFirst events).Pairwise fun a b => b.recordedAt ≤ a.recordedAt := by
  have : Std.Total fun a b : SourceEvent => b.recordedAt ≤ a.recordedAt := ⟨fun _ _ => le_total ..⟩
  have : IsTrans SourceEvent fun a b => b.recordedAt ≤ a.recordedAt :=
    ⟨fun _ _ _ hab hbc => hbc.trans hab⟩
  exact pairwise_insertionSort _ events

/-- The events that are as late as an instant stand before the others. -/
theorem le_of_mem_take {instant : String} {sorted : List SourceEvent}
    (hsorted : sorted.Pairwise fun a b => b.recordedAt ≤ a.recordedAt)
    (hcount : limit ≤ sorted.countP (instant ≤ ·.recordedAt)) :
    ∀ a ∈ sorted.take limit, instant ≤ a.recordedAt := by
  intro a ha
  by_contra hearlier
  rw [← take_append_drop limit sorted] at hsorted hcount
  have hdrop : (sorted.drop limit).countP (instant ≤ ·.recordedAt) = 0 := by
    refine countP_eq_zero.mpr fun b hb hlate => hearlier ?_
    exact (of_decide_eq_true hlate).trans ((pairwise_append.mp hsorted).2.2 a ha b hb)
  have htake : (sorted.take limit).countP (instant ≤ ·.recordedAt) < (sorted.take limit).length :=
    countP_le_length.lt_of_ne fun hall =>
      hearlier (of_decide_eq_true (countP_eq_length.mp hall a ha))
  rw [countP_append, hdrop] at hcount
  rw [length_take] at htake
  omega

/-- The newest events of a window are the newest of all, unless one beyond the window is newer
than one of them or has a place left. -/
theorem isNewest_iff {events : List SourceEvent} (hall : (inside ++ beyond).Perm events) :
    IsNewest limit events ((newestFirst inside).take limit) ↔
      ∀ e ∈ beyond, limit ≤ inside.countP (e.recordedAt ≤ ·.recordedAt) := by
  have hperm : (newestFirst inside).Perm inside := perm_insertionSort ..
  have hsorted := pairwise_newestFirst inside
  generalize newestFirst inside = sorted at hperm hsorted
  have hlength : events.length = sorted.length + beyond.length := by
    rw [← hall.length_eq, length_append, hperm.length_eq]
  have hsplit : (sorted.take limit ++ (sorted.drop limit ++ beyond)).Perm events := by
    rw [← append_assoc, take_append_drop]
    exact (hperm.append_right beyond).trans hall
  constructor
  · intro h e he
    obtain ⟨rest, hrest, hlate⟩ := h.others
    have hmem : e ∈ rest := by
      have hsame := (perm_append_left_iff _).mp (hrest.trans hsplit.symm)
      exact hsame.mem_iff.mpr (mem_append_right _ he)
    have hfull := h.length
    have hpos := length_pos_of_mem he
    rw [length_take] at hfull
    calc limit = (sorted.take limit).length := by rw [length_take]; omega
      _ = (sorted.take limit).countP (e.recordedAt ≤ ·.recordedAt) :=
          (countP_eq_length.mpr fun a ha => decide_eq_true (hlate e hmem a ha)).symm
      _ ≤ sorted.countP (e.recordedAt ≤ ·.recordedAt) := (take_sublist ..).countP_le
      _ = inside.countP (e.recordedAt ≤ ·.recordedAt) := hperm.countP_eq _
  · intro h
    refine ⟨hsorted.sublist (take_sublist ..), ?_, _, hsplit, ?_⟩
    · cases hbeyond : beyond with
      | nil => simp [hlength, hbeyond]
      | cons e rest =>
        have hcount := (h e (by simp [hbeyond])).trans (countP_le_length)
        rw [length_take, hlength, hperm.length_eq]
        omega
    · intro e he a ha
      rcases mem_append.mp he with hdrop | hout
      · have hpair := hsorted
        rw [← take_append_drop limit sorted] at hpair
        exact (pairwise_append.mp hpair).2.2 a ha e hdrop
      · exact le_of_mem_take limit hsorted (hperm.countP_eq _ ▸ h e hout) a ha

end Newest

variable (listing : Listing RunRecord) (store : RunStore) (filters : EventFilters) (limit : ℕ)

theorem perm_matchingEvents :
    (windowEvents listing store filters limit ++ eventsBeyond listing store filters limit).Perm
      (matchingEvents store filters) := by
  rw [windowEvents, eventsBeyond, RunStore.sourceEvents, RunStore.sourceEvents,
    ← flatMap_append, ← filter_append, take_append_drop, matchingEvents]
  refine List.Perm.flatMap_right _ ?_
  have hboth : ∀ record : RunRecord, decide (filters.queries record ∧ filters.matchesRun record) =
      (filters.matchesRun record && filters.queries record) := by
    intro record
    rw [Bool.decide_and, Bool.decide_eq_true, Bool.decide_eq_true, Bool.and_comm]
  simp only [hboth]
  rw [← filter_filter]
  exact (listing.perm _).filter _

/-- A run with its one event. -/
def sampleRun (runId createdAt : String) : RunRecord where
  runId := runId
  packId := "pack"
  callerApp := "app"
  tenantId := none
  workflowSurface := none
  runtimeState := .completed
  reviewState := .accepted
  reviewRequired := true
  evidenceDescriptorCount := 1
  artifactRefCount := 1
  supersededByRunId := none
  createdAt := createdAt

/-- The old run was reviewed after the new one was made. -/
def sampleStore : RunStore where
  runs := .ofList [sampleRun "old" "2026-01-01", sampleRun "new" "2026-01-02"]
  events := (Dict.empty.insert "old" [⟨"review", "REVIEW_STATE_UPDATED", "2026-01-03"⟩]).insert
    "new" [⟨"made", "RUN_RECORDED", "2026-01-02"⟩]

/-- The runs of the store in memory, newest first. -/
def newestRunsFirst : Listing RunRecord where
  arrange runs := runs.insertionSort fun a b => b.createdAt ≤ a.createdAt
  perm _ := List.perm_insertionSort ..

end LotusAI.WorkflowPacks
