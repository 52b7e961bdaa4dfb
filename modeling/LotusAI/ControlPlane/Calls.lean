import LotusAI.Catalogue.Lifecycle
import LotusAI.Catalogue.ServingPolicy
import LotusAI.Governance.Sessions
import LotusAI.KillSwitch.Switches
import LotusAI.Prompts.Rollout

/-!
# The stores of the control plane and the calls on them

The operations of the control plane read rows, decide, and write rows back: kill-switch
activations, prompt rollout, the model catalogue with its lifecycle events, the serving policy.
Each repository call is atomic, and nothing between two calls is.

Beside the stores stands what an observer of the calls sees: every row an operation has read,
the lifecycle event it still owes to a row it has written, and every write together with the
row it replaced. None of this is read back by an operation.
-/

namespace LotusAI.ControlPlane

open Lib Governance KillSwitch Prompts Catalogue Option

/-! ### Stores -/

/-- A catalogue row is stored under the key of its identity. -/
abbrev entryKey (entry : ModelCatalogueEntry) : String := entry.entryId

/-- The durable rows that the operations read and write. -/
structure Stores where
  activations : Table KillSwitchActivation.switchId
  prompts : PromptStore
  entries : Table entryKey
  /-- Oldest first. -/
  lifecycleEvents : List ModelLifecycleTransition
  policies : Table ServingPolicyVersion.version

/-- The recorded transitions of one row, oldest first. -/
def Stores.history (stores : Stores) (entryId : String) : List ModelLifecycleTransition :=
  stores.lifecycleEvents.filter (·.entryId = entryId)

/-! ### What is observed -/

/-- A row as an operation has read it. -/
inductive Reading
  | activation (switchId : String) (found : Option KillSwitchActivation)
  | rollout (taskId : String) (found : Option PromptRolloutState)
  | version (key : String × String) (found : Option PromptDescriptor)
  | entry (entryId : String) (found : Option ModelCatalogueEntry)
  | candidate (candidateIdV2 : String) (found : Option ModelCatalogueEntry)
  | policy (found : Option ServingPolicyVersion)

/-- The row is still as it was read. -/
def Reading.Current (sha256 : String → String) (stores : Stores) : Reading → Prop
  | activation switchId found => stores.activations.get? switchId = found
  | rollout taskId found => stores.prompts.rollouts.get? taskId = found
  | version key found => stores.prompts.versions.get? key = found
  | entry entryId found => stores.entries.get? entryId = found
  | candidate candidateIdV2 found =>
    getEntryByCandidateId sha256 stores.entries.rows candidateIdV2 = found
  | policy found => getCurrentServingPolicy stores.policies.rows = found

instance (sha256 : String → String) (stores : Stores) (reading : Reading) :
    Decidable (reading.Current sha256 stores) :=
  match reading with
  | .activation _ _ => inferInstanceAs (Decidable (_ = _))
  | .rollout _ _ => inferInstanceAs (Decidable (_ = _))
  | .version _ _ => inferInstanceAs (Decidable (_ = _))
  | .entry _ _ => inferInstanceAs (Decidable (_ = _))
  | .candidate _ _ => inferInstanceAs (Decidable (_ = _))
  | .policy _ => inferInstanceAs (Decidable (_ = _))

/-- What a reading found of one activation. -/
def Reading.activation? (switchId : String) : Reading → Option (Option KillSwitchActivation)
  | activation key found => if key = switchId then some found else none
  | _ => none

def Reading.rollout? (taskId : String) : Reading → Option (Option PromptRolloutState)
  | rollout key found => if key = taskId then some found else none
  | _ => none

def Reading.version? (key : String × String) : Reading → Option (Option PromptDescriptor)
  | version key' found => if key' = key then some found else none
  | _ => none

/-- What a reading found under one row key. -/
def Reading.entry? (entryId : String) : Reading → Option (Option ModelCatalogueEntry)
  | entry key found => if key = entryId then some found else none
  | _ => none

/-- What a reading found as the current serving policy. -/
def Reading.policy? : Reading → Option (Option ServingPolicyVersion)
  | policy found => some found
  | _ => none

/-- What one operation has done so far, as far as it matters for its next write. -/
structure Notes where
  /-- Newest first. -/
  readings : List Reading
  /-- The event of a row that is written and whose event is not. -/
  pending : Option ModelLifecycleTransition

/-- Before an operation has read anything. -/
def Notes.none : Notes := ⟨[], .none⟩

/-- One more reading. -/
def Notes.note (notes : Notes) (reading : Reading) : Notes :=
  { notes with readings := reading :: notes.readings }

/-- The first reading of a row, if there was one. -/
def Notes.first {Row : Type} (notes : Notes) (pick : Reading → Option (Option Row)) :
    Option (Option Row) :=
  notes.readings.reverse.findSome? pick

/-- Why a catalogue row is written. -/
inductive EntryCause
  | transition (event : ModelLifecycleTransition)
  | promotion (record : GovernedActionRecord) (event : ModelLifecycleTransition)
  | degradation (dimension : String)
  | restore (record : GovernedActionRecord) (dimension : String)
  | seeding
  deriving DecidableEq

/-- The lifecycle event that belongs to a row write. -/
def EntryCause.event? : EntryCause → Option ModelLifecycleTransition
  | transition event => some event
  | promotion _ event => some event
  | _ => none

/-- The governed action that a row write is the effect of. -/
def EntryCause.governed? : EntryCause → Option GovernedActionRecord
  | promotion record _ => some record
  | restore record _ => some record
  | _ => none

/-- A write: what its operation had first read, what it replaced, and why it was made. -/
structure Write (Row Cause : Type) where
  read : Option (Option Row)
  before : Option Row
  after : Row
  cause : Cause

/-- The writes to each table, newest first. Where the cause is an optional record, it is the
governed action that the write is the effect of. -/
structure Log where
  activations : List (Write KillSwitchActivation (Option GovernedActionRecord))
  rollouts : List (Write PromptRolloutState (Option GovernedActionRecord))
  versions : List (Write PromptDescriptor (Option GovernedActionRecord))
  entries : List (Write ModelCatalogueEntry EntryCause)
  policies : List (Write ServingPolicyVersion (Option GovernedActionRecord))

/-- The stores, and what was observed. -/
structure World (ι : Type) where
  governance : Governance.World ι
  stores : Stores
  notes : ι → Notes
  log : Log

namespace World

variable {ι : Type}

/-- No governed action has been requested yet; the rows are given. -/
def start (stores : Stores) : World ι where
  governance := .initial
  stores := stores
  notes _ := .none
  log := ⟨[], [], [], [], []⟩

def writeActivation (w : World ι) (i : ι) (activation : KillSwitchActivation)
    (cause : Option GovernedActionRecord) : World ι :=
  let write : Write _ _ :=
    { read := (w.notes i).first (Reading.activation? activation.switchId)
      before := w.stores.activations.get? activation.switchId
      after := activation
      cause := cause }
  { w with
    stores := { w.stores with activations := w.stores.activations.upsert activation }
    log := { w.log with activations := write :: w.log.activations } }

/-- The write of one version by a rollout transition. -/
def versionWrite (w : World ι) (i : ι) (cause : Option GovernedActionRecord)
    (written : PromptDescriptor) : Write PromptDescriptor (Option GovernedActionRecord) :=
  let before := w.stores.prompts.versions.get? written.key
  { read := (w.notes i).first (Reading.version? written.key)
    before := before
    after := (before.map (·.managedAs written)).getD written
    cause := cause }

/-- A rollout transition is written; `prompts` is the store it leaves. -/
def writeRollout (w : World ι) (i : ι) (transition : RolloutTransition) (prompts : PromptStore)
    (cause : Option GovernedActionRecord) : World ι :=
  let write : Write _ _ :=
    { read := (w.notes i).first (Reading.rollout? transition.state.taskId)
      before := w.stores.prompts.rollouts.get? transition.state.taskId
      after := transition.state
      cause := cause }
  { w with
    stores := { w.stores with prompts := prompts }
    log := { w.log with
      rollouts := write :: w.log.rollouts
      versions := transition.prompts.map (w.versionWrite i cause) ++ w.log.versions } }

/-- A policy version is written; what it follows on is the version that was operative. -/
def writePolicy (w : World ι) (i : ι) (record : ServingPolicyVersion)
    (cause : Option GovernedActionRecord) : World ι :=
  let write : Write _ _ :=
    { read := (w.notes i).first Reading.policy?
      before := getCurrentServingPolicy w.stores.policies.rows
      after := record
      cause := cause }
  { w with
    stores := { w.stores with policies := w.stores.policies.upsert record }
    log := { w.log with policies := write :: w.log.policies } }

variable [DecidableEq ι]

/-- An operation reads a row. -/
def note (w : World ι) (i : ι) (reading : Reading) : World ι :=
  { w with notes := Function.update w.notes i ((w.notes i).note reading) }

/-- A catalogue row is written; its operation owes the event that belongs to it. -/
def writeEntry (w : World ι) (i : ι) (row : ModelCatalogueEntry) (cause : EntryCause) : World ι :=
  let write : Write _ _ :=
    { read := (w.notes i).first (Reading.entry? row.entryId)
      before := w.stores.entries.get? row.entryId
      after := row
      cause := cause }
  { w with
    stores := { w.stores with entries := w.stores.entries.upsert row }
    notes := Function.update w.notes i { w.notes i with pending := cause.event? }
    log := { w.log with entries := write :: w.log.entries } }

def appendEvent (w : World ι) (i : ι) (event : ModelLifecycleTransition) : World ι :=
  { w with
    stores := { w.stores with lifecycleEvents := w.stores.lifecycleEvents ++ [event] }
    notes := Function.update w.notes i { w.notes i with pending := .none } }

end World

/-! ### Calls -/

/-- `AuthorizationCapabilityType`, as far as the control plane asks for it. -/
inductive Capability
  | promptControl
  | providerControl
  deriving DecidableEq

/-- One call of an operation. A write names what it is the effect of; the store does not
read that. -/
inductive Call
  /-- A call of the governed-action services. -/
  | governed (call : Governance.Call)
  | authorizeRequest (callerApp : String) (capability : Capability) (taskId : Option String)
  | utcNowIso
  /-- Random hexadecimal digits. -/
  | uuidHex
  | promptApprovalGate
  | getRun (runId : String)
  | getActivation (switchId : String)
  | listActivations
  | upsertActivation (activation : KillSwitchActivation) (cause : Option GovernedActionRecord)
  | getPromptRolloutState (taskId : String)
  | getPromptVersion (taskId promptVersion : String)
  | savePromptRolloutTransition (transition : RolloutTransition)
      (cause : Option GovernedActionRecord)
  | getEntry (entryId : String)
  | getEntryByCandidateId (candidateIdV2 : String)
  | upsertEntry (row : ModelCatalogueEntry) (cause : EntryCause)
  | appendLifecycleEvent (event : ModelLifecycleTransition)
  | getCurrentServingPolicy
  | saveServingPolicyVersion (record : ServingPolicyVersion)
      (cause : Option GovernedActionRecord)

@[reducible] def Call.Answer : Call → Type
  | governed call => call.Answer
  | authorizeRequest _ _ _ => AuthorizationDecision
  | utcNowIso => String
  | uuidHex => String
  | promptApprovalGate => EvidenceState
  | getRun _ => Option RunVerdict
  | getActivation _ => Option KillSwitchActivation
  | listActivations => List KillSwitchActivation
  | upsertActivation _ _ => Unit
  | getPromptRolloutState _ => Option PromptRolloutState
  | getPromptVersion _ _ => Option PromptDescriptor
  | savePromptRolloutTransition _ _ => Except Raised Unit
  | getEntry _ => Option ModelCatalogueEntry
  | getEntryByCandidateId _ => Option ModelCatalogueEntry
  | upsertEntry _ _ => Unit
  | appendLifecycleEvent _ => Unit
  | getCurrentServingPolicy => Option ServingPolicyVersion
  | saveServingPolicyVersion _ _ => Except Raised Unit

/-- What the environment contributes to a call. -/
inductive Choice
  | governed (choice : Governance.Choice)
  | store
  | authorization (decision : AuthorizationDecision)
  | time (now : String)
  | uuid (hex : String)
  | gate (state : EvidenceState)
  | run (found : Option RunVerdict)

variable {ι : Type} [DecidableEq ι]

/-- The effect of a call of operation `i`. `none` where the environment's choice is of the
wrong kind. -/
def Call.exec (sha256 : String → String) (i : ι) (w : World ι) :
    (call : Call) → Choice → Option (call.Answer × World ι)
  | governed call, .governed choice =>
    (call.exec i w.governance choice).map fun out => (out.1, { w with governance := out.2 })
  | authorizeRequest _ _ _, .authorization decision => some (decision, w)
  | utcNowIso, .time now => some (now, w)
  | uuidHex, .uuid hex => some (hex, w)
  | promptApprovalGate, .gate state => some (state, w)
  | getRun _, .run found => some (found, w)
  | getActivation switchId, .store =>
    let found := w.stores.activations.get? switchId
    some (found, w.note i (.activation switchId found))
  | listActivations, .store =>
    some (Activations.listActivations w.stores.activations.rows, w)
  | upsertActivation activation cause, .store => some ((), w.writeActivation i activation cause)
  | getPromptRolloutState taskId, .store =>
    let found := w.stores.prompts.rollouts.get? taskId
    some (found, w.note i (.rollout taskId found))
  | getPromptVersion taskId promptVersion, .store =>
    let found := w.stores.prompts.versions.get? (taskId, promptVersion)
    some (found, w.note i (.version (taskId, promptVersion) found))
  | savePromptRolloutTransition transition cause, .store =>
    match w.stores.prompts.saveRolloutTransition transition with
    | .error e => some (.error e, w)
    | .ok prompts => some (.ok (), w.writeRollout i transition prompts cause)
  | getEntry entryId, .store =>
    let found := w.stores.entries.get? entryId
    some (found, w.note i (.entry entryId found))
  | getEntryByCandidateId candidateIdV2, .store =>
    let found := Catalogue.getEntryByCandidateId sha256 w.stores.entries.rows candidateIdV2
    some (found, w.note i (.candidate candidateIdV2 found))
  | upsertEntry row cause, .store => some ((), w.writeEntry i row cause)
  | appendLifecycleEvent event, .store => some ((), w.appendEvent i event)
  | getCurrentServingPolicy, .store =>
    let found := Catalogue.getCurrentServingPolicy w.stores.policies.rows
    some (found, w.note i (.policy found))
  -- versions are never overwritten
  | saveServingPolicyVersion record cause, .store =>
    if (w.stores.policies.get? record.version).isSome then some (.error (.other "ValueError"), w)
    else some (.ok (), w.writePolicy i record cause)
  | _, _ => none

/-- What a call may answer and how it may leave the world. -/
def Call.Outcome (sha256 : String → String) (i : ι) (w w' : World ι) :
    (call : Call) → call.Answer → Prop
  | governed call, answer => ∃ governance, call.Outcome i w.governance governance answer ∧
      w' = { w with governance := governance }
  | authorizeRequest _ _ _, _ => w' = w
  | utcNowIso, _ => w' = w
  | uuidHex, _ => w' = w
  | promptApprovalGate, _ => w' = w
  | getRun _, _ => w' = w
  | getActivation switchId, found =>
    found = w.stores.activations.get? switchId ∧ w' = w.note i (.activation switchId found)
  | listActivations, _ => w' = w
  | upsertActivation activation cause, _ => w' = w.writeActivation i activation cause
  | getPromptRolloutState taskId, found =>
    found = w.stores.prompts.rollouts.get? taskId ∧ w' = w.note i (.rollout taskId found)
  | getPromptVersion taskId promptVersion, found =>
    found = w.stores.prompts.versions.get? (taskId, promptVersion) ∧
      w' = w.note i (.version (taskId, promptVersion) found)
  | savePromptRolloutTransition transition cause, _ =>
    w' = w ∨ ∃ prompts, w.stores.prompts.saveRolloutTransition transition = .ok prompts ∧
      w' = w.writeRollout i transition prompts cause
  | getEntry entryId, found =>
    found = w.stores.entries.get? entryId ∧ w' = w.note i (.entry entryId found)
  | getEntryByCandidateId candidateIdV2, found =>
    found = Catalogue.getEntryByCandidateId sha256 w.stores.entries.rows candidateIdV2 ∧
      w' = w.note i (.candidate candidateIdV2 found)
  | upsertEntry row cause, _ => w' = w.writeEntry i row cause
  | appendLifecycleEvent event, _ => w' = w.appendEvent i event
  | getCurrentServingPolicy, found =>
    found = Catalogue.getCurrentServingPolicy w.stores.policies.rows ∧
      w' = w.note i (.policy found)
  | saveServingPolicyVersion record cause, _ =>
    w' = w ∨ w.stores.policies.get? record.version = none ∧ w' = w.writePolicy i record cause

theorem Call.outcome_of_exec {sha256 : String → String} {i : ι} {w w' : World ι} {call : Call}
    {choice : Choice} {r : call.Answer} (h : call.exec sha256 i w choice = some (r, w')) :
    call.Outcome sha256 i w w' r := by
  cases call <;> cases choice <;> simp only [exec, reduceCtorEq] at h
  case governed.governed =>
    obtain ⟨⟨answer, governance⟩, hexec, hout⟩ := map_eq_some_iff.mp h
    cases hout
    exact ⟨governance, Governance.Call.outcome_of_exec hexec, rfl⟩
  case savePromptRolloutTransition.store =>
    split at h <;> cases h
    · exact .inl rfl
    · exact .inr ⟨_, ‹_›, rfl⟩
  case saveServingPolicyVersion.store =>
    split_ifs at h with hexists <;> cases h
    · exact .inl rfl
    · exact .inr ⟨not_isSome_iff_eq_none.mp hexists, rfl⟩
  -- readings
  case getActivation.store | getPromptRolloutState.store | getPromptVersion.store |
      getEntry.store | getEntryByCandidateId.store | getCurrentServingPolicy.store =>
    cases h
    exact ⟨rfl, rfl⟩
  -- calls that leave the world as it is, and writes that always succeed
  all_goals exact (congrArg Prod.snd (some.inj h)).symm

/-- The stores as a machine shared by the operations `ι`. -/
def machine (sha256 : String → String) (ι : Type) [DecidableEq ι] :
    Machine Call.Answer ι (World ι) Choice where
  exec i w call choice := call.exec sha256 i w choice

/-- An operation: a program over these calls that may raise. -/
abbrev Operation (α : Type) := Prog.Raising Call.Answer Raised α

/-- Perform a call. -/
abbrev ask (call : Call) : Operation call.Answer := Prog.ask call

end LotusAI.ControlPlane
