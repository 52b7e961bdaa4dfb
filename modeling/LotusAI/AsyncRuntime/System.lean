import LotusAI.AsyncRuntime.Saves

/-!
# The async runtime with its neighbours

The services call neighbours: the delivery queue, the evaluation runtime and the artifact stores.
What the first two keep is state beside the store, and a setting says how they answer. The same
programs then run over the store and that state together.
-/

namespace LotusAI.AsyncRuntime

open Lib Machine

/-- The async store, and what its neighbours keep. -/
structure System (N : Type) where
  store : Store
  beside : N

/-- Requests to the artifact stores. -/
def Neighbour.isArtifact : Neighbour → Bool
  | saveArtifact _ => true
  | deleteObject _ => true
  | _ => false

/-- A call that leaves the system as it is. -/
def Call.Passive : Call → Prop
  | .saveJob _ => False
  | .saveAttempt _ => False
  | .deleteLease _ => False
  | .saveControlEvent _ => False
  | .claimNextRunnableJob _ _ => False
  | .claimRunnableJobById _ _ => False
  | .transitionCurrentClaim _ => False
  | .recoverExpiredClaim _ => False
  | .neighbour request => request.isArtifact = true
  | _ => True

/-- What the services run in: how a lease is extended, and how the delivery queue and the
evaluation runtime answer under a choice of the environment. -/
structure Setting (N : Type) where
  extendLease : String → ℕ → String
  answer : N → Neighbour → Choice → Option (Except Raised Bool × N)

namespace Setting

variable {N : Type} (E : Setting N)

/-- What a call does to the system. The artifact stores answer or raise, and keep nothing. -/
def exec (σ : System N) (choice : Choice) : (call : Call) → Option (call.Answer × System N)
  | .neighbour request =>
    if request.isArtifact then
      match choice with
      | .neighbour result => some (result, σ)
      | _ => none
    else (E.answer σ.beside request choice).map fun (r, n) => (r, ⟨σ.store, n⟩)
  | call => (call.exec E.extendLease σ.store choice).map fun (r, s) => (r, ⟨s, σ.beside⟩)

def machine : Machine Call.Answer Unit (System N) Choice where
  exec _ σ call choice := E.exec σ choice call

/-- A service, started in `σ`, ends in `Q`, whether it returns or raises. -/
abbrev wp {α : Type} (p : Service α) (Q : Except Raised α → System N → Prop) (σ : System N) :
    Prop :=
  E.machine.wp () p.run Q σ

/-- The neighbours keep nothing and may answer anything. -/
def unobserved (extendLease : String → ℕ → String) : Setting Unit where
  extendLease := extendLease
  answer _ _ choice :=
    match choice with
    | .neighbour result => some (result, ())
    | _ => none

/-- What a service does where its neighbours are not observed, it does over the store alone. -/
theorem wp_unobserved {extendLease : String → ℕ → String} {α : Type} {p : Service α}
    {Q : Except Raised α → Store → Prop} {s : Store}
    (h : (unobserved extendLease).wp p (fun r σ => Q r σ.store) ⟨s, ()⟩) :
    (AsyncRuntime.machine extendLease).wp () p.run Q s := by
  refine wp_of_view (fun s => (⟨s, ()⟩ : System Unit)) (fun _ s call choice r s' hexec => ?_) h
  refine ⟨choice, ?_⟩
  change (unobserved extendLease).exec ⟨s, ()⟩ choice call = some (r, ⟨s', ()⟩)
  change call.exec extendLease s choice = some (r, s') at hexec
  cases call with
  | neighbour request =>
    cases choice <;> simp only [Call.exec, reduceCtorEq] at hexec
    cases hexec
    cases request <;> rfl
  | _ => exact Option.map_eq_some_iff.mpr ⟨_, hexec, rfl⟩

variable {E} {α β : Type} {σ : System N} {Q : Except Raised β → System N → Prop} {p : Service β}
  {f : α → Service β} {call : Call} {r : call.Answer}

theorem wp_mono {Q' : Except Raised β → System N → Prop} (h : ∀ r σ', Q r σ' → Q' r σ')
    (hp : E.wp p Q σ) : E.wp p Q' σ :=
  Machine.wp_mono h hp

/-- A raised exception skips what follows. -/
theorem wp_bind {p : Service α} :
    E.wp (p >>= f) Q σ ↔ E.wp p (fun r σ' => match r with
      | .ok a => E.wp (f a) Q σ'
      | .error e => Q (.error e) σ') σ := by
  unfold wp
  rw [wp_bindRaising]
  constructor <;> exact Machine.wp_mono fun r _ h => by cases r <;> exact h

/-! ### Single calls -/

/-- A call that the store answers on its own. -/
theorem wp_store_bind {s' : Store} {f : call.Answer → Service β}
    (hcall : call.exec E.extendLease σ.store .store = some (r, s'))
    (hf : E.wp (f r) Q ⟨s', σ.beside⟩) : E.wp (ask call >>= f) Q σ := by
  intro choice r' σ' hexec
  have hmap : (call.exec E.extendLease σ.store choice).map (fun (r, s) => (r, ⟨s, σ.beside⟩)) =
      some (r', σ') := by
    cases call <;> first | exact hexec | cases hcall
  obtain ⟨out, hout, heq⟩ := Option.map_eq_some_iff.mp hmap
  obtain rfl : choice = .store := by
    cases call <;> cases choice <;> first | rfl | (simp [Call.exec] at hout; done) |
      (simp [Call.exec] at hcall; done)
  cases hcall.symm.trans hout
  cases heq
  exact hf

theorem Passive.exec_eq (hpassive : call.Passive) {choice : Choice}
    {σ' : System N} (h : E.exec σ choice call = some (r, σ')) : σ' = σ := by
  cases call with
  | neighbour request =>
    have hartifact : request.isArtifact = true := hpassive
    simp only [exec, hartifact, if_true] at h
    cases choice <;> cases h
    rfl
  | _ => cases choice <;> first | exact hpassive.elim | (cases h; rfl) | cases h

/-- A service that only makes such calls. -/
theorem wp_of_passive (hp : p.run.CallsOnly Call.Passive) (h : ∀ r, Q r σ) : E.wp p Q σ := by
  have hsame : E.wp p (fun _ σ' => σ' = σ) σ :=
    wp_of_callsOnly
      (fun _ _ _ _ _ hpassive hσ hexec => (Passive.exec_eq hpassive hexec).trans hσ) hp rfl
  refine wp_mono (fun r σ' hσ => ?_) hsame
  rw [hσ]
  exact h r

theorem wp_passive_bind {p : Service α} (hp : p.run.CallsOnly Call.Passive)
    (hok : ∀ a, E.wp (f a) Q σ) (herror : ∀ e, Q (.error e) σ) : E.wp (p >>= f) Q σ := by
  rw [wp_bind]
  refine wp_of_passive hp fun r => ?_
  cases r with
  | ok a => exact hok a
  | error e => exact herror e

/-- Such a call by itself does not raise. -/
theorem wp_ask_bind {f : call.Answer → Service β} (h : ∀ r, E.wp (f r) Q σ)
    (hpassive : call.Passive := by trivial) : E.wp (ask call >>= f) Q σ := by
  intro choice r σ' hexec
  obtain rfl := Passive.exec_eq hpassive hexec
  exact h r

/-- A request to the delivery queue or the evaluation runtime. -/
theorem wp_request_bind {request : Neighbour} (hrequest : request.isArtifact = false)
    {f : Bool → Service β}
    (h : ∀ choice r n, E.answer σ.beside request choice = some (r, n) →
      match r with
      | .ok answer => E.wp (f answer) Q ⟨σ.store, n⟩
      | .error e => Q (.error e) ⟨σ.store, n⟩) :
    E.wp (askNeighbour request >>= f) Q σ := by
  rw [wp_bind]
  intro choice r σ' hexec
  change E.exec σ choice (.neighbour request) = some (r, σ') at hexec
  simp only [exec, hrequest, Bool.false_eq_true, if_false] at hexec
  obtain ⟨⟨r', n⟩, hanswer, heq⟩ := Option.map_eq_some_iff.mp hexec
  cases heq
  have hthen := h choice r' n hanswer
  cases r' with
  | ok answer | error e => exact hthen

end Setting

end LotusAI.AsyncRuntime
