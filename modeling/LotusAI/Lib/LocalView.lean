import LotusAI.Lib.Program
import Mathlib.Data.Stream.Init

/-!
# Reasoning about one thread on its own part of the state

When every thread of a pool works on a part of the shared state that no other
thread writes, each thread can be verified as if it ran alone on that part. A
view picks out the part of a thread; an abstraction of the machine says what a
call does to the view of its caller, that it leaves the other views alone, and
under which condition on the caller's view it keeps the shared invariant.
-/

namespace LotusAI.Lib

open Machine

variable {Op : Type} {Res : Op → Type} {ι S Ω V α β : Type}

/-- How the calls of a thread act on its own view of the state. -/
structure Locality (M : Machine Res ι S Ω) (V : Type) where
  /-- Holds in every state between two calls. -/
  inv : S → Prop
  /-- The part of the state a thread works on. -/
  view : ι → S → V
  /-- What a thread has to know of its view to perform a call. -/
  permitted : ι → Op → V → Prop
  /-- What a call may answer, and what it makes of the view. -/
  step : ι → (op : Op) → Res op → V → V → Prop
  /-- A permitted call keeps the invariant, acts on the caller's view and on no other. -/
  sound : ∀ {i s op ω r s'}, inv s → permitted i op (view i s) → M.exec i s op ω = some (r, s') →
    inv s' ∧ step i op r (view i s) (view i s') ∧ ∀ j, j ≠ i → view j s' = view j s

namespace Locality

variable {M : Machine Res ι S Ω} (L : Locality M V) {i : ι}

/-- Thread `i` may run `p` from the view `v`, and ends in `Q`. -/
def wp (i : ι) : Prog Res α → (α → V → Prop) → V → Prop
  | .pure a, Q, v => Q a v
  | .call op k, Q, v => L.permitted i op v ∧ ∀ r v', L.step i op r v v' → wp i (k r) Q v'

variable {L} {Q Q' : α → V → Prop} {v : V} {a : α} {p : Prog Res α}

theorem wp_call {op : Op} {k : Res op → Prog Res α} : L.wp i (.call op k) Q v ↔
    L.permitted i op v ∧ ∀ r v', L.step i op r v v' → L.wp i (k r) Q v' := Iff.rfl

theorem wp_mono (h : L.wp i p Q v) (hQ : ∀ a v, Q a v → Q' a v) : L.wp i p Q' v := by
  induction p generalizing v with
  | pure a => exact hQ a v h
  | call op k ih => exact ⟨h.1, fun r v' hstep => ih r (h.2 r v' hstep)⟩

theorem wp_bind {f : α → Prog Res β} {Q : β → V → Prop} :
    L.wp i (p >>= f) Q v ↔ L.wp i p (fun a v' => L.wp i (f a) Q v') v := by
  induction p generalizing v with
  | pure a => exact Iff.rfl
  | call op k ih =>
    rw [Prog.call_bind_eq, wp_call, wp_call]
    exact and_congr_right fun _ => forall_congr' fun r => forall_congr' fun v' =>
      imp_congr_right fun _ => ih r

/-! ### Programs that may raise -/

section Raising

variable {ε : Type} {R : Except ε β → V → Prop}

/-- A call, followed by the rest. -/
theorem wp_ask {op : Op} {f : Res op → Prog.Raising Res ε β} :
    L.wp i (ExceptT.run (Prog.ask op >>= f)) R v ↔
      L.permitted i op v ∧ ∀ r v', L.step i op r v v' → L.wp i (f r).run R v' := Iff.rfl

variable {f : α → Prog.Raising Res ε β} {p : Prog.Raising Res ε α}

/-- A sequence: an exception skips its second part. -/
theorem wp_bindRaising :
    L.wp i (ExceptT.run (p >>= f)) R v ↔ L.wp i p.run (fun result v' => match result with
        | .ok a => L.wp i (f a).run R v'
        | .error e => R (.error e) v') v := by
  rw [ExceptT.run_bind, wp_bind]
  constructor
  · intro h
    refine wp_mono h fun result v' hresult => ?_
    cases result <;> exact hresult
  · intro h
    refine wp_mono h fun result v' hresult => ?_
    cases result <;> exact hresult

/-- The rule for sequences: what the first part establishes is what the second starts from. -/
theorem wp_seq {P : Except ε α → V → Prop} (hp : L.wp i p.run P v)
    (hok : ∀ a v', P (.ok a) v' → L.wp i (f a).run R v')
    (herror : ∀ e v', P (.error e) v' → R (.error e) v') : L.wp i (ExceptT.run (p >>= f)) R v := by
  rw [wp_bindRaising]
  refine wp_mono hp fun result v' hresult => ?_
  cases result with
  | ok a => exact hok a v' hresult
  | error e => exact herror e v' hresult

end Raising

/-! ### Pools and runs -/

section Pool

variable [DecidableEq ι] {ok : ι → S → Op → Prop} {c c' : Config Res ι S α}
  {Q : ι → α → V → Prop}

/-- Threads verified alone keep the invariant, and what is left of them stays verified. -/
theorem reach (hinv : L.inv c.store)
    (hwp : ∀ i, L.wp i (c.threads i) (Q i) (L.view i c.store)) (hreach : M.Reach ok c c') :
    L.inv c'.store ∧ ∀ i, L.wp i (c'.threads i) (Q i) (L.view i c'.store) := by
  induction hreach with
  | refl => exact ⟨hinv, hwp⟩
  | tail _ hstep ih =>
    obtain ⟨next, -, answered⟩ := hstep
    rename_i mid i op k ω r s'
    have hi := ih.2 i
    rw [next] at hi
    obtain ⟨hinv', hview, hothers⟩ := L.sound ih.1 hi.1 answered
    refine ⟨hinv', fun j => ?_⟩
    by_cases hj : j = i
    · subst hj
      simpa using hi.2 r _ hview
    · simpa [Function.update_of_ne hj, hothers j hj] using ih.2 j

/-- What every permitted call keeps, made where `ok` allows it, holds along every
interleaving. -/
theorem invariant {J : S → Prop} (hinv : L.inv c.store)
    (hwp : ∀ i, L.wp i (c.threads i) (Q i) (L.view i c.store)) (hreach : M.Reach ok c c')
    (start : J c.store)
    (keeps : ∀ i s op ω r s', L.inv s → L.permitted i op (L.view i s) → ok i s op →
      M.exec i s op ω = some (r, s') → J s → J s') : J c'.store := by
  induction hreach with
  | refl => exact start
  | tail hbefore hstep ih =>
    obtain ⟨next, allowed, answered⟩ := hstep
    rename_i mid i op k ω r s'
    obtain ⟨hinv', hwp'⟩ := reach hinv hwp hbefore
    have hi := hwp' i
    rw [next] at hi
    exact keeps i mid.store op ω r s' hinv' hi.1 allowed answered ih

end Pool

/-- A program verified on its view, run alone, ends in its postcondition. -/
theorem run {s s' : S} {ωs : List Ω} (hinv : L.inv s)
    (hwp : L.wp i p Q (L.view i s)) (hrun : M.run i p s ωs = some (a, s')) :
    L.inv s' ∧ Q a (L.view i s') := by
  induction p generalizing s ωs with
  | pure b =>
    obtain ⟨-, hout⟩ := run_pure.mp hrun
    cases hout
    exact ⟨hinv, hwp⟩
  | call op k ih =>
    obtain ⟨ω, rest, r, mid, rfl, hexec, hrest⟩ := run_call.mp hrun
    obtain ⟨hinv', hview, -⟩ := L.sound hinv hwp.1 hexec
    exact ih r hinv' (hwp.2 r _ hview) hrest

end Locality

/-- On a machine that answers every call, every program ends after finitely many answers. -/
theorem Machine.exists_run {M : Machine Res ι S Ω} {i : ι}
    (htotal : ∀ s op ω, (M.exec i s op ω).isSome) (p : Prog Res α) (s : S)
    (environment : Stream' Ω) :
    ∃ n out, M.run i p s (environment.take n) = some out := by
  induction p generalizing s environment with
  | pure a => exact ⟨0, (a, s), rfl⟩
  | call op k ih =>
    obtain ⟨⟨r, s'⟩, hexec⟩ := Option.isSome_iff_exists.mp (htotal s op environment.head)
    obtain ⟨n, out, hrun⟩ := ih r s' environment.tail
    refine ⟨n + 1, out, ?_⟩
    rw [Stream'.take_succ]
    exact run_call.mpr ⟨_, _, r, s', rfl, hexec, hrun⟩

end LotusAI.Lib
