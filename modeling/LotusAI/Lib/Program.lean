import Mathlib.Logic.Function.Basic
import Mathlib.Logic.Relation

/-!
# Programs that call a shared machine

A program is a tree of calls: it either returns, or performs one call and
continues with the answer. What a call does is fixed by a machine, which reads
the shared state together with one choice of the environment — a clock reading,
a fresh identifier, the outcome of a remote request — and either refuses that
choice or produces an answer and the next state. Each call is atomic; nothing
between two calls is.

A program can be run alone, consuming a list of environment choices, or as one
of several threads of a pool, where any thread may take the next step.
-/

namespace LotusAI.Lib

/-- A program over calls `op`, each answered by a value of `Res op`. -/
inductive Prog {Op : Type} (Res : Op → Type) (α : Type) : Type
  | pure (a : α) : Prog Res α
  | call (op : Op) (k : Res op → Prog Res α) : Prog Res α

namespace Prog

variable {Op : Type} {Res : Op → Type} {α β : Type} (a : α) (f : α → Prog Res β) (op : Op)

/-- Run `p`, then continue with its result. -/
def bind : Prog Res α → (α → Prog Res β) → Prog Res β
  | .pure a, f => f a
  | .call op k, f => .call op fun r => (k r).bind f

instance : Monad (Prog Res) where
  pure := .pure
  bind := .bind

/-- The program that performs one call and returns its answer. -/
def perform (op : Op) : Prog Res (Res op) := .call op .pure

@[simp] theorem call_bind_eq (k : Res op → Prog Res α) (f : α → Prog Res β) :
    (Prog.call op k >>= f) = Prog.call op fun r => k r >>= f := rfl

theorem bind_pure_eq (p : Prog Res α) : p.bind .pure = p := by
  induction p with
  | pure a => rfl
  | call op k ih => exact congrArg (Prog.call op) (funext ih)

theorem bind_assoc_eq {γ : Type} (p : Prog Res α) (f : α → Prog Res β) (g : β → Prog Res γ) :
    (p.bind f).bind g = p.bind fun a => (f a).bind g := by
  induction p with
  | pure a => rfl
  | call op k ih => exact congrArg (Prog.call op) (funext ih)

instance : LawfulMonad (Prog Res) :=
  LawfulMonad.mk' (Prog Res) bind_pure_eq (fun _ _ => rfl) bind_assoc_eq

/-- The result of a program that has none left to call. -/
def result? : Prog Res α → Option α
  | .pure a => some a
  | .call _ _ => none

variable {p : Prog Res α} {ε : Type}

theorem eq_pure_of_result? {a : α} (h : p.result? = some a) : p = .pure a := by
  cases p with
  | pure b => rw [Option.some.inj h]
  | call op k => cases h

/-! ### Programs that may raise -/

/-- A program that may end by raising an exception of type `ε`. -/
abbrev Raising (Res : Op → Type) (ε α : Type) := ExceptT ε (Prog Res) α

/-- Perform one call inside a program that may raise. -/
def ask {ε : Type} (op : Op) : Raising Res ε (Res op) :=
  ExceptT.mk (.call op fun r => .pure (.ok r))

@[simp] theorem run_ask_bind (f : Res op → Raising Res ε β) :
    ExceptT.run (ask op >>= f) = .call op fun r => (f r).run := rfl

@[simp] theorem run_pure_bind_raising (f : α → Raising Res ε β) :
    ExceptT.run ((Pure.pure a : Raising Res ε α) >>= f) = (f a).run := rfl

@[simp] theorem run_throw_bind (e : ε) (f : α → Raising Res ε β) :
    ExceptT.run ((throw e : Raising Res ε α) >>= f) = .pure (.error e) := rfl

/-! ### Which calls a program can make -/

/-- Every call the program can make, whatever it is answered, is in `P`. -/
def CallsOnly (P : Op → Prop) : Prog Res α → Prop
  | .pure _ => True
  | .call op k => P op ∧ ∀ r, CallsOnly P (k r)

variable {P : Op → Prop}

theorem CallsOnly.bind {f : α → Prog Res β} (hp : CallsOnly P p) (hf : ∀ a, CallsOnly P (f a)) :
    CallsOnly P (p >>= f) := by
  induction p with
  | pure a => exact hf a
  | call op k ih => exact ⟨hp.1, fun r => ih r (hp.2 r)⟩

theorem CallsOnly.mono {P' : Op → Prop} (h : ∀ op, P op → P' op) (hp : CallsOnly P p) :
    CallsOnly P' p := by
  induction p with
  | pure a => trivial
  | call op k ih => exact ⟨h op hp.1, fun r => ih r (hp.2 r)⟩

/-- A sequence of programs that may raise. -/
theorem CallsOnly.bindRaising {p : Raising Res ε α} {f : α → Raising Res ε β}
    (hp : CallsOnly P p.run) (hf : ∀ a, CallsOnly P (f a).run) :
    CallsOnly P (ExceptT.run (p >>= f)) := by
  refine hp.bind fun result => ?_
  cases result with
  | ok a => exact hf a
  | error e => exact trivial

/-! ### Calls that are programs themselves -/

/-- Carry out each call of a program by a program over other calls. -/
def interpret {Op' : Type} {Res' : Op' → Type} (handle : (op : Op) → Prog Res' (Res op)) :
    Prog Res α → Prog Res' α
  | .pure a => .pure a
  | .call op k => handle op >>= fun r => interpret handle (k r)

theorem interpret_bind {Op' : Type} {Res' : Op' → Type}
    (handle : (op : Op) → Prog Res' (Res op)) (p : Prog Res α) (f : α → Prog Res β) :
    interpret handle (p >>= f) = interpret handle p >>= fun a => interpret handle (f a) := by
  induction p with
  | pure a => rfl
  | call op k ih =>
    change (handle op >>= fun r => interpret handle (k r >>= f)) =
      (handle op >>= fun r => interpret handle (k r)) >>= _
    rw [bind_assoc]
    exact congrArg _ (funext ih)

end Prog

/-- The meaning of calls: thread `i` performs `op` in state `s` under the
environment choice `ω`. `none` means the environment cannot choose `ω` here. -/
structure Machine {Op : Type} (Res : Op → Type) (ι S Ω : Type) where
  exec : ι → S → (op : Op) → Ω → Option (Res op × S)

namespace Machine

variable {Op : Type} {Res : Op → Type} {ι S Ω α β : Type} (M : Machine Res ι S Ω)

/-! ### One program alone -/

/-- Run a program as thread `i` on exactly the given environment choices. -/
def run (i : ι) : Prog Res α → S → List Ω → Option (α × S)
  | .pure a, s, [] => some (a, s)
  | .pure _, _, _ :: _ => none
  | .call _ _, _, [] => none
  | .call op k, s, ω :: rest =>
    match M.exec i s op ω with
    | none => none
    | some (r, s') => run i (k r) s' rest

variable {M} {i : ι} {a : α} {ωs : List Ω} {Q : α → S → Prop} {p : Prog Res α} {out : α × S}
  {op : Op} {f : α → Prog Res β} {Q' : α → S → Prop} {s : S} {k : Res op → Prog Res α}

@[simp] theorem run_pure : M.run i (.pure a) s ωs = some out ↔ ωs = [] ∧ out = (a, s) := by
  cases ωs <;> simp [run, eq_comm]

/-- A run that begins with a call answers that call first. -/
theorem run_call :
    M.run i (.call op k) s ωs = some out ↔
      ∃ ω rest r s', ωs = ω :: rest ∧ M.exec i s op ω = some (r, s') ∧
        M.run i (k r) s' rest = some out := by
  cases ωs with
  | nil => simp [run]
  | cons ω rest =>
    cases hx : M.exec i s op ω with
    | none => simp [run, hx]
    | some next =>
      obtain ⟨r, s'⟩ := next
      simp only [run, hx, List.cons.injEq]
      constructor
      · intro h
        exact ⟨ω, rest, r, s', ⟨rfl, rfl⟩, hx, h⟩
      · rintro ⟨ω', rest', r', s'', ⟨rfl, rfl⟩, hx', h⟩
        rw [hx] at hx'
        cases hx'
        exact h

variable (M) in
/-- `p`, run alone from `s`, ends in `Q` whatever the environment chooses. -/
def wp (i : ι) : Prog Res α → (α → S → Prop) → S → Prop
  | .pure a, Q, s => Q a s
  | .call op k, Q, s => ∀ ω r s', M.exec i s op ω = some (r, s') → wp i (k r) Q s'

theorem wp_call :
    M.wp i (.call op k) Q s ↔
      ∀ ω r s', M.exec i s op ω = some (r, s') → M.wp i (k r) Q s' := Iff.rfl

/-- The precondition of a sequence is that of its first part for that of the second. -/
theorem wp_bind {Q : β → S → Prop} :
    M.wp i (p >>= f) Q s ↔ M.wp i p (fun a => M.wp i (f a) Q) s := by
  induction p generalizing s with
  | pure a => exact Iff.rfl
  | call op k ih =>
    exact forall_congr' fun ω => forall_congr' fun r => forall_congr' fun s' =>
      imp_congr_right fun _ => ih r

theorem wp_mono (hQ : ∀ a s, Q a s → Q' a s) (h : M.wp i p Q s) : M.wp i p Q' s := by
  induction p generalizing s with
  | pure a => exact hQ a s h
  | call op k ih => exact fun ω r s' hx => ih r (h ω r s' hx)

/-- A program that only makes calls that keep `I` keeps it. -/
theorem wp_of_callsOnly {P : Op → Prop} {I : S → Prop}
    (keeps : ∀ s op ω r s', P op → I s → M.exec i s op ω = some (r, s') → I s') (hp : p.CallsOnly P) (hs : I s) : M.wp i p (fun _ s' => I s') s := by
  induction p generalizing s with
  | pure a => exact hs
  | call op k ih => exact fun ω r s' hx => ih r (hp.2 r) (keeps s op ω r s' hp.1 hs hx)

/-- The precondition of a sequence that may raise: an exception skips the second part. -/
theorem wp_bindRaising {ε : Type} {p : Prog.Raising Res ε α} {f : α → Prog.Raising Res ε β}
    {Q : Except ε β → S → Prop} :
    M.wp i (ExceptT.run (p >>= f)) Q s ↔ M.wp i p.run (fun result s' => match result with
        | .ok a => M.wp i (f a).run Q s'
        | .error e => Q (.error e) s') s := by
  rw [ExceptT.run_bind, wp_bind]
  constructor <;> refine wp_mono fun result s' h => ?_ <;> cases result <;> exact h

/-- What a program is sure to do in a machine, it is sure to do in any machine whose steps are
steps of it under a view of the state. -/
theorem wp_of_view {S' Ω' : Type} {M' : Machine Res ι S' Ω'} (view : S' → S)
    (hsteps : ∀ i s' op ω' r t', M'.exec i s' op ω' = some (r, t') →
      ∃ ω, M.exec i (view s') op ω = some (r, view t')) {s' : S'} (h : M.wp i p Q (view s')) :
    M'.wp i p (fun a t' => Q a (view t')) s' := by
  induction p generalizing s' with
  | pure a => exact h
  | call op k ih =>
    intro ω' r t' hexec
    obtain ⟨ω, hview⟩ := hsteps i s' op ω' r t' hexec
    exact ih r (h ω r (view t') hview)

/-- What the precondition promises is what every run delivers. -/
theorem wp_run {s' : S} (h : M.wp i p Q s) (hrun : M.run i p s ωs = some (a, s')) : Q a s' := by
  induction p generalizing s ωs with
  | pure b =>
    obtain ⟨-, hout⟩ := run_pure.mp hrun
    cases hout
    exact h
  | call op k ih =>
    obtain ⟨ω, rest, r, mid, rfl, hx, hrest⟩ := run_call.mp hrun
    exact ih r (h ω r mid hx) hrest

variable (M) in
/-- `p`, run alone from `s`, is answered until it ends, and ends in `Q` whatever the environment
chooses. -/
def twp (i : ι) : Prog Res α → (α → S → Prop) → S → Prop
  | .pure a, Q, s => Q a s
  | .call op k, Q, s => (∃ ω r s', M.exec i s op ω = some (r, s')) ∧
      ∀ ω r s', M.exec i s op ω = some (r, s') → twp i (k r) Q s'

theorem twp_bind {Q : β → S → Prop} (h : M.twp i p (fun a => M.twp i (f a) Q) s) :
    M.twp i (p >>= f) Q s := by
  induction p generalizing s with
  | pure a => exact h
  | call op k ih => exact ⟨h.1, fun ω r s' hx => ih r (h.2 ω r s' hx)⟩

theorem twp_mono (hQ : ∀ a s, Q a s → Q' a s) (h : M.twp i p Q s) : M.twp i p Q' s := by
  induction p generalizing s with
  | pure a => exact hQ a s h
  | call op k ih => exact ⟨h.1, fun ω r s' hx => ih r (h.2 ω r s' hx)⟩

/-- Where every run ends well, there is one. -/
theorem exists_run_of_twp (h : M.twp i p Q s) :
    ∃ ωs a s', M.run i p s ωs = some (a, s') ∧ Q a s' := by
  induction p generalizing s with
  | pure a => exact ⟨[], a, s, rfl, h⟩
  | call op k ih =>
    obtain ⟨⟨ω, r, mid, hx⟩, hrest⟩ := h
    obtain ⟨ωs, a, s', hrun, hQ⟩ := ih r (hrest ω r mid hx)
    exact ⟨ω :: ωs, a, s', run_call.mpr ⟨ω, ωs, r, mid, rfl, hx, hrun⟩, hQ⟩

/-! ### A pool of threads -/

/-- A shared state and what is left of each thread. -/
structure Config {Op : Type} (Res : Op → Type) (ι S α : Type) where
  store : S
  threads : ι → Prog Res α

section Pool

variable [DecidableEq ι] {ok ok' : ι → S → Op → Prop} {c c' : Config Res ι S α}

variable (M) in
/-- One thread performs its next call. `ok` restricts which calls may be
performed in which states; a run in which it always holds is a run of the
unrestricted pool (`Reach.mono`). -/
inductive Step (ok : ι → S → Op → Prop) : Config Res ι S α → Config Res ι S α → Prop
  | call {c : Config Res ι S α} {i : ι} {op : Op} {k : Res op → Prog Res α} {ω : Ω} {r : Res op}
      {s' : S} (next : c.threads i = .call op k) (allowed : ok i c.store op)
      (answered : M.exec i c.store op ω = some (r, s')) :
      Step ok c ⟨s', Function.update c.threads i (k r)⟩

variable (M) in
/-- Interleavings: any number of steps, by any threads, in any order. -/
abbrev Reach (ok : ι → S → Op → Prop) : Config Res ι S α → Config Res ι S α → Prop :=
  Relation.ReflTransGen (M.Step ok)

theorem Step.mono (h : ∀ i s op, ok i s op → ok' i s op) (hstep : M.Step ok c c') :
    M.Step ok' c c' := by
  obtain ⟨next, allowed, answered⟩ := hstep
  exact .call next (h _ _ _ allowed) answered

theorem Reach.mono (h : ∀ i s op, ok i s op → ok' i s op) (hreach : M.Reach ok c c') :
    M.Reach ok' c c' :=
  Relation.ReflTransGen.mono (fun _ _ => Step.mono h) _ _ hreach

section Schedule

variable [∀ i s op, Decidable (ok i s op)]

variable (M ok) in
/-- Let the scheduled thread perform its next call under the scheduled choice. -/
def stepOf (c : Config Res ι S α) (i : ι) (ω : Ω) : Option (Config Res ι S α) :=
  match c.threads i with
  | .pure _ => none
  | .call op k =>
    if ok i c.store op then
      match M.exec i c.store op ω with
      | none => none
      | some (r, s') => some ⟨s', Function.update c.threads i (k r)⟩
    else none

variable (M ok) in
/-- Follow a schedule: which thread moves, and what the environment answers it. -/
def schedule (c : Config Res ι S α) : List (ι × Ω) → Option (Config Res ι S α)
  | [] => some c
  | (i, ω) :: rest => (M.stepOf ok c i ω).bind fun c' => schedule c' rest

theorem step_of_stepOf {ω : Ω} (h : M.stepOf ok c i ω = some c') : M.Step ok c c' := by
  unfold stepOf at h
  split at h
  · cases h
  · rename_i op k hnext
    by_cases hok : ok i c.store op
    · rw [if_pos hok] at h
      split at h
      · cases h
      · rename_i r s' hx
        cases h
        exact .call hnext hok hx
    · rw [if_neg hok] at h
      cases h

/-- A computed schedule is an interleaving. -/
theorem reach_of_schedule {steps : List (ι × Ω)} (h : M.schedule ok c steps = some c') :
    M.Reach ok c c' := by
  induction steps generalizing c with
  | nil => cases h; exact .refl
  | cons step rest ih =>
    obtain ⟨i, ω⟩ := step
    obtain ⟨mid, hstep, hrest⟩ := Option.bind_eq_some_iff.mp h
    exact .head (step_of_stepOf hstep) (ih hrest)

end Schedule

end Pool

end Machine

end LotusAI.Lib
