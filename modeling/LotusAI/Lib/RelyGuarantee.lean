import LotusAI.Lib.Program

/-!
# Rely and guarantee for interleaved programs

To reason about one thread of a pool it is enough to know what the other
threads may do to the shared state between two of its calls. A protocol states,
for each thread, what it relies on and what it guarantees; a thread is safe when
each of its calls, made in any state its rely allows, keeps the invariant and
its guarantee and leaves a safe rest. When every guarantee is covered by the
relies of the others, safe threads run safely together.
-/

namespace LotusAI.Lib

open Machine

variable {Op : Type} {Res : Op → Type} {ι S Ω α β : Type}

/-- What each thread relies on and guarantees, around a shared invariant. -/
structure Protocol (Op ι S : Type) where
  /-- Holds in every state between two calls. -/
  inv : S → Prop
  /-- Which calls may be performed in which states. -/
  ok : ι → S → Op → Prop
  /-- What the others may do to the state between two calls of a thread. -/
  rely : ι → S → S → Prop
  /-- What one call of a thread may do to the state. -/
  guar : ι → S → S → Prop
  rely_refl : ∀ i s, rely i s s
  rely_trans : ∀ {i s s' s''}, rely i s s' → rely i s' s'' → rely i s s''
  guar_rely : ∀ {i j s s'}, i ≠ j → inv s → inv s' → guar i s s' → rely j s s'

namespace Protocol

variable (P : Protocol Op ι S) (M : Machine Res ι S Ω)

/-- Thread `i` running `p` from `s` keeps the invariant and its guarantee at each
call, whatever its rely does in between, and ends in `Q`. -/
def Safe (i : ι) (Q : α → S → Prop) : Prog Res α → S → Prop
  | .pure a, s => ∀ s', P.inv s' → P.rely i s s' → Q a s'
  | .call op k, s => ∀ s', P.inv s' → P.rely i s s' → P.ok i s' op →
      ∀ ω r s'', M.exec i s' op ω = some (r, s'') →
        P.inv s'' ∧ P.guar i s' s'' ∧ Safe i Q (k r) s''

variable {P M} {i : ι} {Q Q' : α → S → Prop} {p : Prog Res α} {s s' : S} {op : Op}

theorem safe_call {k : Res op → Prog Res α} :
    P.Safe M i Q (.call op k) s ↔ ∀ s', P.inv s' → P.rely i s s' → P.ok i s' op →
      ∀ ω r s'', M.exec i s' op ω = some (r, s'') →
        P.inv s'' ∧ P.guar i s' s'' ∧ P.Safe M i Q (k r) s'' := Iff.rfl

/-- Safety survives what the rely does. -/
theorem Safe.of_rely (h : P.Safe M i Q p s) (hrely : P.rely i s s') : P.Safe M i Q p s' := by
  cases p with
  | pure a | call op k => exact fun s'' hinv h' => h s'' hinv (P.rely_trans hrely h')

/-- A weaker postcondition. -/
theorem Safe.mono (h : P.Safe M i Q p s) (hQ : ∀ a s', P.inv s' → Q a s' → Q' a s') :
    P.Safe M i Q' p s := by
  induction p generalizing s with
  | pure a => exact fun s' hinv hrely => hQ a s' hinv (h s' hinv hrely)
  | call op k ih =>
    intro s' hinv hrely hok ω r s'' hx
    obtain ⟨hinv', hguar, hrest⟩ := h s' hinv hrely hok ω r s'' hx
    exact ⟨hinv', hguar, ih r hrest⟩

/-- Safety counts from the first state in which the invariant holds. -/
theorem Safe.of_forall (h : ∀ s', P.inv s' → P.rely i s s' → P.Safe M i Q p s') :
    P.Safe M i Q p s := by
  cases p with
  | pure a | call op k => exact fun s' hinv hrely => h s' hinv hrely s' hinv (P.rely_refl i s')

/-- Sequential composition: the second part is safe wherever the first one ends. -/
theorem Safe.bind {f : α → Prog Res β} {R : β → S → Prop} (h : P.Safe M i Q p s)
    (hf : ∀ a s', P.inv s' → Q a s' → P.Safe M i R (f a) s') : P.Safe M i R (p >>= f) s := by
  induction p generalizing s with
  | pure a => exact Safe.of_forall fun s' hinv hrely => hf a s' hinv (h s' hinv hrely)
  | call op k ih =>
    intro s' hinv hrely hok ω r s'' hx
    obtain ⟨hinv', hguar, hrest⟩ := h s' hinv hrely hok ω r s'' hx
    exact ⟨hinv', hguar, ih r hrest⟩

/-- A program whose calls are all of one kind is safe if every call of that kind is. -/
theorem Safe.of_callsOnly {C : Op → Prop} (hp : p.CallsOnly C)
    (hcall : ∀ op s ω r s', C op → P.inv s → P.ok i s op → M.exec i s op ω = some (r, s') →
      P.inv s' ∧ P.guar i s s')
    (hQ : ∀ a s', P.inv s' → Q a s') : P.Safe M i Q p s := by
  induction p generalizing s with
  | pure a => exact fun s' hinv _ => hQ a s' hinv
  | call op k ih =>
    intro s' hinv _ hok ω r s'' hexec
    obtain ⟨hinv', hguar⟩ := hcall op s' ω r s'' hp.1 hinv hok hexec
    exact ⟨hinv', hguar, ih r (hp.2 r)⟩

/-! ### Programs that may raise -/

section Raising

variable {ε : Type}

variable (P M) in
/-- Thread `i` running `p` from `s` is safe, and where it returns a value `Fact` holds of
that value. An exception ends the program and promises nothing. -/
def Ensures (i : ι) (p : Prog.Raising Res ε α) (Fact : α → S → Prop) (s : S) : Prop :=
  P.Safe M i (fun result s' => ∀ a, result = .ok a → Fact a s') p.run s

variable {p : Prog.Raising Res ε α} {Fact Fact' : α → S → Prop}

theorem Ensures.mono (h : P.Ensures M i p Fact s)
    (hfact : ∀ a s', P.inv s' → Fact a s' → Fact' a s') : P.Ensures M i p Fact' s :=
  Safe.mono h fun _ s' hinv hresult a ha => hfact a s' hinv (hresult a ha)

theorem ensures_pure {a : α} (h : ∀ s', P.inv s' → P.rely i s s' → Fact a s') :
    P.Ensures M i (pure a : Prog.Raising Res ε α) Fact s := by
  intro s' hinv hrely b hb
  cases hb
  exact h s' hinv hrely

theorem ensures_throw {e : ε} : P.Ensures M i (throw e : Prog.Raising Res ε α) Fact s := by
  intro s' _ _ a ha
  cases ha

variable {f : α → Prog.Raising Res ε β}

/-- Sequential composition: the second part starts from what the first one ensures. -/
theorem Ensures.bind {Fact' : β → S → Prop} (h : P.Ensures M i p Fact s)
    (hf : ∀ a s', P.inv s' → Fact a s' → P.Ensures M i (f a) Fact' s') :
    P.Ensures M i (p >>= f) Fact' s := by
  rw [Ensures, ExceptT.run_bind]
  refine Safe.bind h fun result s' hinv hresult => ?_
  cases result with
  | ok a => exact hf a s' hinv (hresult a rfl)
  | error e => exact ensures_throw

/-- A part that has returned takes no step. -/
theorem ensures_pure_bind {a : α} {Fact : β → S → Prop} (h : P.Ensures M i (f a) Fact s) :
    P.Ensures M i ((pure a : Prog.Raising Res ε α) >>= f) Fact s := by
  rw [Ensures, Prog.run_pure_bind_raising]
  exact h

/-- An exception skips the rest. -/
theorem ensures_throw_bind {e : ε} {Fact : β → S → Prop} :
    P.Ensures M i ((throw e : Prog.Raising Res ε α) >>= f) Fact s := by
  rw [Ensures, Prog.run_throw_bind]
  exact ensures_throw

/-- A call, followed by the rest: what to show at each answer. -/
theorem safe_ask {f : Res op → Prog.Raising Res ε β} {Q : Except ε β → S → Prop}
    (h : ∀ s', P.inv s' → P.rely i s s' → P.ok i s' op →
      ∀ ω r s'', M.exec i s' op ω = some (r, s'') →
        P.inv s'' ∧ P.guar i s' s'' ∧ P.Safe M i Q (f r).run s'') :
    P.Safe M i Q (ExceptT.run (Prog.ask op >>= f)) s := by
  rw [Prog.run_ask_bind]
  exact h

theorem ensures_ask {f : Res op → Prog.Raising Res ε β} {Fact : β → S → Prop}
    (h : ∀ s', P.inv s' → P.rely i s s' → P.ok i s' op →
      ∀ ω r s'', M.exec i s' op ω = some (r, s'') →
        P.inv s'' ∧ P.guar i s' s'' ∧ P.Ensures M i (f r) Fact s'') :
    P.Ensures M i (Prog.ask op >>= f) Fact s :=
  safe_ask h

end Raising

/-! ### Parallel composition -/

section Pool

variable [DecidableEq ι] {Q : ι → α → S → Prop} {c c' : Config Res ι S α}

/-- The state of a safe pool: the invariant holds and each thread's rest is safe. -/
structure SafePool (P : Protocol Op ι S) (M : Machine Res ι S Ω) (Q : ι → α → S → Prop)
    (c : Config Res ι S α) : Prop where
  inv : P.inv c.store
  safe : ∀ i, P.Safe M i (Q i) (c.threads i) c.store

/-- A step of a safe pool is a guarantee of the thread that took it, and leaves
the pool safe: its own rest by safety, every other thread by its rely. -/
theorem SafePool.step (h : SafePool P M Q c) (hstep : M.Step P.ok c c') :
    SafePool P M Q c' ∧ ∃ i, P.guar i c.store c'.store := by
  obtain ⟨next, allowed, answered⟩ := hstep
  rename_i i op k ω r s'
  have hi := h.safe i
  rw [next] at hi
  obtain ⟨hinv, hguar, hrest⟩ :=
    hi c.store h.inv (P.rely_refl i c.store) allowed ω r s' answered
  refine ⟨⟨hinv, fun j => ?_⟩, i, hguar⟩
  by_cases hij : j = i
  · subst hij
    simpa using hrest
  · simpa [Function.update_of_ne hij] using
      (h.safe j).of_rely (P.guar_rely (Ne.symm hij) h.inv hinv hguar)

theorem SafePool.reach (h : SafePool P M Q c) (hreach : M.Reach P.ok c c') :
    SafePool P M Q c' := by
  induction hreach with
  | refl => exact h
  | tail _ hstep ih => exact (ih.step hstep).1

/-- What every guarantee preserves holds in every state a safe pool reaches. -/
theorem SafePool.invariant {J : S → Prop} (h : SafePool P M Q c) (hreach : M.Reach P.ok c c')
    (start : J c.store)
    (keeps : ∀ i s s', P.inv s → P.inv s' → P.guar i s s' → J s → J s') : J c'.store := by
  induction hreach with
  | refl => exact start
  | tail hbefore hstep ih =>
    have hpool := h.reach hbefore
    obtain ⟨hnext, i, hguar⟩ := hpool.step hstep
    exact keeps i _ _ hpool.inv hnext.inv hguar ih

end Pool

/-! ### One program alone -/

end Protocol

end LotusAI.Lib
