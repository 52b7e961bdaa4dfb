import Mathlib.Data.List.Basic

/-!
# Computations that may stop half way

A computation works on a state by calls, and each call takes effect whole. The process that runs
it may stop between any two calls: the state is then what the last call has left, and nothing of
what the computation had in hand survives. To speak of these states, a computation yields, beside
its end, the states that its calls have found.
-/

namespace LotusAI.Lib

open List

variable {σ ε α β γ : Type}

/-- What a computation has gone through: the states that its calls have found, the last state, and
how it ended. -/
structure Passage (σ ε α : Type) where
  visited : List σ
  final : σ
  result : Except ε α

/-- A computation on states `σ` by calls. -/
def Stepwise (σ ε α : Type) := σ → Passage σ ε α

namespace Stepwise

/-- Return a value. -/
def ret (a : α) : Stepwise σ ε α := fun s => ⟨[], s, .ok a⟩

/-- Go on with the value of a computation, unless it has raised. -/
def andThen (p : Stepwise σ ε α) (f : α → Stepwise σ ε β) : Stepwise σ ε β := fun s =>
  match (p s).result with
  | .ok a => ⟨(p s).visited ++ (f a (p s).final).visited, (f a (p s).final).final,
      (f a (p s).final).result⟩
  | .error e => ⟨(p s).visited, (p s).final, .error e⟩

instance : Monad (Stepwise σ ε) where
  pure := ret
  bind := andThen

/-- Raise an exception. -/
def raise (e : ε) : Stepwise σ ε α := fun s => ⟨[], s, .error e⟩

/-- One call; it may raise. -/
def call (effect : σ → Except ε α × σ) : Stepwise σ ε α := fun s =>
  ⟨[s], (effect s).2, (effect s).1⟩

def read (view : σ → α) : Stepwise σ ε α := call fun s => (.ok (view s), s)

/-- A call that does not raise. -/
def modify (effect : σ → α × σ) : Stepwise σ ε α := call fun s => (.ok (effect s).1, (effect s).2)

/-- The states in which a computation that starts in `s` can be left. -/
def stops (p : Stepwise σ ε α) (s : σ) : List σ := (p s).visited ++ [(p s).final]

theorem final_mem_stops (p : Stepwise σ ε α) (s : σ) : (p s).final ∈ p.stops s := by
  simp [stops]

/-! ### Sequences -/

section Sequences

variable {p : Stepwise σ ε α} {f : α → Stepwise σ ε β} {s : σ} (effect : σ → α × σ) {mid : σ}

@[simp] theorem pure_apply (a : α) (s : σ) :
    (Pure.pure a : Stepwise σ ε α) s = ⟨[], s, .ok a⟩ := rfl

@[simp] theorem modify_apply (s : σ) :
    (modify effect : Stepwise σ ε α) s = ⟨[s], (effect s).2, .ok (effect s).1⟩ := rfl

@[simp] theorem read_bind_apply (view : σ → α) (f : α → Stepwise σ ε β) (s : σ) :
    (read view >>= f) s =
      ⟨s :: (f (view s) s).visited, (f (view s) s).final, (f (view s) s).result⟩ := rfl

@[simp] theorem modify_bind_apply (f : α → Stepwise σ ε β) (s : σ) :
    (modify effect >>= f) s =
      ⟨s :: (f (effect s).1 (effect s).2).visited, (f (effect s).1 (effect s).2).final,
        (f (effect s).1 (effect s).2).result⟩ := rfl

theorem bind_of_ok {a : α} (h : (p s).result = .ok a) :
    (p >>= f) s = ⟨(p s).visited ++ (f a (p s).final).visited, (f a (p s).final).final,
      (f a (p s).final).result⟩ := by
  change andThen p f s = _
  simp only [andThen, h]

theorem bind_of_error {e : ε} (h : (p s).result = .error e) :
    (p >>= f) s = ⟨(p s).visited, (p s).final, .error e⟩ := by
  change andThen p f s = _
  simp only [andThen, h]

/-- A return at the end is no call. -/
theorem bind_pure_apply (g : α → β) :
    (p >>= fun a => (Pure.pure (g a) : Stepwise σ ε β)) s =
      ⟨(p s).visited, (p s).final, (p s).result.map g⟩ := by
  cases hresult : (p s).result with
  | error e =>
    rw [bind_of_error hresult]
    rfl
  | ok a =>
    rw [bind_of_ok hresult, pure_apply, append_nil]
    rfl

/-- A sequence is left in its first part, or, once that has ended, in its second. -/
theorem mem_stops_bind (h : mid ∈ (p >>= f).stops s) :
    mid ∈ p.stops s ∨ ∃ a, (p s).result = .ok a ∧ mid ∈ (f a).stops (p s).final := by
  cases hresult : (p s).result with
  | error e =>
    rw [stops, bind_of_error hresult] at h
    exact .inl h
  | ok a =>
    simp only [stops, bind_of_ok hresult, append_assoc, mem_append] at h
    rcases h with hfirst | hsecond
    · exact .inl (mem_append_left _ hfirst)
    · exact .inr ⟨a, rfl, mem_append.mpr hsecond⟩

theorem mem_stops_of_first (h : mid ∈ (p s).visited) : mid ∈ (p >>= f).stops s := by
  cases hresult : (p s).result with
  | error e => simp [stops, bind_of_error hresult, h]
  | ok a => simp [stops, bind_of_ok hresult, h]

theorem mem_stops_of_second {a : α} (hresult : (p s).result = .ok a)
    (h : mid ∈ (f a).stops (p s).final) : mid ∈ (p >>= f).stops s := by
  simp only [stops, bind_of_ok hresult, append_assoc, mem_append]
  exact .inr (mem_append.mp h)

end Sequences

/-! ### Views that stay -/

/-- No call of the computation changes `π`. -/
def Keeps (π : σ → γ) (p : Stepwise σ ε α) : Prop := ∀ s, ∀ mid ∈ p.stops s, π mid = π s

section Keeps

variable {π : σ → γ} {p : Stepwise σ ε α}

theorem Keeps.final (h : p.Keeps π) (s : σ) : π (p s).final = π s :=
  h s _ (p.final_mem_stops s)

theorem keeps_pure (a : α) : (Pure.pure a : Stepwise σ ε α).Keeps π := by
  intro s mid hmid
  rw [mem_singleton.mp hmid]
  rfl

theorem keeps_call {effect : σ → Except ε α × σ} (h : ∀ s, π (effect s).2 = π s) :
    (call effect).Keeps π := by
  intro s mid hmid
  obtain rfl | rfl : mid = s ∨ mid = (effect s).2 := by
    simpa [stops, call] using hmid
  · rfl
  · exact h s

theorem keeps_read (view : σ → α) : (read view : Stepwise σ ε α).Keeps π :=
  keeps_call fun _ => rfl

theorem keeps_modify {effect : σ → α × σ} (h : ∀ s, π (effect s).2 = π s) :
    (modify effect : Stepwise σ ε α).Keeps π :=
  keeps_call h

theorem Keeps.bind {f : α → Stepwise σ ε β} (hp : p.Keeps π) (hf : ∀ a, (f a).Keeps π) :
    (p >>= f).Keeps π := by
  intro s mid hmid
  rcases mem_stops_bind hmid with hfirst | ⟨a, -, hsecond⟩
  · exact hp s mid hfirst
  · exact (hf a _ mid hsecond).trans (hp.final s)

end Keeps

end Stepwise

end LotusAI.Lib
