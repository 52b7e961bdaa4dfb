import Mathlib.Init

/-!
# Invariants of stateful programs

A program over a state keeps an invariant and answers within a postcondition. The rules are
those of a sequence of steps, where a step may also refuse.
-/

namespace LotusAI.Lib

variable {σ α β ε : Type} {I : σ → Prop}

/-- Run from a state of the invariant, a program ends in one, with an answer in `Q`. -/
def Keeping (I : σ → Prop) (x : StateM σ α) (Q : α → Prop) : Prop :=
  ∀ s, I s → I (x.run s).2 ∧ Q (x.run s).1

variable {Q : α → Prop} {R : β → Prop} {f : α → StateM σ β} {x : StateM σ α}

theorem Keeping.pure {a : α} (h : Q a) : Keeping I (Pure.pure a) Q :=
  fun _ hs => ⟨hs, h⟩

theorem Keeping.bind (hx : Keeping I x Q) (hf : ∀ a, Q a → Keeping I (f a) R) :
    Keeping I (x >>= f) R := by
  intro s hs
  obtain ⟨hmid, ha⟩ := hx s hs
  exact hf _ ha _ hmid

/-- A step whose answer does not matter. -/
theorem Keeping.andThen (hx : Keeping I x fun _ => True) (hf : ∀ a, Keeping I (f a) R) :
    Keeping I (x >>= f) R :=
  hx.bind fun a _ => hf a

/-- Answering without a look at the state. -/
theorem Keeping.answer (a : α) : Keeping I (Pure.pure a) fun _ => True := Keeping.pure trivial

/-- A step that may refuse, in front of others; a refusal is the answer of the sequence. -/
theorem Keeping.bindExcept {x : StateM σ (Except ε α)} {f : α → ExceptT ε (StateM σ) β}
    (hx : Keeping I x fun _ => True) (hf : ∀ a, Keeping I (f a).run fun _ => True) :
    Keeping I (ExceptT.run (ExceptT.mk x >>= f)) fun _ => True := by
  rw [ExceptT.run_bind]
  refine hx.bind fun result _ => ?_
  cases result with
  | ok a => exact hf a
  | error e => exact Keeping.answer _

/-- A run over a step that answers without a look at the state. -/
theorem run_answer_bind (r : Except ε α) (f : α → ExceptT ε (StateM σ) β) (s : σ) :
    (ExceptT.run (ExceptT.mk (pure r) >>= f)).run s =
      match r with
      | .ok a => (f a).run.run s
      | .error e => (.error e, s) := by
  cases r <;> rfl

end LotusAI.Lib
