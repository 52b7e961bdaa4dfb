import Mathlib.Init

/-!
# Sequences of checks

A computation in `Except` succeeds exactly when each of its steps does. The lemmas take a
successful sequence apart, one step at a time.
-/

namespace LotusAI.Lib

variable {ε α β : Type} {x : Except ε α}

theorem bind_eq_ok {f : α → Except ε β} {b : β} :
    (x >>= f) = .ok b ↔ ∃ a, x = .ok a ∧ f a = .ok b := by
  cases x with
  | error e => exact ⟨nofun, fun ⟨_, ha, _⟩ => (nomatch ha)⟩
  | ok a => exact ⟨fun h => ⟨a, rfl, h⟩, fun ⟨a', ha, h⟩ => Except.ok.inj ha ▸ h⟩

theorem map_eq_ok {f : α → β} {b : β} :
    x.map f = .ok b ↔ ∃ a, x = .ok a ∧ f a = b := by
  cases x with
  | error e => exact ⟨nofun, fun ⟨_, ha, _⟩ => (nomatch ha)⟩
  | ok a => exact ⟨fun h => ⟨a, rfl, Except.ok.inj h⟩,
      fun ⟨a', ha, h⟩ => by rw [← h, ← Except.ok.inj ha]; rfl⟩

@[simp] theorem pure_eq_ok {a b : α} : (pure a : Except ε α) = .ok b ↔ a = b :=
  ⟨Except.ok.inj, congrArg _⟩

end LotusAI.Lib
