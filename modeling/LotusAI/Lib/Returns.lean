import LotusAI.Lib.Program

/-!
# What a program returns with

A program that may raise is often judged by its normal ends alone: if it returns, then with
a value and in a state of a certain kind. An exception anywhere in a sequence ends the
sequence, so such judgements compose without a case for the exceptions.
-/

namespace LotusAI.Lib.Machine

variable {Op : Type} {Res : Op → Type} {ι S Ω α β ε : Type} {M : Machine Res ι S Ω} {i : ι} {s : S}

variable (M) in
/-- If the program returns, then with a value and in a state that `Q` relates. -/
def Returns (i : ι) (p : Prog.Raising Res ε α) (Q : α → S → Prop) (s : S) : Prop :=
  M.wp i p.run (fun result s' => ∀ a, result = .ok a → Q a s') s

variable {Q R : α → S → Prop} {a : α} {p : Prog.Raising Res ε α}

theorem Returns.pure (h : Q a s) : M.Returns i (Pure.pure a : Prog.Raising Res ε α) Q s := by
  rintro _ ⟨rfl⟩
  exact h

theorem Returns.throw {e : ε} : M.Returns i (MonadExcept.throw e : Prog.Raising Res ε α) Q s :=
  nofun

/-- Only the branch that is taken matters. -/
theorem Returns.ite {c : Prop} [Decidable c] {q : Prog.Raising Res ε α}
    (hp : c → M.Returns i p Q s) (hq : ¬ c → M.Returns i q Q s) :
    M.Returns i (if c then p else q) Q s := by
  split
  case isTrue hc => exact hp hc
  case isFalse hc => exact hq hc

variable {op : Op} {Q' : α → S → Prop} {f : α → Prog.Raising Res ε β}

theorem Returns.ask {Q : Res op → S → Prop}
    (h : ∀ ω r s', M.exec i s op ω = some (r, s') → Q r s') :
    M.Returns i (Prog.ask op : Prog.Raising Res ε (Res op)) Q s := by
  intro ω r s' hexec _ hr
  cases hr
  exact h ω r s' hexec

theorem Returns.mono (h : M.Returns i p Q s) (hQ : ∀ a s', Q a s' → Q' a s') : M.Returns i p Q' s :=
  wp_mono (fun _ s' hq a ha => hQ a s' (hq a ha)) h

theorem Returns.bind {Q : β → S → Prop} (hp : M.Returns i p R s)
    (hf : ∀ a s', R a s' → M.Returns i (f a) Q s') : M.Returns i (p >>= f) Q s := by
  unfold Returns
  rw [wp_bindRaising]
  refine wp_mono (fun result s' hR => ?_) hp
  cases result with
  | ok a => exact hf a s' (hR a rfl)
  | error e => exact nofun

/-- A run that returned has led to the postcondition. -/
theorem Returns.of_run {ωs : List Ω} {s' : S} (h : M.Returns i p Q s)
    (hrun : M.run i p.run s ωs = some (.ok a, s')) : Q a s' :=
  wp_run h hrun a rfl

/-! ### Programs that are sure to return -/

variable (M) in
/-- The program is answered until it returns, with a value and in a state that `Q` relates. -/
def Delivers (i : ι) (p : Prog.Raising Res ε α) (Q : α → S → Prop) (s : S) : Prop :=
  M.twp i p.run (fun result s' => ∃ a, result = .ok a ∧ Q a s') s

theorem Delivers.pure (h : Q a s) : M.Delivers i (Pure.pure a : Prog.Raising Res ε α) Q s :=
  ⟨a, rfl, h⟩

theorem Delivers.ask {Q : Res op → S → Prop} (hanswered : ∃ ω r s', M.exec i s op ω = some (r, s'))
    (h : ∀ ω r s', M.exec i s op ω = some (r, s') → Q r s') :
    M.Delivers i (Prog.ask op : Prog.Raising Res ε (Res op)) Q s :=
  ⟨hanswered, fun ω r s' hexec => ⟨r, rfl, h ω r s' hexec⟩⟩

theorem Delivers.mono (h : M.Delivers i p Q s) (hQ : ∀ a s', Q a s' → Q' a s') :
    M.Delivers i p Q' s :=
  twp_mono (fun _ s' ⟨a, ha, hq⟩ => ⟨a, ha, hQ a s' hq⟩) h

theorem Delivers.bind {Q : β → S → Prop} (hp : M.Delivers i p R s)
    (hf : ∀ a s', R a s' → M.Delivers i (f a) Q s') : M.Delivers i (p >>= f) Q s := by
  unfold Delivers
  rw [ExceptT.run_bind]
  refine twp_bind (twp_mono (fun result s' hR => ?_) hp)
  obtain ⟨a, rfl, hR⟩ := hR
  exact hf a s' hR

/-- What a program is sure to deliver is among what it may return with. -/
theorem Delivers.of_returns (h : M.Delivers i p Q s) (hreturns : M.Returns i p R s) :
    ∃ a s', Q a s' ∧ R a s' := by
  obtain ⟨ωs, result, s', hrun, a, rfl, hQ⟩ := exists_run_of_twp h
  exact ⟨a, s', hQ, hreturns.of_run hrun⟩

end LotusAI.Lib.Machine
