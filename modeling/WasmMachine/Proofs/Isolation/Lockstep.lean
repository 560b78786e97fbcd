/-
# Two runs in lockstep

The same action is run from two states that look alike where it looks.  It goes the same
way in both: it gives the same result or stops for the same reason, and leaves states that
look alike again.  What the states may differ in is up to the relation between them.
-/

import WasmMachine.Proofs.Safety.Outcome

namespace WasmMachine

variable {ε σ α β : Type}

/-- Two outcomes are the same result, of which `Good` holds, or the same reason to stop, and
the states that they leave are in the relation. -/
inductive Matches (R : σ → σ → Prop) (Good : α → Prop) :
    EStateM.Result ε σ α → EStateM.Result ε σ α → Prop
  | ok {a : α} {s t : σ} : Good a → R s t → Matches R Good (.ok a s) (.ok a t)
  | error {e : ε} {s t : σ} : R s t → Matches R Good (.error e s) (.error e t)

/-- An action whose outcomes match whenever the states before are in the relation. -/
def Lockstep (R : σ → σ → Prop) (action : EStateM ε σ α) (Good : α → Prop) : Prop :=
  ∀ s t, R s t → Matches R Good (action s) (action t)

variable {R : σ → σ → Prop} {action : EStateM ε σ α} {next : α → EStateM ε σ β}
  {Good : α → Prop} {After : β → Prop} {s t : σ}

namespace Matches

/-- Two outcomes that match, taken apart. -/
theorem exists_eq {first second : EStateM.Result ε σ α} (both : Matches R Good first second) :
    (∃ a s t, first = .ok a s ∧ second = .ok a t ∧ Good a ∧ R s t) ∨
      ∃ e s t, first = .error e s ∧ second = .error e t ∧ R s t := by
  cases both with
  | ok good related => exact .inl ⟨_, _, _, rfl, rfl, good, related⟩
  | error related => exact .inr ⟨_, _, _, rfl, rfl, related⟩

/-- What comes next in two runs. -/
theorem bind (first : Matches R Good (action s) (action t))
    (rest : ∀ a s t, Good a → R s t → Matches R After (next a s) (next a t)) :
    Matches R After ((action >>= next) s) ((action >>= next) t) := by
  show Matches R After (EStateM.bind action next s) (EStateM.bind action next t)
  unfold EStateM.bind
  generalize action s = outcome, action t = outcome' at first ⊢
  cases first with
  | ok fine related => exact rest _ _ _ fine related
  | error related => exact error related

end Matches

namespace Lockstep

theorem pure {a : α} (good : Good a) : Lockstep (ε := ε) R (pure a) Good :=
  fun _ _ related => .ok good related

theorem throw (e : ε) : Lockstep R (throw e : EStateM ε σ α) Good := fun _ _ related => .error related

theorem bind (first : Lockstep R action Good) (rest : ∀ a, Good a → Lockstep R (next a) After) :
    Lockstep R (action >>= next) After := fun s t related =>
  (first s t related).bind fun a s t good related => rest a good s t related

/-- What comes of two runs, as a whole. -/
theorem outcome_after (both : Lockstep R action Good) (related : R s t) :
    outcome action s = outcome action t ∧ R (after action s) (after action t) := by
  have both := both s t related
  unfold outcome after
  generalize action s = first, action t = second at both ⊢
  cases both with
  | ok _ related => exact ⟨rfl, related⟩
  | error related => exact ⟨rfl, related⟩

/-- An action whose result is not asked for. -/
theorem discard (both : Lockstep R action Good) : Lockstep R (discard action) fun _ => True := by
  intro s t related
  show Matches R _ (EStateM.map _ action s) (EStateM.map _ action t)
  unfold EStateM.map
  have both := both s t related
  generalize action s = outcome, action t = outcome' at both ⊢
  cases both with
  | ok _ related => exact .ok trivial related
  | error related => exact .error related

/-- Looking at the state, two runs may see different things, but they go on alike. -/
theorem get {next : σ → EStateM ε σ β}
    (rest : ∀ s t, R s t → Matches R After (next s s) (next t t)) :
    Lockstep R (MonadState.get >>= next) After := rest

/-- Both runs change the state in the same way. -/
theorem modify {f : σ → σ} (kept : ∀ s t, R s t → R (f s) (f t)) :
    Lockstep (ε := ε) R (modify f) fun _ => True := fun s t related => .ok trivial (kept s t related)

/-- A check that stops when it fails stands in front of the rest. -/
theorem guard {c : Prop} [Decidable c] {e : ε} {rest : PUnit → EStateM ε σ β}
    (passes : ¬ c → Lockstep R (rest ()) After) :
    Lockstep R (if c then MonadExcept.throw e >>= rest else rest ()) After := by
  by_cases bad : c
  · rw [if_pos bad]
    exact fun _ _ related => .error related
  · rw [if_neg bad]
    exact passes bad

end Lockstep

end WasmMachine
