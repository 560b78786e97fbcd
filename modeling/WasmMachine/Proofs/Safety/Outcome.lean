/-
# Outcomes

How actions end.  An action that keeps track of a state may stop at any point, and
both the state it ends in and the state it stops in matter, since what was done to a
store stays done.  `Ends` says what holds of either; the rules below take an action
apart along its steps.
-/

import WasmMachine.Trap

namespace WasmMachine

/-- The traps that code which passed the type checker can run into. -/
inductive Trap.Expected : Trap → Prop
  | unreachable : Expected .unreachable
  | divideByZero : Expected .divideByZero
  | integerOverflow : Expected .integerOverflow
  | invalidConversion : Expected .invalidConversion
  | memoryBounds : Expected .memoryBounds
  | tableBounds : Expected .tableBounds
  | undefinedElement (index : UInt32) : Expected (.undefinedElement index)
  | uninitializedElement (index : UInt32) : Expected (.uninitializedElement index)
  | signatureMismatch : Expected .signatureMismatch
  | callStackExhausted : Expected .callStackExhausted
  | hostFailed (name : String) (cause : Fault) : Expected (.hostFailed name cause)

variable {ε σ α β : Type}

/-- Looking at the state gives the state and leaves it. -/
theorem get_eq (s : σ) : (get : EStateM ε σ σ) s = .ok s s := rfl

/-- Started in a state, an action ends with a result and a state for which `Good`
holds, or stops with a reason and a state for which `Bad` holds. -/
def Ends (action : EStateM ε σ α) (s : σ) (Good : α → σ → Prop) (Bad : ε → σ → Prop) : Prop :=
  match action s with
  | .ok a s => Good a s
  | .error e s => Bad e s

/-- The result that an action gives, or the reason for which it stops. -/
def outcome (action : EStateM ε σ α) (s : σ) : Except ε α :=
  match action s with
  | .ok a _ => .ok a
  | .error e _ => .error e

/-- The state that an action leaves behind, whether it ends or stops. -/
def after (action : EStateM ε σ α) (s : σ) : σ :=
  match action s with
  | .ok _ s' => s'
  | .error _ s' => s'

namespace Ends

variable {action : EStateM ε σ α} {next : α → EStateM ε σ β} {s s' : σ} {a : α} {e : ε}
  {Good Good' : α → σ → Prop} {After : β → σ → Prop} {Bad Bad' : ε → σ → Prop}

theorem of_ok (run : action s = .ok a s') (good : Good a s') : Ends action s Good Bad := by
  unfold Ends
  rw [run]
  exact good

theorem of_error (run : action s = .error e s') (bad : Bad e s') : Ends action s Good Bad := by
  unfold Ends
  rw [run]
  exact bad

theorem good (ends : Ends action s Good Bad) (run : action s = .ok a s') : Good a s' := by
  unfold Ends at ends
  rw [run] at ends
  exact ends

theorem bad (ends : Ends action s Good Bad) (run : action s = .error e s') : Bad e s' := by
  unfold Ends at ends
  rw [run] at ends
  exact ends

theorem pure (good : Good a s) : Ends (pure a) s Good Bad := good

theorem throw (bad : Bad e s) : Ends (throw e : EStateM ε σ α) s Good Bad := bad

theorem mono (ends : Ends action s Good Bad) (good : ∀ a s, Good a s → Good' a s)
    (bad : ∀ e s, Bad e s → Bad' e s) : Ends action s Good' Bad' := by
  unfold Ends at ends ⊢
  cases run : action s with
  | ok a s' =>
      rw [run] at ends
      exact good a s' ends
  | error e s' =>
      rw [run] at ends
      exact bad e s' ends

theorem after {P : σ → Prop} (ends : Ends action s (fun _ => P) fun _ => P) :
    P (after action s) := by
  unfold Ends at ends
  unfold WasmMachine.after
  split
  · next run =>
      rw [run] at ends
      exact ends
  · next run =>
      rw [run] at ends
      exact ends

/-- Two things that are known of the same outcome. -/
theorem both {Bad' : ε → σ → Prop} (first : Ends action s Good Bad)
    (second : Ends action s Good' Bad') :
    Ends action s (fun a s' => Good a s' ∧ Good' a s') fun e s' => Bad e s' ∧ Bad' e s' := by
  unfold Ends at *
  cases run : action s with
  | ok a s' =>
      rw [run] at first second
      exact ⟨first, second⟩
  | error e s' =>
      rw [run] at first second
      exact ⟨first, second⟩

/-- What comes next starts where the first step ends. -/
theorem bind (first : Ends action s Good Bad)
    (rest : ∀ a s', Good a s' → Ends (next a) s' After Bad) :
    Ends (action >>= next) s After Bad := by
  unfold Ends at first
  cases run : action s with
  | ok a s' =>
      rw [run] at first
      have ends := rest a s' first
      unfold Ends at ends ⊢
      simpa only [Bind.bind, EStateM.bind, run] using ends
  | error e s' =>
      rw [run] at first
      unfold Ends
      simpa only [Bind.bind, EStateM.bind, run] using first

/-- An action whose result is not asked for. -/
theorem discard {After : PUnit → σ → Prop} (ends : Ends action s (fun _ s' => After ⟨⟩ s') Bad) :
    Ends (discard action) s After Bad := by
  unfold Ends at ends ⊢
  cases run : action s with
  | ok a s' =>
      rw [run] at ends
      simpa only [Functor.discard, Functor.mapConst, Function.comp_apply, EStateM.map, run] using ends
  | error e s' =>
      rw [run] at ends
      simpa only [Functor.discard, Functor.mapConst, Function.comp_apply, EStateM.map, run] using ends

/-- A step whose result is known. -/
theorem step (run : action s = .ok a s') (rest : Ends (next a) s' After Bad) :
    Ends (action >>= next) s After Bad := by
  unfold Ends at rest ⊢
  simpa only [Bind.bind, EStateM.bind, run] using rest

/-- A step that stops. -/
theorem stop (run : action s = .error e s') (bad : Bad e s') :
    Ends (action >>= next) s After Bad := by
  unfold Ends
  simpa only [Bind.bind, EStateM.bind, run] using bad

/-- The items of a list are dealt with one by one; what holds before the first and is
kept by each holds behind the last. -/
theorem forM {items : List β} {each : β → EStateM ε σ PUnit} (Inv : List β → σ → Prop)
    (start : Inv [] s)
    (each_ends : ∀ done item rest, items = done ++ item :: rest → ∀ s, Inv done s →
      Ends (each item) s (fun _ s' => Inv (done ++ [item]) s') Bad) :
    Ends (items.forM each) s (fun _ s' => Inv items s') Bad := by
  suffices general : ∀ (rest done : List β) (s : σ), items = done ++ rest → Inv done s →
      Ends (rest.forM each) s (fun _ s' => Inv items s') Bad from general items [] s rfl start
  intro rest
  induction rest with
  | nil =>
      intro done s same holds
      rw [List.append_nil] at same
      exact Ends.pure (same ▸ holds)
  | cons item rest ih =>
      intro done s same holds
      refine Ends.bind (each_ends done item rest same s holds) fun _ s' holds => ?_
      exact ih (done ++ [item]) s' (by simp [same]) holds

/-- The items of a list are dealt with one by one, each with what the one before gave and
left. -/
theorem foldlM_with {items : List β} {each : α → β → EStateM ε σ α} (Inv : α → σ → Prop)
    (start : Inv a s)
    (each_ends : ∀ item ∈ items, ∀ a s, Inv a s → Ends (each a item) s Inv Bad) :
    Ends (items.foldlM each a) s Inv Bad := by
  induction items generalizing a s with
  | nil => exact Ends.pure start
  | cons item rest ih =>
      rw [List.foldlM_cons]
      refine Ends.bind (each_ends item List.mem_cons_self a s start) fun a s holds => ?_
      exact ih holds fun item mem => each_ends item (List.mem_cons_of_mem _ mem)

/-- The same where only what is left matters. -/
theorem foldlM {items : List β} {each : α → β → EStateM ε σ α} (Inv : σ → Prop) (start : Inv s)
    (each_ends : ∀ item ∈ items, ∀ a s, Inv s → Ends (each a item) s (fun _ s' => Inv s') Bad) :
    Ends (items.foldlM each a) s (fun _ s' => Inv s') Bad :=
  foldlM_with (fun _ => Inv) start each_ends

/-- The results for the items of a list, each taken in a state of which the same holds. -/
theorem mapM {γ : Type} {items : List β} {each : β → EStateM ε σ γ} {P : γ → Prop}
    (Inv : σ → Prop) (start : Inv s)
    (each_ends : ∀ item ∈ items, ∀ s, Inv s →
      Ends (each item) s (fun c s' => P c ∧ Inv s') Bad) :
    Ends (items.mapM each) s (fun cs s' => (∀ c ∈ cs, P c) ∧ Inv s') Bad := by
  induction items generalizing s with
  | nil => exact Ends.pure ⟨List.forall_mem_nil P, start⟩
  | cons item rest ih =>
      rw [List.mapM_cons]
      refine Ends.bind (each_ends item List.mem_cons_self s start) fun c s holds => ?_
      refine Ends.bind (ih holds.2 fun item mem => each_ends item (List.mem_cons_of_mem _ mem))
        fun cs s fine => ?_
      refine Ends.pure ⟨fun c' mem => ?_, fine.2⟩
      rcases List.mem_cons.mp mem with rfl | mem
      · exact holds.1
      · exact fine.1 c' mem

end Ends

end WasmMachine
