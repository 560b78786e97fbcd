/-
# What the steps of the checker do

Inside one construct the checker is described by the operands of that construct and
by the mark that it cannot be reached; everything else stays as it is.  For each step
this module says when it succeeds and what it leaves.
-/

import WasmMachine.Proofs.Typing.Signature
import WasmMachine.Typing.Checker

namespace WasmMachine.Typing

/-- The surroundings of the innermost construct: its own entry, and the operands and
constructs below it. -/
structure Frame where
  construct : Construct
  below : List ValType
  outer : List Construct
  height : construct.height = below.length

/-- Operands taken one by one from the top of a construct's own. Where the construct
cannot be reached, unknown ones stand in for those that are missing. -/
inductive Pops (unreachable : Bool) : List ValType → List ValType → List ValType → Prop
  | nil {operands : List ValType} : Pops unreachable operands [] operands
  | cons {type : ValType} {operands gots rest : List ValType} :
      Pops unreachable operands gots rest →
      Pops unreachable (type :: operands) (type :: gots) rest
  | conjure {gots rest : List ValType} : unreachable = true → Pops unreachable [] gots rest →
      Pops unreachable [] (.unknown :: gots) rest

/-- What is taken depends on its number only. -/
theorem Pops.unique {unreachable : Bool} {operands gots rest gots' rest' : List ValType}
    (pops : Pops unreachable operands gots rest) (pops' : Pops unreachable operands gots' rest')
    (length : gots.length = gots'.length) : gots = gots' ∧ rest = rest' := by
  induction pops generalizing gots' with
  | nil =>
      obtain rfl := List.length_eq_zero_iff.mp length.symm
      cases pops'
      exact ⟨rfl, rfl⟩
  | cons _ ih =>
      cases pops' with
      | nil => cases length
      | cons pops' =>
          obtain ⟨rfl, rfl⟩ := ih pops' (Nat.succ.inj length)
          exact ⟨rfl, rfl⟩
  | conjure _ _ ih =>
      cases pops' with
      | nil => cases length
      | conjure _ pops' =>
          obtain ⟨rfl, rfl⟩ := ih pops' (Nat.succ.inj length)
          exact ⟨rfl, rfl⟩

theorem Pops.append {unreachable : Bool} (gots rest : List ValType) :
    Pops unreachable (gots ++ rest) gots rest := by
  induction gots with
  | nil => exact .nil
  | cons type gots ih => exact .cons ih

/-- Operands can be taken one by one. -/
theorem Pops.cons_iff {unreachable : Bool} {operands gots rest : List ValType} {got : ValType} :
    Pops unreachable operands (got :: gots) rest ↔
      ∃ middle, Pops unreachable operands [got] middle ∧ Pops unreachable middle gots rest := by
  constructor
  · intro pops
    cases pops with
    | cons pops => exact ⟨_, .cons .nil, pops⟩
    | conjure dead pops => exact ⟨_, .conjure dead .nil, pops⟩
  · rintro ⟨middle, first, pops⟩
    cases first with
    | cons first =>
        cases first
        exact .cons pops
    | conjure dead first =>
        cases first
        exact .conjure dead pops

namespace Frame

/-- The two stacks with the given operands of the innermost construct. -/
def state (f : Frame) (operands : List ValType) (unreachable : Bool) : Checker :=
  ⟨operands ++ f.below, { f.construct with unreachable := unreachable } :: f.outer⟩

/-- The types that branches carry, the innermost label first. -/
def labels (f : Frame) : List (List ValType) := (f.construct :: f.outer).map Construct.labelTypes

end Frame

namespace Check

variable {α β : Type} {f : Frame} {operands : List ValType} {unreachable : Bool} {s s' : Checker}

/-- A sequence of steps succeeds exactly when each of them does. -/
theorem bind_eq_ok_iff {first : Check α} {next : α → Check β} {b : β} :
    (first >>= next) s = .ok (b, s') ↔
      ∃ a middle, first s = .ok (a, middle) ∧ next a middle = .ok (b, s') := by
  have split : (first >>= next) s = first s >>= fun (a, middle) => next a middle := rfl
  rw [split, Typing.bind_eq_ok_iff]
  constructor
  · rintro ⟨⟨a, middle⟩, ran, ok⟩
    exact ⟨a, middle, ran, ok⟩
  · rintro ⟨a, middle, ran, ok⟩
    exact ⟨⟨a, middle⟩, ran, ok⟩

theorem bind_of_ok {first : Check α} {next : α → Check β} {a : α} {middle : Checker}
    (ran : first s = .ok (a, middle)) : (first >>= next) s = next a middle := by
  have split : (first >>= next) s = first s >>= fun (a, middle) => next a middle := rfl
  rw [split, ran]
  rfl

theorem discard_eq_ok_iff {step : Check α} :
    discard step s = .ok ((), s') ↔ ∃ a, step s = .ok (a, s') := by
  have split : discard step s = step s >>= fun (_, middle) => pure ((), middle) := rfl
  rw [split, Typing.bind_eq_ok_iff]
  constructor
  · rintro ⟨⟨a, middle⟩, ran, same⟩
    cases same
    exact ⟨a, ran⟩
  · rintro ⟨a, ran⟩
    exact ⟨⟨a, s'⟩, ran, rfl⟩

theorem lift_eq_ok_iff {x : Except Violation α} {a : α} :
    (liftM x : Check α) s = .ok (a, s') ↔ x = .ok a ∧ s' = s := by
  have split : (liftM x : Check α) s = x >>= fun a => pure (a, s) := rfl
  rw [split, Typing.bind_eq_ok_iff]
  constructor
  · rintro ⟨a, ran, same⟩
    cases same
    exact ⟨ran, rfl⟩
  · rintro ⟨ran, rfl⟩
    exact ⟨a, ran, rfl⟩

/-! ## Operands -/

theorem current_state : current (f.state operands unreachable) =
    .ok ({ f.construct with unreachable := unreachable }, f.state operands unreachable) := rfl

theorem get_state : (get : Check Checker) s = .ok (s, s) := rfl

theorem pop_cons {op : UInt8} {type : ValType} :
    pop op (f.state (type :: operands) unreachable) = .ok (type, f.state operands unreachable) := by
  have filled : ¬ (f.state (type :: operands) unreachable).operands.length = f.construct.height := by
    have length := f.height
    simp only [Frame.state, List.length_append, List.length_cons]
    omega
  rw [pop, bind_of_ok current_state, bind_of_ok get_state, if_neg filled]
  rfl

theorem pop_nil {op : UInt8} : pop op (f.state [] unreachable) =
    if unreachable then .ok (.unknown, f.state [] unreachable) else .error (.emptyStack op) := by
  have empty : (f.state [] unreachable).operands.length = f.construct.height := by
    rw [f.height]
    rfl
  rw [pop, bind_of_ok current_state, bind_of_ok get_state, if_pos empty]
  cases unreachable <;> rfl

theorem pop_eq_ok_iff {op : UInt8} {got : ValType} :
    pop op (f.state operands unreachable) = .ok (got, s') ↔
      ∃ rest, Pops unreachable operands [got] rest ∧ s' = f.state rest unreachable := by
  cases operands with
  | nil =>
      rw [pop_nil]
      constructor
      · intro ok
        cases unreachable
        · cases ok
        · cases ok
          exact ⟨[], .conjure rfl .nil, rfl⟩
      · rintro ⟨rest, pops, rfl⟩
        cases pops with
        | conjure dead pops =>
            cases pops
            rw [if_pos dead]
  | cons type operands =>
      rw [pop_cons]
      constructor
      · intro ok
        cases ok
        exact ⟨operands, .cons .nil, rfl⟩
      · rintro ⟨rest, pops, rfl⟩
        cases pops with
        | cons pops =>
            cases pops
            rfl

/-- An operand of a wanted type is taken, or an unknown one. -/
theorem popExpect_eq_ok_iff {op : UInt8} {want : ValType} :
    discard (popExpect op want) (f.state operands unreachable) = .ok ((), s') ↔
      ∃ got rest, Pops unreachable operands [got] rest ∧ Fits got want ∧
        s' = f.state rest unreachable := by
  rw [discard_eq_ok_iff]
  simp only [popExpect, bind_eq_ok_iff, pop_eq_ok_iff]
  constructor
  · rintro ⟨type, got, middle, ⟨rest, pops, rfl⟩, ok⟩
    refine ⟨got, rest, pops, ?_⟩
    by_cases dead : got = .unknown
    · rw [if_pos dead] at ok
      cases ok
      exact ⟨.inl dead, rfl⟩
    · rw [if_neg dead] at ok
      by_cases bad : want ≠ .unknown ∧ got ≠ want
      · rw [if_pos bad] at ok
        cases ok
      · rw [if_neg bad] at ok
        cases ok
        rw [not_and_or, Decidable.not_not, Decidable.not_not] at bad
        exact ⟨.inr bad, rfl⟩
  · rintro ⟨got, rest, pops, fits, rfl⟩
    by_cases dead : got = .unknown
    · refine ⟨want, got, _, ⟨rest, pops, rfl⟩, ?_⟩
      rw [if_pos dead]
      rfl
    · refine ⟨got, got, _, ⟨rest, pops, rfl⟩, ?_⟩
      have good : ¬ (want ≠ .unknown ∧ got ≠ want) := fun bad =>
        fits.elim dead fun fits => fits.elim bad.1 bad.2
      rw [if_neg dead, if_neg good]
      rfl

private theorem popEach_eq_ok_iff {op : UInt8} {wants : List ValType} :
    (wants.forM fun want => discard (popExpect op want)) (f.state operands unreachable) =
        .ok ((), s') ↔
      ∃ gots rest, Pops unreachable operands gots rest ∧ List.Forall₂ Fits gots wants ∧
        s' = f.state rest unreachable := by
  induction wants generalizing operands with
  | nil =>
      constructor
      · intro ok
        cases ok
        exact ⟨[], operands, .nil, .nil, rfl⟩
      · rintro ⟨gots, rest, pops, fits, rfl⟩
        cases fits
        cases pops
        rfl
  | cons want wants ih =>
      show (discard (popExpect op want) >>= fun _ => wants.forM _) _ = _ ↔ _
      rw [bind_eq_ok_iff]
      constructor
      · rintro ⟨_, middle, ran, ok⟩
        obtain ⟨got, rest, pops, fits, rfl⟩ := popExpect_eq_ok_iff.mp ran
        obtain ⟨gots, rest', pops', fits', rfl⟩ := ih.mp ok
        exact ⟨got :: gots, rest', Pops.cons_iff.mpr ⟨rest, pops, pops'⟩, .cons fits fits', rfl⟩
      · rintro ⟨gots, rest, pops, fits, rfl⟩
        cases fits with
        | cons fits fits' =>
            obtain ⟨middle, pops, pops'⟩ := Pops.cons_iff.mp pops
            exact ⟨(), _, popExpect_eq_ok_iff.mpr ⟨_, middle, pops, fits, rfl⟩,
              ih.mpr ⟨_, rest, pops', fits', rfl⟩⟩

/-- Operands of wanted types are taken, the last one first. -/
theorem popAll_eq_ok_iff {op : UInt8} {types : List ValType} :
    popAll op types (f.state operands unreachable) = .ok ((), s') ↔
      ∃ gots rest, Pops unreachable operands gots rest ∧ Accepts types gots ∧
        s' = f.state rest unreachable :=
  popEach_eq_ok_iff

theorem push_state {types : List ValType} : push types (f.state operands unreachable) =
    .ok ((), f.state (types.reverse ++ operands) unreachable) := by
  show Except.ok _ = _
  simp [Frame.state]

theorem applySignature_eq_ok_iff {op : UInt8} {type : FuncType} :
    applySignature op type (f.state operands unreachable) = .ok ((), s') ↔
      ∃ gots rest, Pops unreachable operands gots rest ∧ Accepts type.params gots ∧
        s' = f.state (type.results.reverse ++ rest) unreachable := by
  unfold applySignature
  rw [bind_eq_ok_iff]
  constructor
  · rintro ⟨_, middle, ran, ok⟩
    obtain ⟨gots, rest, pops, fits, rfl⟩ := popAll_eq_ok_iff.mp ran
    rw [push_state] at ok
    cases ok
    exact ⟨gots, rest, pops, fits, rfl⟩
  · rintro ⟨gots, rest, pops, fits, rfl⟩
    exact ⟨(), _, popAll_eq_ok_iff.mpr ⟨gots, rest, pops, fits, rfl⟩, push_state⟩

theorem setUnreachable_state :
    setUnreachable (f.state operands unreachable) = .ok ((), f.state [] true) := by
  rw [setUnreachable, bind_of_ok current_state]
  show Except.ok _ = _
  simp [Frame.state, f.height]

/-! ## Constructs -/

/-- A label names a construct whatever the marks are. -/
theorem label_of_labels (operands : List ValType) (unreachable : Bool) {depth : UInt32}
    {types : List ValType} (found : f.labels[depth.toNat]? = some types) :
    ∃ c, label depth (f.state operands unreachable) = .ok (c, f.state operands unreachable) ∧
      c.labelTypes = types := by
  have marked : f.labels = (f.state operands unreachable).constructs.map Construct.labelTypes := rfl
  rw [marked, List.getElem?_map, Option.map_eq_some_iff] at found
  obtain ⟨c, known, carries⟩ := found
  refine ⟨c, ?_, carries⟩
  rw [label, bind_of_ok get_state, known]
  rfl

theorem labels_of_label {depth : UInt32} {c : Construct}
    (ran : label depth (f.state operands unreachable) = .ok (c, s')) :
    f.labels[depth.toNat]? = some c.labelTypes ∧ s' = f.state operands unreachable := by
  have marked : f.labels = (f.state operands unreachable).constructs.map Construct.labelTypes := rfl
  rw [label, bind_of_ok get_state] at ran
  rw [marked, List.getElem?_map]
  cases known : (f.state operands unreachable).constructs[depth.toNat]? with
  | none =>
      rw [known] at ran
      cases ran
  | some c =>
      rw [known] at ran
      cases ran
      exact ⟨rfl, rfl⟩

theorem blockSignature_eq_ok_iff {ctx : Context} {i : Instruction} {type : FuncType} :
    blockSignature ctx i s = .ok (type, s') ↔
      BlockType.signature? ctx.types (i.blockType?.getD 0) = some type ∧ s' = s := by
  cases known : BlockType.signature? ctx.types (i.blockType?.getD 0) with
  | none =>
      have fails : blockSignature ctx i =
          refuse (.unknownIndex .type (i.blockType?.getD 0).toUInt32) := by
        simp only [blockSignature, known]
      rw [fails]
      constructor
      · intro ran
        cases ran
      · rintro ⟨same, -⟩
        cases same
  | some signature =>
      have gives : blockSignature ctx i = pure signature := by
        simp only [blockSignature, known]
      rw [gives]
      constructor
      · intro ran
        cases ran
        exact ⟨rfl, rfl⟩
      · rintro ⟨same, rfl⟩
        cases same
        rfl

end Check

/-- The surroundings of a construct that is entered. -/
def Frame.nest (f : Frame) (operands : List ValType) (unreachable : Bool) (loop : Bool)
    (type : FuncType) : Frame where
  construct := ⟨loop, type.params, type.results, (f.state operands unreachable).operands.length, false⟩
  below := (f.state operands unreachable).operands
  outer := (f.state operands unreachable).constructs
  height := rfl

/-- A function body has no surroundings. -/
def Frame.root (ctx : Context) : Frame where
  construct := ⟨false, [], ctx.results, 0, false⟩
  below := []
  outer := []
  height := rfl

namespace Check

variable {f : Frame} {operands : List ValType} {unreachable : Bool} {s s' : Checker}

theorem enter_state {loop : Bool} {type : FuncType} :
    enter loop type (f.state operands unreachable) =
      .ok ((), (f.nest operands unreachable loop type).state type.params.reverse false) := rfl

theorem leave_eq_ok_iff : leave (f.state operands unreachable) = .ok ((), s') ↔
    (∃ gots, Pops unreachable operands gots [] ∧ Accepts f.construct.results gots) ∧
      s' = ⟨f.below, f.outer⟩ := by
  rw [leave, bind_of_ok current_state, bind_eq_ok_iff]
  constructor
  · rintro ⟨_, middle, ran, ok⟩
    obtain ⟨gots, rest, pops, fits, rfl⟩ := popAll_eq_ok_iff.mp ran
    rw [bind_of_ok get_state] at ok
    split at ok
    · cases ok
    · next full =>
        have none : rest = [] := by
          simpa [Frame.state, f.height] using full
        subst none
        cases ok
        exact ⟨⟨gots, pops, fits⟩, rfl⟩
  · rintro ⟨⟨gots, pops, fits⟩, rfl⟩
    refine ⟨(), _, popAll_eq_ok_iff.mpr ⟨gots, [], pops, fits, rfl⟩, ?_⟩
    rw [bind_of_ok get_state, if_neg (by simp [Frame.state, f.height])]
    rfl

/-! ## Instructions that choose -/

/-- What a branch table does with one of its labels. -/
def target (op : UInt8) (arity : Nat) (depth : UInt32) : Check Unit := do
  let c ← label depth
  if c.labelTypes.length ≠ arity then
    refuse (.labelArity op depth c.labelTypes.length arity)
  let saved := (← get).operands
  popAll op c.labelTypes
  modify fun s => { s with operands := saved }

/-- A label of a branch table is checked against the operands, which stay. -/
theorem target_eq_ok_iff {op : UInt8} {arity : Nat} {depth : UInt32} :
    target op arity depth (f.state operands unreachable) = .ok ((), s') ↔
      (∃ types gots rest, f.labels[depth.toNat]? = some types ∧ types.length = arity ∧
        Pops unreachable operands gots rest ∧ Accepts types gots) ∧
        s' = f.state operands unreachable := by
  unfold target
  constructor
  · intro ok
    obtain ⟨c, middle, ran, ok⟩ := bind_eq_ok_iff.mp ok
    obtain ⟨found, rfl⟩ := labels_of_label ran
    split at ok
    · cases ok
    · next same =>
        dsimp only at ok
        rw [bind_of_ok get_state] at ok
        obtain ⟨_, middle, ran, ok⟩ := bind_eq_ok_iff.mp ok
        obtain ⟨gots, rest, pops, fits, rfl⟩ := popAll_eq_ok_iff.mp ran
        cases ok
        exact ⟨⟨_, gots, rest, found, Decidable.not_not.mp same, pops, fits⟩, rfl⟩
  · rintro ⟨⟨types, gots, rest, found, length, pops, fits⟩, rfl⟩
    obtain ⟨c, ran, rfl⟩ := label_of_labels operands unreachable found
    rw [bind_of_ok ran, if_neg (not_not_intro length)]
    dsimp only
    rw [bind_of_ok get_state, bind_of_ok (popAll_eq_ok_iff.mpr ⟨gots, rest, pops, fits, rfl⟩)]
    rfl

private theorem targets_eq_ok_iff {op : UInt8} {arity : Nat} {depths : List UInt32} :
    depths.forM (target op arity) (f.state operands unreachable) = .ok ((), s') ↔
      (∀ depth ∈ depths, ∃ types gots rest, f.labels[depth.toNat]? = some types ∧
        types.length = arity ∧ Pops unreachable operands gots rest ∧ Accepts types gots) ∧
        s' = f.state operands unreachable := by
  induction depths with
  | nil =>
      constructor
      · intro ok
        cases ok
        exact ⟨fun _ mem => absurd mem List.not_mem_nil, rfl⟩
      · rintro ⟨-, rfl⟩
        rfl
  | cons depth depths ih =>
      show (target op arity depth >>= fun _ => depths.forM _) _ = _ ↔ _
      rw [bind_eq_ok_iff, List.forall_mem_cons]
      constructor
      · rintro ⟨_, middle, ran, ok⟩
        obtain ⟨here, rfl⟩ := target_eq_ok_iff.mp ran
        obtain ⟨there, rfl⟩ := ih.mp ok
        exact ⟨⟨here, there⟩, rfl⟩
      · rintro ⟨⟨here, there⟩, rfl⟩
        exact ⟨(), _, target_eq_ok_iff.mpr ⟨here, rfl⟩, ih.mpr ⟨there, rfl⟩⟩

/-- All labels of a branch table accept the operands that the last one takes. -/
theorem branchTable_eq_ok_iff {op : UInt8} {depths : List UInt32} {fallback : UInt32} :
    branchTable op depths fallback (f.state operands unreachable) = .ok ((), s') ↔
      ∃ condition types gots rest, Pops unreachable operands (condition :: gots) rest ∧
        Fits condition .i32 ∧ f.labels[fallback.toNat]? = some types ∧ Accepts types gots ∧
        (∀ depth ∈ depths, ∃ others, f.labels[depth.toNat]? = some others ∧
          others.length = types.length ∧ Accepts others gots) ∧
        s' = f.state [] true := by
  have targets : branchTable op depths fallback = (do
      discard (popExpect op .i32)
      let last ← label fallback
      depths.forM (target op last.labelTypes.length)
      popAll op last.labelTypes
      setUnreachable) := rfl
  rw [targets]
  constructor
  · intro ok
    obtain ⟨_, middle, ran, ok⟩ := bind_eq_ok_iff.mp ok
    obtain ⟨condition, operands', pops, fits, rfl⟩ := popExpect_eq_ok_iff.mp ran
    obtain ⟨last, middle, ran, ok⟩ := bind_eq_ok_iff.mp ok
    obtain ⟨found, rfl⟩ := labels_of_label ran
    obtain ⟨_, middle, ran, ok⟩ := bind_eq_ok_iff.mp ok
    obtain ⟨others, rfl⟩ := targets_eq_ok_iff.mp ran
    obtain ⟨_, middle, ran, ok⟩ := bind_eq_ok_iff.mp ok
    obtain ⟨gots, rest, pops', fits', rfl⟩ := popAll_eq_ok_iff.mp ran
    rw [setUnreachable_state] at ok
    cases ok
    refine ⟨condition, _, gots, rest, Pops.cons_iff.mpr ⟨_, pops, pops'⟩, fits, found, fits', ?_,
      rfl⟩
    intro depth mem
    obtain ⟨types, gots', rest', known, length, pops'', fits''⟩ := others depth mem
    have same : gots'.length = gots.length := by
      rw [fits''.length_eq, fits'.length_eq, List.length_reverse, List.length_reverse, length]
    obtain ⟨rfl, -⟩ := pops''.unique pops' same
    exact ⟨types, known, length, fits''⟩
  · rintro ⟨condition, types, gots, rest, pops, fits, found, fits', others, rfl⟩
    obtain ⟨operands', pops, pops'⟩ := Pops.cons_iff.mp pops
    obtain ⟨last, ran, rfl⟩ := label_of_labels operands' unreachable found
    have each : ∀ depth ∈ depths, ∃ types gots rest, f.labels[depth.toNat]? = some types ∧
        types.length = last.labelTypes.length ∧ Pops unreachable operands' gots rest ∧
          Accepts types gots := by
      intro depth mem
      obtain ⟨types, known, length, fits⟩ := others depth mem
      exact ⟨types, gots, rest, known, length, pops', fits⟩
    rw [bind_of_ok (popExpect_eq_ok_iff.mpr ⟨_, _, pops, fits, rfl⟩), bind_of_ok ran,
      bind_of_ok (targets_eq_ok_iff.mpr ⟨each, rfl⟩),
      bind_of_ok (popAll_eq_ok_iff.mpr ⟨gots, rest, pops', fits', rfl⟩), setUnreachable_state]

/-- The operand that a choice without a type leaves. -/
theorem select_eq_ok_iff {op : UInt8} :
    select op (f.state operands unreachable) = .ok ((), s') ↔
      ∃ condition upper lower rest, Pops unreachable operands [condition, upper, lower] rest ∧
        Fits condition .i32 ∧ upper.isRef = false ∧ lower.isRef = false ∧
        (upper = .unknown ∨ lower = .unknown ∨ upper = lower) ∧
        s' = f.state ((if upper = .unknown then lower else upper) :: rest) unreachable := by
  unfold select
  constructor
  · intro ok
    obtain ⟨_, middle, ran, ok⟩ := bind_eq_ok_iff.mp ok
    obtain ⟨condition, operands', pops, fits, rfl⟩ := popExpect_eq_ok_iff.mp ran
    obtain ⟨upper, middle, ran, ok⟩ := bind_eq_ok_iff.mp ok
    obtain ⟨operands'', pops', rfl⟩ := pop_eq_ok_iff.mp ran
    obtain ⟨lower, middle, ran, ok⟩ := bind_eq_ok_iff.mp ok
    obtain ⟨rest, pops'', rfl⟩ := pop_eq_ok_iff.mp ran
    refine ⟨condition, upper, lower, rest, Pops.cons_iff.mpr ⟨_, pops,
      Pops.cons_iff.mpr ⟨_, pops', pops''⟩⟩, fits, ?_⟩
    split at ok
    · cases ok
    · next numbers =>
        rw [Bool.or_eq_true, not_or, Bool.not_eq_true, Bool.not_eq_true] at numbers
        refine ⟨numbers.1, numbers.2, ?_⟩
        dsimp only at ok
        by_cases dead : upper = .unknown
        · rw [if_pos dead, push_state] at ok
          cases ok
          rw [if_pos dead]
          exact ⟨.inl dead, rfl⟩
        · rw [if_neg dead] at ok
          by_cases same : lower = .unknown ∨ upper = lower
          · rw [if_pos same, push_state] at ok
            cases ok
            rw [if_neg dead]
            exact ⟨.inr same, rfl⟩
          · rw [if_neg same] at ok
            cases ok
  · rintro ⟨condition, upper, lower, rest, pops, fits, number, number', same, rfl⟩
    obtain ⟨_, pops, pops'⟩ := Pops.cons_iff.mp pops
    obtain ⟨_, pops', pops''⟩ := Pops.cons_iff.mp pops'
    rw [bind_of_ok (popExpect_eq_ok_iff.mpr ⟨_, _, pops, fits, rfl⟩),
      bind_of_ok (pop_eq_ok_iff.mpr ⟨_, pops', rfl⟩), bind_of_ok (pop_eq_ok_iff.mpr ⟨_, pops'', rfl⟩),
      if_neg (by simp [number, number'])]
    dsimp only
    by_cases dead : upper = .unknown
    · rw [if_pos dead, if_pos dead, push_state]
      rfl
    · rw [if_neg dead, if_neg dead, if_pos (same.resolve_left dead), push_state]
      rfl

theorem plain_of_plainTyped {ctx : Context} {i : Instruction} {type : FuncType}
    (typed : PlainTyped ctx i type) :
    plain ctx i = (liftM (ctx.signature i) >>= fun type => applySignature i.opcode type) := by
  have ordinary := Context.not_special_of_plainTyped typed
  unfold plain
  dsimp only
  split
  case h_9 => rfl
  all_goals
    next is =>
      rw [is] at ordinary
      exact absurd (by decide) ordinary

/-! ## Bodies -/

/-- A body as a construct of its own. -/
def arm (ctx : Context) (loop : Bool) (type : FuncType) (body : List Instruction) : Check Unit := do
  enter loop type
  sequence ctx body
  leave

variable {ctx : Context} {op : UInt8} {immediate : Option Immediate}
  {inner orElse : List Instruction}

theorem instruction_block (loop : Bool) (is : op = if loop then Opcode.loop else Opcode.block) :
    instruction ctx (.node op immediate inner orElse) = (do
      let type ← blockSignature ctx (.node op immediate inner orElse)
      popAll op type.params
      arm ctx loop type inner
      push type.results) := by
  cases loop
  · obtain rfl : op = Opcode.block := is
    simp only [arm, bind_assoc]
    rfl
  · obtain rfl : op = Opcode.loop := is
    simp only [arm, bind_assoc]
    rfl

theorem instruction_ifElse :
    instruction ctx (.node Opcode.ifElse immediate inner orElse) = (do
      let type ← blockSignature ctx (.node Opcode.ifElse immediate inner orElse)
      discard (popExpect Opcode.ifElse .i32)
      popAll Opcode.ifElse type.params
      arm ctx false type inner
      push type.params
      popAll Opcode.otherwise type.params
      arm ctx false type orElse
      push type.results) := by
  simp only [arm, bind_assoc]
  rfl

theorem instruction_plain (block : op ≠ Opcode.block) (loop : op ≠ Opcode.loop)
    (ifElse : op ≠ Opcode.ifElse) : instruction ctx (.node op immediate inner orElse) =
      plain ctx (.node op immediate inner orElse) := by
  unfold instruction
  split
  · exact absurd rfl block
  · exact absurd rfl loop
  · exact absurd rfl ifElse
  · rfl

/-- A function body is a construct with nothing around it. -/
theorem checkBody_eq_ok_iff {ctx : Context} {is : List Instruction} :
    checkBody ctx is = .ok () ↔
      ∃ s', (sequence ctx is >>= fun _ => leave) ((Frame.root ctx).state [] false) =
        .ok ((), s') := by
  have split : checkBody ctx is =
      (sequence ctx is >>= fun _ => leave) ((Frame.root ctx).state [] false) >>= fun (u, _) =>
        pure u := rfl
  rw [split, Typing.bind_eq_ok_iff]
  constructor
  · rintro ⟨⟨_, s'⟩, ran, -⟩
    exact ⟨s', ran⟩
  · rintro ⟨s', ran⟩
    exact ⟨⟨(), s'⟩, ran, rfl⟩

end Check

end WasmMachine.Typing
