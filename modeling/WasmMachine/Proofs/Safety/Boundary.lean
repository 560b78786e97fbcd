/-
# What comes in from outside

Values come to running code from outside as the arguments of an invocation, as the results
of a host function and as the first values of the embedder's globals.  Each time a check
compares the types that the values report with those that are asked for.  A number reports
the type of its variant, but a null reference reports the type that it was made with, and
nothing keeps that from being a number type.  So the check lets through the values of the
variant that a type stands for and, besides, one stray null reference for every type that is
not a reference type.

A stray reference does not take the place of a number: code that the checker accepted traps
when it is used.  With none of them about, the check is as strict as such code needs it.
-/

import WasmMachine.Proofs.Evolution.Run
import WasmMachine.Proofs.Evolution.Sealed
import WasmMachine.Proofs.Safety.Soundness

namespace WasmMachine

namespace Value

/-- The values that a type stands for: the numbers or vectors of one variant, or null and
the references of one sort. -/
inductive Variant : Value → ValType → Prop
  | i32 (bits : UInt32) : Variant (.i32 bits) .i32
  | i64 (bits : UInt64) : Variant (.i64 bits) .i64
  | f32 (bits : UInt32) : Variant (.f32 bits) .f32
  | f64 (bits : UInt64) : Variant (.f64 bits) .f64
  | v128 (bits : V128) : Variant (.v128 bits) .v128
  | null {type : ValType} : type.isRef → Variant (.ref (.null type)) type
  | func (addr : Addr) : Variant (.ref (.func addr)) .funcref
  | external (number : Nat) : Variant (.ref (.external number)) .externref

/-- What is let through where a value of a type is asked for: the values that the type
stands for, and the null reference of a type that has no references. -/
inductive Admitted : Option Value → ValType → Prop
  | variant {v : Value} {type : ValType} : v.Variant type → Admitted (some v) type
  | stray {type : ValType} : ¬ type.isRef → Admitted (some (.ref (.null type))) type

variable {n : Nat} {v : Value} {type : ValType} {args : List (Option Value)}
  {types : List ValType}

theorem Variant.type_eq (variant : v.Variant type) : v.type = type := by
  cases variant <;> rfl

theorem Variant.of_has (has : v.Has n type) : v.Variant type := by
  obtain ⟨rfl, valid⟩ := has
  cases v with
  | i32 bits => exact .i32 bits
  | i64 bits => exact .i64 bits
  | f32 bits => exact .f32 bits
  | f64 bits => exact .f64 bits
  | v128 bits => exact .v128 bits
  | ref r =>
      cases r with
      | null type => exact .null valid
      | func addr => exact .func addr
      | external number => exact .external number

/-- The types that values report are compared, and no more than that. -/
theorem admitted_iff : Admitted (some v) type ↔ v.type = type := by
  constructor
  · intro admitted
    cases admitted with
    | variant variant => exact variant.type_eq
    | stray _ => rfl
  · rintro rfl
    by_cases genuine : v.Genuine
    · obtain ⟨_, has⟩ := genuine.exists_has
      exact .variant (.of_has has)
    · obtain ⟨own, same⟩ := not_forall.mp genuine
      obtain ⟨rfl, other⟩ := Classical.not_imp.mp same
      exact .stray other

/-- The check of a list of values. -/
theorem matchTypes_iff : matchTypes args types = true ↔ List.Forall₂ Admitted args types := by
  fun_induction matchTypes args types with
  | case1 => exact ⟨fun _ => .nil, fun _ => rfl⟩
  | case2 v vs t ts ih =>
      rw [Bool.and_eq_true, beq_iff_eq, ih, List.forall₂_cons, admitted_iff]
  | case3 args types _ other =>
      refine ⟨by simp, fun admitted => ?_⟩
      cases admitted with
      | nil => contradiction
      | @cons arg type args types first rest =>
          obtain ⟨v, rfl⟩ : ∃ v, arg = some v := by
            cases first with
            | variant => exact ⟨_, rfl⟩
            | stray => exact ⟨_, rfl⟩
          exact absurd rfl (other v args type types rfl)

/-- What is let through is of the right variant unless it is a stray reference. -/
theorem Admitted.exists_variant {given : Option Value} (admitted : Admitted given type)
    (genuine : ∀ v, given = some v → v.Genuine) : ∃ v, given = some v ∧ v.Variant type := by
  cases admitted with
  | variant variant => exact ⟨_, rfl, variant⟩
  | @stray type other => exact absurd (genuine _ rfl type rfl) other

/-- A value that is no stray reference and refers to functions of the store only means
something there. -/
theorem Genuine.valid (genuine : v.Genuine) (addresses : ∀ addr, v = .ref (.func addr) → addr < n) :
    v.Valid n := by
  cases v with
  | ref r =>
      cases r with
      | null type => exact genuine type rfl
      | func addr => exact addresses addr rfl
      | external number => trivial
  | _ => trivial

end Value

theorem Shape.Admits.ne_operands {σ : Shape} {t : Trap} (admits : σ.Admits t) : t ≠ .operands := by
  rintro rfl
  cases admits with
  | expected expected => cases expected

namespace Linker

/-- How a linker guards against what comes in from outside. -/
structure Guarded (l : Linker) : Prop where
  /-- An invocation with arguments that are let through is not refused. -/
  accepts : ∀ (fuel : Nat) (addr : Addr) (f : FuncInst) (args : List (Option Value)),
    l.machine.store.funcs[addr]? = some f → List.Forall₂ Value.Admitted args f.type.params →
    ∀ r machine, Run.invoke fuel addr args l.machine ≠ .error (.refused r) machine
  /-- Any other invocation is refused as invalid input before anything is done. -/
  refuses : ∀ (fuel : Nat) (addr : Addr) (f : FuncInst) (args : List (Option Value)),
    l.machine.store.funcs[addr]? = some f → ¬ List.Forall₂ Value.Admitted args f.type.params →
    Run.invoke (fuel + 1) addr args l.machine =
        .error (.refused (.arguments args f.type.params)) l.machine ∧
      (Refusal.arguments args f.type.params).toFault.isLike
        (.bare Phase.runtime "invalid_input") = true
  /-- Whatever is let through is of the right variant unless it is a stray reference. -/
  genuine : ∀ (given : Option Value) (type : ValType), Value.Admitted given type →
    (∀ v, given = some v → v.Genuine) → ∃ v, given = some v ∧ v.Variant type
  /-- Without stray references among them, arguments that are let through are of the variants
  of their parameters. The results then are of the variants of their types, and no instruction
  misses an operand or finds one of another variant. -/
  safe : ∀ (fuel : Nat) (addr : Addr) (f : FuncInst) (args : List (Option Value)),
    l.machine.store.funcs[addr]? = some f → (∀ v, some v ∈ args → v.Genuine) →
    (∀ g, some (.ref (.func g)) ∈ args → g < l.machine.store.funcs.size) →
    List.Forall₂ Value.Admitted args f.type.params →
    List.Forall₂ (fun arg type => ∃ v, arg = some v ∧ v.Variant type) args f.type.params ∧
      Ends (Run.invoke fuel addr args) l.machine
        (fun results _ => List.Forall₂ Value.Variant results f.type.results)
        fun stop _ => stop ≠ .trap .operands
  /-- The results of a host function are put on the stack if all of them are let through. -/
  pushes : ∀ (fuel : Nat) (f : HostCode) (args : List Value) (results : List (Option Value))
    (m m' m'' : Machine), Run.popValues f.type.params.length m = .ok args m' →
    Run.host fuel (f.behaviour args) m' = .ok (.ok results) m'' →
    List.Forall₂ Value.Admitted results f.type.results →
    Run.function (fuel + 1) (.host f) m =
      .ok () { m'' with stack := m''.stack.pushValues (results.filterMap id) }
  /-- Otherwise the host function traps. -/
  traps : ∀ (fuel : Nat) (f : HostCode) (args : List Value) (results : List (Option Value))
    (m m' m'' : Machine), Run.popValues f.type.params.length m = .ok args m' →
    Run.host fuel (f.behaviour args) m' = .ok (.ok results) m'' →
    ¬ List.Forall₂ Value.Admitted results f.type.results →
    Run.function (fuel + 1) (.host f) m =
      .error (.trap (.hostResults f.name results f.type.results)) m''
  /-- A global of the embedder passes the check if its value is let through. -/
  global : ∀ (mod name : String) (type : GlobalType) (value : Option Value),
    HostDef.check mod ⟨name, .global type value⟩ = .ok () ↔ Value.Admitted value type.type
  /-- A module of the embedder with another global is refused, and nothing of it is added. -/
  hostModule : ∀ (mod : String) (defs : List HostDef) (name : String) (type : GlobalType)
    (value : Option Value), ⟨name, .global type value⟩ ∈ defs →
    ¬ Value.Admitted value type.type → ∃ e, Link.hostModule mod defs l = .error (.failed e) l

variable {l : Linker}

/-- An invocation of a function of the store is refused for nothing but its arguments. -/
theorem invoke_ne_refused {fuel : Nat} {addr : Addr} {f : FuncInst} {args : List (Option Value)}
    {m : Machine} (found : m.store.funcs[addr]? = some f)
    (admitted : List.Forall₂ Value.Admitted args f.type.params) (r : Refusal) (m' : Machine) :
    Run.invoke fuel addr args m ≠ .error (.refused r) m' := by
  intro ran
  have unmatched := ((Run.invoke_evolves fuel addr args m).bad ran).2 r rfl f found
  rw [Value.matchTypes_iff.mpr admitted] at unmatched
  cases unmatched

/-- A global of the embedder is checked like everything else that comes in. -/
theorem check_global_iff {mod name : String} {type : GlobalType} {value : Option Value} :
    HostDef.check mod ⟨name, .global type value⟩ = .ok () ↔ Value.Admitted value type.type := by
  constructor
  · intro passed
    obtain ⟨v, rfl, same⟩ := Link.exists_value_of_check passed
    exact Value.admitted_iff.mpr same
  · intro admitted
    cases value with
    | none => nomatch admitted
    | some v => simp only [HostDef.check, Option.map_some, Value.admitted_iff.mp admitted, if_true]

/-- A linker lets in what the comparison of types lets through. An upright one whose host
functions are honest is safe from anything but stray references. -/
theorem Upright.guarded (upright : l.Upright)
    (honest : l.machine.store.Honest l.machine.store.funcs.size) : l.Guarded where
  accepts fuel addr f args found admitted := invoke_ne_refused found admitted
  refuses := by
    intro fuel addr f args found others
    have unmatched : Value.matchTypes args f.type.params = false :=
      Bool.eq_false_iff.mpr fun matched => others (Value.matchTypes_iff.mp matched)
    exact ⟨Run.invoke_unmatched fuel found unmatched, rfl⟩
  genuine _ _ admitted := admitted.exists_variant
  safe := by
    intro fuel addr f args found genuine addresses admitted
    have ready := upright.ready
    have lawful := ready.lawful fun f mem => honest f (Array.mem_def.mpr mem)
    have held : l.machine.store.shape.funcs[addr]? = some f :=
      (ready.of.func addr).symm.trans found
    have matched := Value.matchTypes_iff.mpr admitted
    have valid : ∀ v, some v ∈ args → v.Valid l.machine.store.shape.size :=
      fun v mem => (genuine v mem).valid fun g same => addresses g (same ▸ mem)
    obtain ⟨values, rfl, typed⟩ := Value.values_of_matchTypes matched valid
    refine ⟨?_, Ends.mono (Run.invoke_halts lawful ready.of held matched valid fuel) ?_ ?_⟩
    · exact List.forall₂_map_left_iff.mpr (typed.imp fun v _ has => ⟨v, rfl, .of_has has⟩)
    · rintro results _ ⟨typed, -⟩
      exact typed.imp fun _ _ => Value.Variant.of_has
    · rintro _ _ halts rfl
      exact halts.1.ne_operands rfl
  pushes := by
    intro fuel f args results m m' m'' popped ran admitted
    rw [Run.function]
    simp only [bind, EStateM.bind, popped, ran, Value.matchTypes_iff.mpr admitted, if_true]
    rfl
  traps := by
    intro fuel f args results m m' m'' popped ran others
    have unmatched : ¬ Value.matchTypes results f.type.results = true :=
      fun matched => others (Value.matchTypes_iff.mp matched)
    rw [Run.function]
    simp only [bind, EStateM.bind, popped, ran, if_neg unmatched]
    rfl
  global mod name type value := check_global_iff
  hostModule := by
    intro mod defs name type value mem other
    unfold Link.hostModule
    cases checked : defs.forM (HostDef.check mod) with
    | error e => exact ⟨e, rfl⟩
    | ok u => exact absurd (check_global_iff.mp (Module.forM_eq_ok checked _ mem)) other

/-- The linker with the quotient has a host function that gives back its argument. -/
theorem guarded_quotientLinker :
    quotientLinker.Upright ∧
      quotientLinker.machine.store.Honest quotientLinker.machine.store.funcs.size ∧
      quotientLinker.Guarded := by
  have upright := reachable_quotientLinker.upright
  have funcs : quotientLinker.machine.store.funcs = #[.host identity, .code quotient] := rfl
  have honest : quotientLinker.machine.store.Honest quotientLinker.machine.store.funcs.size := by
    intro f mem
    rw [funcs] at mem
    rcases List.mem_cons.mp (Array.mem_def.mp mem) with host | code
    · cases host
      exact (tame_identity _).honest
    · cases List.mem_singleton.mp code
  exact ⟨upright, honest, upright.guarded honest⟩

/-- A module whose function tells whether its argument is zero. -/
def zeroTestBytes : List UInt8 :=
  [0x00, 0x61, 0x73, 0x6d, 1, 0, 0, 0,
    1, 6, 1, 0x60, 1, 0x7f, 1, 0x7f,
    3, 2, 1, 0,
    10, 7, 1, 5, 0, 0x20, 0, 0x45, 0x0b]

/-- What these bytes hold. -/
def zeroTestModule : Module :=
  { types := [⟨[.i32], [.i32]⟩]
    funcs := [0]
    code := [⟨[], [.plain Opcode.localGet (some (.localIndex 0)), .plain 0x45 none]⟩] }

/-- A fresh linker after the module has been instantiated. -/
def zeroTestLinker : Linker :=
  match Link.instantiate 1 zeroTestModule "" (Embedding.new {}).linker with
  | .ok _ l => l
  | .error _ l => l

set_option maxRecDepth 20000 in
/-- The null reference of the type of the numbers is no number, but it passes for one until
the function looks at it. -/
theorem invoke_strayNull :
    Module.decode zeroTestBytes = .ok zeroTestModule ∧
      zeroTestModule.validate = .ok () ∧
      Link.instantiate 1 zeroTestModule "" (Embedding.new {}).linker = .ok 0 zeroTestLinker ∧
      ¬ (Value.ref (.null .i32)).Variant .i32 ∧
      ∃ machine, Run.invoke 20 0 [some (.ref (.null .i32))] zeroTestLinker.machine =
        .error (.trap .operands) machine := by
  refine ⟨rfl, rfl, rfl, fun variant => ?_, _, rfl⟩
  cases variant with
  | null reference => cases reference

end Linker

end WasmMachine
