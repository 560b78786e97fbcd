/-
# The grammar of expressions

A sequence of instruction trees is spelled by bytes put together from the
spellings of its immediates, the opcodes, and the bytes that divide and end
constructs.  The grammar leaves open how long a number is written and whether an
empty second arm is written at all; everything else is fixed by the trees.

Reading is compared with the grammar from both sides.  A spelling is read as its
trees by an induction on the grammar, whose fuel is paid for by the bytes: each
instruction takes one and costs at most three.  What is read is a spelling by an
induction on the fuel.
-/

import WasmMachine.Proofs.Instruction.Immediate

namespace WasmMachine

open Decoder Leb128

/-- The bytes spell a sequence of instruction trees, without the byte that ends
it. -/
inductive Instruction.Spelled : List UInt8 → List Instruction → Prop
  | nil : Spelled [] []
  | plain {op : UInt8} {bytes more : List UInt8} {imm : Option Immediate}
      {is : List Instruction} :
      Immediate.Follows op bytes imm → Spelled more is →
      Spelled (op :: (bytes ++ more)) (.plain op imm :: is)
  | construct {op : UInt8} {head inner more : List UInt8} {type : BlockType}
      {body is : List Instruction} :
      Opcode.isConstruct op → type.Spells head → Spelled inner body → Spelled more is →
      Spelled (op :: (head ++ (inner ++ [Opcode.close]) ++ more))
        (.node op (some (.block type)) body [] :: is)
  | choice {head first second more : List UInt8} {type : BlockType}
      {body orElse is : List Instruction} :
      type.Spells head → Spelled first body → Spelled second orElse → Spelled more is →
      Spelled
        (Opcode.ifElse ::
          (head ++ ((first ++ [Opcode.otherwise]) ++ (second ++ [Opcode.close])) ++ more))
        (.node Opcode.ifElse (some (.block type)) body orElse :: is)

namespace Decoder

/-- No immediate suits the bytes that structure a sequence. -/
private theorem suits_structural {op : UInt8} (imm : Option Immediate)
    (structural : op ∈ [Opcode.block, Opcode.loop, Opcode.ifElse, Opcode.close, Opcode.otherwise]) :
    Immediate.suits op imm = false := by
  simp only [List.mem_cons, List.not_mem_nil, or_false] at structural
  rcases structural with rfl | rfl | rfl | rfl | rfl
  all_goals
    cases imm with
    | none => rfl
    | some imm => cases imm <;> rfl

/-- Opcodes of plain instructions neither start a construct nor end a sequence. -/
theorem not_structural_of_suits {op : UInt8} {imm : Option Immediate}
    (suits : Immediate.suits op imm) :
    Opcode.isConstruct op = false ∧ op ≠ Opcode.close ∧ op ≠ Opcode.otherwise := by
  have plain := fun structural =>
    Bool.false_ne_true ((suits_structural imm structural).symm.trans suits)
  simp only [List.mem_cons, List.not_mem_nil, or_false, not_or, imp_false] at plain
  obtain ⟨block, loop, ifElse, close, otherwise⟩ := plain
  exact ⟨by simp [Opcode.isConstruct, block, loop, ifElse], close, otherwise⟩

/-- The opcodes of constructs end no sequence. -/
theorem not_ending_of_isConstruct {op : UInt8} (construct : Opcode.isConstruct op) :
    op ≠ Opcode.close ∧ op ≠ Opcode.otherwise := by
  simp only [Opcode.isConstruct, Bool.or_eq_true, beq_iff_eq] at construct
  rcases construct with (rfl | rfl) | rfl
  all_goals decide

/-! ## Reading what is spelled -/

section

variable {early : Bool} {fuel level : Nat} {op : UInt8} {bytes more : List UInt8}

private theorem Reads.ending {done : List Instruction}
    (ends : op = Opcode.close ∨ op = Opcode.otherwise) :
    Reads (Decoder.sequence early (fuel + 1) level done) [op] (done.reverse, op) := by
  rw [Decoder.sequence]
  refine Reads.bind_pure (Reads.locate "code" (Reads.byte op)) ?_
  rcases ends with rfl | rfl
  all_goals rfl

private theorem Reads.next {done : List Instruction} {i : Instruction}
    {out : List Instruction × UInt8} (goesOn : op ≠ Opcode.close ∧ op ≠ Opcode.otherwise)
    (reads : Reads (Decoder.instruction early fuel level op) bytes i)
    (rest : Reads (Decoder.sequence early fuel level (i :: done)) more out) :
    Reads (Decoder.sequence early (fuel + 1) level done) (op :: (bytes ++ more)) out := by
  rw [Decoder.sequence]
  refine Reads.bind_cons (Reads.locate "code" (Reads.byte op)) ?_
  rw [if_neg (by simp [goesOn])]
  exact Reads.bind reads rest

private theorem Reads.nested {out : List Instruction × UInt8} (inside : level < maxNesting)
    (reads : Reads (Decoder.sequence early fuel (level + 1) []) bytes out) :
    Reads (Decoder.nested early (fuel + 1) level) bytes out := by
  rw [Decoder.nested, if_neg (Nat.not_le.mpr inside)]
  exact reads

private theorem Reads.plain {imm : Option Immediate}
    (follows : Immediate.Follows op bytes imm) :
    Reads (Decoder.instruction early (fuel + 1) level op) bytes (.plain op imm) := by
  have construct := (not_structural_of_suits follows.2).1
  rw [Decoder.instruction]
  simp only [Opcode.isConstruct] at construct
  rw [construct]
  exact Reads.bind_pure (Reads.locate "code" (Reads.immediate early follows)) rfl

private theorem Reads.construct {head : List UInt8} {type : BlockType} {body : List Instruction}
    (construct : Opcode.isConstruct op) (block : type.Spells head)
    (reads : Reads (Decoder.nested early fuel level) bytes (body, Opcode.close)) :
    Reads (Decoder.instruction early (fuel + 1) level op) (head ++ bytes)
      (.node op (some (.block type)) body []) := by
  rw [Decoder.instruction]
  simp only [Opcode.isConstruct] at construct
  rw [construct]
  exact Reads.bind block.reads (Reads.bind_pure reads rfl)

private theorem Reads.choice {head : List UInt8} {type : BlockType}
    {body orElse : List Instruction} (block : type.Spells head)
    (reads : Reads (Decoder.nested early fuel level) bytes (body, Opcode.otherwise))
    (reads' : Reads (Decoder.nested early fuel level) more (orElse, Opcode.close)) :
    Reads (Decoder.instruction early (fuel + 1) level Opcode.ifElse) (head ++ (bytes ++ more))
      (.node Opcode.ifElse (some (.block type)) body orElse) := by
  rw [Decoder.instruction]
  exact Reads.bind block.reads (Reads.bind reads (Reads.bind_pure reads' rfl))

/-- A spelling is read as its trees as long as the fuel lasts and the nesting
stays in bounds. -/
theorem Reads.sequence (early : Bool) {is : List Instruction}
    (spelled : Instruction.Spelled bytes is) :
    ∀ (fuel level : Nat) (done : List Instruction) (ending : UInt8),
      ending = Opcode.close ∨ ending = Opcode.otherwise → 3 * bytes.length < fuel →
      level + Instruction.depthOf is ≤ maxNesting →
      Reads (Decoder.sequence early fuel level done) (bytes ++ [ending])
        (done.reverse ++ is, ending) := by
  induction spelled with
  | nil =>
      intro fuel level done ending ends enough _
      obtain ⟨fuel, rfl⟩ : ∃ k, fuel = k + 1 := ⟨fuel - 1, by omega⟩
      rw [List.append_nil]
      exact Reads.ending ends
  | @plain op bytes more imm is follows _ ih =>
      intro fuel level done ending ends enough shallow
      simp only [List.length_cons, List.length_append] at enough
      simp only [Instruction.depthOf] at shallow
      obtain ⟨fuel, rfl⟩ : ∃ k, fuel = k + 2 := ⟨fuel - 2, by omega⟩
      have rest := ih (fuel + 1) level (.plain op imm :: done) ending ends (by omega) (by omega)
      rw [List.reverse_cons, List.append_assoc] at rest
      rw [List.cons_append, List.append_assoc]
      exact Reads.next (not_structural_of_suits follows.2).2 (Reads.plain follows) rest
  | @construct op head inner more type body is isConstruct block _ _ ih ih' =>
      intro fuel level done ending ends enough shallow
      simp only [List.length_cons, List.length_append, List.length_nil] at enough
      simp only [Instruction.depthOf, Instruction.depth, isConstruct, if_true] at shallow
      obtain ⟨fuel, rfl⟩ : ∃ k, fuel = k + 3 := ⟨fuel - 3, by omega⟩
      have inside := ih fuel (level + 1) [] Opcode.close (.inl rfl) (by omega) (by omega)
      have rest := ih' (fuel + 2) level (.node op (some (.block type)) body [] :: done) ending ends
        (by omega) (by omega)
      rw [List.reverse_cons, List.append_assoc] at rest
      rw [List.cons_append, List.append_assoc]
      exact Reads.next (not_ending_of_isConstruct isConstruct)
        (Reads.construct isConstruct block (Reads.nested (by omega) inside)) rest
  | @choice head first second more type body orElse is block _ _ _ ih ih' ih'' =>
      intro fuel level done ending ends enough shallow
      simp only [List.length_cons, List.length_append, List.length_nil] at enough
      simp only [Instruction.depthOf, Instruction.depth, Opcode.isConstruct] at shallow
      simp only [beq_self_eq_true, Bool.or_true, if_true] at shallow
      obtain ⟨fuel, rfl⟩ : ∃ k, fuel = k + 3 := ⟨fuel - 3, by omega⟩
      have inside := ih fuel (level + 1) [] Opcode.otherwise (.inr rfl) (by omega) (by omega)
      have inside' := ih' fuel (level + 1) [] Opcode.close (.inl rfl) (by omega) (by omega)
      have rest := ih'' (fuel + 2) level
        (.node Opcode.ifElse (some (.block type)) body orElse :: done) ending ends
        (by omega) (by omega)
      rw [List.reverse_cons, List.append_assoc] at rest
      rw [List.cons_append, List.append_assoc]
      exact Reads.next (by decide)
        (Reads.choice block (Reads.nested (by omega) inside) (Reads.nested (by omega) inside')) rest

/-- A spelling and the byte that closes it are read as an expression. -/
theorem Reads.expr (early : Bool) {is : List Instruction}
    (spelled : Instruction.Spelled bytes is) (shallow : Instruction.depthOf is ≤ maxNesting) :
    Reads (Decoder.expr early) (bytes ++ [Opcode.close]) is := by
  intro position rest
  simp only [Decoder.expr, bind_eq_ok_iff]
  refine ⟨_, _, rfl, (is, Opcode.close), _, ?_, rfl⟩
  refine Reads.sequence early spelled _ 0 [] Opcode.close (.inl rfl) ?_ ?_ position rest
  · simp only [Reader.left, List.length_append]
    omega
  · omega

end

/-! ## What is read is a spelling -/

/-- The four fields of an outcome of a sequence: what was read in front of the byte
that ended it is a spelling of the trees that were added. -/
private def SequenceRead (level : Nat) (done : List Instruction) (bytes : List UInt8)
    (out : List Instruction × UInt8) : Prop :=
  ∃ inner is, bytes = inner ++ [out.2] ∧ out.1 = done.reverse ++ is ∧
    (out.2 = Opcode.close ∨ out.2 = Opcode.otherwise) ∧
    Instruction.Spelled inner is ∧ level + Instruction.depthOf is ≤ maxNesting

/-- The bytes behind the opcode complete the spelling of one tree. -/
private def InstructionRead (level : Nat) (op : UInt8) (bytes : List UInt8) (i : Instruction) :
    Prop :=
  level + Instruction.depth i ≤ maxNesting ∧
    ∀ more is, Instruction.Spelled more is → Instruction.Spelled (op :: (bytes ++ more)) (i :: is)

private theorem Yields.sequence_step {early : Bool} {fuel level : Nat} {done : List Instruction}
    (bounded : level ≤ maxNesting)
    (sequence : ∀ done, Yields (Decoder.sequence early fuel level done) (SequenceRead level done))
    (instruction : ∀ op, op ≠ Opcode.close → op ≠ Opcode.otherwise →
      Yields (Decoder.instruction early fuel level op) (InstructionRead level op)) :
    Yields (Decoder.sequence early (fuel + 1) level done) (SequenceRead level done) := by
  rw [Decoder.sequence]
  refine Yields.bind (Yields.locate "code" Yields.byte) fun bytes op taken => ?_
  subst taken
  refine Yields.ite (fun ends => Yields.pure ?_) fun goesOn => ?_
  · rw [Bool.or_eq_true, beq_iff_eq, beq_iff_eq] at ends
    exact ⟨[], [], rfl, by simp, ends, .nil, bounded⟩
  · rw [Bool.or_eq_true, beq_iff_eq, beq_iff_eq, not_or] at goesOn
    refine Yields.bind (instruction op goesOn.1 goesOn.2) fun bytes i read => ?_
    refine (sequence (i :: done)).mono fun more out read' => ?_
    obtain ⟨shallow, spelled⟩ := read
    obtain ⟨inner, is, rfl, outcome, ends, spelled', shallow'⟩ := read'
    refine ⟨op :: (bytes ++ inner), i :: is, by simp, by simp [outcome], ends,
      spelled inner is spelled', ?_⟩
    simp only [Instruction.depthOf]
    omega

private theorem Yields.construct_step {early : Bool} {fuel level : Nat} {op : UInt8}
    (construct : Opcode.isConstruct op)
    (nested : Yields (Decoder.nested early fuel level) fun bytes out =>
      level < maxNesting ∧ SequenceRead (level + 1) [] bytes out) :
    Yields (Decoder.instruction early (fuel + 1) level op) (InstructionRead level op) := by
  have entered := construct
  simp only [Opcode.isConstruct] at entered
  rw [Decoder.instruction, entered]
  simp only [if_true, failIn_bind]
  refine Yields.bind Yields.blockType fun head type block => ?_
  refine Yields.bind nested fun bytes out read => ?_
  obtain ⟨body, ending⟩ := out
  obtain ⟨inside, inner, is, rfl, outcome, ends, spelled, shallow⟩ := read
  obtain rfl : body = is := outcome
  refine Yields.ite (fun divided => ?_) fun closed => Yields.pure ?_
  · obtain rfl : ending = Opcode.otherwise := by simpa using divided
    refine Yields.ite (fun _ => Yields.failIn _ _) fun isIf => ?_
    obtain rfl : op = Opcode.ifElse := by simpa using isIf
    refine Yields.bind nested fun bytes out read => ?_
    obtain ⟨arm, ending⟩ := out
    obtain ⟨-, inner', is', rfl, outcome, ends', spelled', shallow'⟩ := read
    obtain rfl : arm = is' := outcome
    refine Yields.ite (fun _ => Yields.failIn _ _) fun closed => Yields.pure ?_
    obtain rfl : ending = Opcode.close := by simpa using closed
    refine ⟨?_, fun more rest spelled'' => ?_⟩
    · simp only [Instruction.depth, construct, if_true]
      omega
    · simpa using Instruction.Spelled.choice block spelled spelled' spelled''
  · have closes : ending = Opcode.close := ends.resolve_right (by simpa using closed)
    subst closes
    refine ⟨?_, fun more rest spelled' => ?_⟩
    · simp only [Instruction.depth, construct, if_true, Instruction.depthOf]
      omega
    · simpa using Instruction.Spelled.construct construct block spelled spelled'

private theorem Yields.steps (early : Bool) (fuel : Nat) :
    (∀ level done, level ≤ maxNesting →
      Yields (Decoder.sequence early fuel level done) (SequenceRead level done)) ∧
    (∀ level op, level ≤ maxNesting → op ≠ Opcode.close → op ≠ Opcode.otherwise →
      Yields (Decoder.instruction early fuel level op) (InstructionRead level op)) ∧
    (∀ level, Yields (Decoder.nested early fuel level) fun bytes out =>
      level < maxNesting ∧ SequenceRead (level + 1) [] bytes out) := by
  induction fuel with
  | zero =>
      refine ⟨fun level done _ => ?_, fun level op _ _ _ => ?_, fun level => ?_⟩
      · rw [Decoder.sequence]
        exact Yields.failIn _ _
      · rw [Decoder.instruction]
        exact Yields.failIn _ _
      · rw [Decoder.nested]
        exact Yields.failIn _ _
  | succ fuel ih =>
      obtain ⟨sequence, instruction, nested⟩ := ih
      refine ⟨fun level done bounded => ?_, fun level op bounded goesOn goesOn' => ?_,
        fun level => ?_⟩
      · exact Yields.sequence_step bounded (fun done => sequence level done bounded)
          fun op => instruction level op bounded
      · by_cases construct : Opcode.isConstruct op
        · exact Yields.construct_step construct (nested level)
        · have plain := construct
          simp only [Opcode.isConstruct] at plain
          rw [Decoder.instruction, if_neg plain]
          refine Yields.bind (Yields.locate "code" (Yields.immediate early op))
            fun bytes imm follows => ?_
          refine Yields.pure ⟨?_, fun more is spelled => ?_⟩
          · simpa [Instruction.plain, Instruction.depth, construct] using bounded
          · rw [List.append_nil]
            exact .plain follows spelled
      · rw [Decoder.nested]
        refine Yields.ite (fun _ => Yields.failIn _ _) fun inside => ?_
        exact (sequence (level + 1) [] (by omega)).mono fun bytes out read => ⟨by omega, read⟩

/-- What is read as an expression is a spelling of its trees and the byte that
closes it. -/
theorem Yields.expr (early : Bool) : Yields (Decoder.expr early) fun bytes is =>
    ∃ inner, bytes = inner ++ [Opcode.close] ∧ Instruction.Spelled inner is ∧
      Instruction.depthOf is ≤ maxNesting := by
  refine Yields.bind Yields.left fun none left taken => ?_
  subst taken
  refine Yields.bind ((Yields.steps early _).1 0 [] (Nat.zero_le _)) fun bytes out read => ?_
  obtain ⟨is, ending⟩ := out
  obtain ⟨inner, is', rfl, outcome, ends, spelled, shallow⟩ := read
  obtain rfl : is = is' := outcome
  simp only [failIn_bind]
  refine Yields.ite (fun _ => Yields.failIn _ _) fun closed => Yields.pure ?_
  obtain rfl : ending = Opcode.close := by simpa using closed
  exact ⟨inner, by simp, spelled, by omega⟩

end Decoder

/-! ## Trees and their spellings -/

namespace Instruction

/-- Only well-formed trees have a spelling. -/
theorem Spelled.wellFormed {bytes : List UInt8} {is : List Instruction}
    (spelled : Spelled bytes is) : allWellFormed is := by
  induction spelled with
  | nil => rfl
  | plain follows _ ih =>
      have construct := (not_structural_of_suits follows.2).1
      simp [allWellFormed, Instruction.plain, Instruction.wellFormed, construct, follows.2, ih]
  | construct isConstruct block _ _ ih ih' =>
      simp [allWellFormed, Instruction.wellFormed, isConstruct, block.known, ih, ih']
  | choice block _ _ _ ih ih' ih'' =>
      simp [allWellFormed, Instruction.wellFormed, Opcode.isConstruct, block.known, ih, ih', ih'']

end Instruction

namespace Encode

theorem spells_blockType {type : BlockType} (known : type.spellable) :
    type.Spells (s64 type.toInt) := by
  have lower : -2 ^ 31 ≤ type.toInt := Int32.le_toInt type
  have upper : type.toInt < 2 ^ 31 := Int32.toInt_lt type
  exact ⟨signed_s64 (by decide) (by decide) (by omega) (by omega), known⟩

/-- What is written for a plain instruction is its opcode and its immediate. -/
theorem instruction_plain {op : UInt8} {imm : Option Immediate}
    (suits : Immediate.suits op imm) :
    instruction (.plain op imm) = op :: (imm.map immediate).getD [] := by
  cases imm with
  | none => simp [Instruction.plain, instruction]
  | some imm =>
      cases imm with
      | block type => cases suits
      | _ => simp [Instruction.plain, instruction]

theorem instruction_construct (op : UInt8) (type : BlockType) (body : List Instruction) :
    instruction (.node op (some (.block type)) body []) =
      op :: (s64 type.toInt ++ (instructions body ++ [Opcode.close])) := by
  simp [instruction, immediate]

theorem instruction_choice (type : BlockType) (body : List Instruction)
    {orElse : List Instruction} (some : orElse ≠ []) :
    instruction (.node Opcode.ifElse (.some (.block type)) body orElse) =
      Opcode.ifElse :: (s64 type.toInt ++
        ((instructions body ++ [Opcode.otherwise]) ++ (instructions orElse ++ [Opcode.close]))) := by
  simp [instruction, immediate, some]

mutual

private theorem spelled_instruction : ∀ (i : Instruction), i.wellFormed →
    ∀ {more : List UInt8} {is : List Instruction}, Instruction.Spelled more is →
      Instruction.Spelled (instruction i ++ more) (i :: is)
  | .node op imm body orElse, wellFormed, more, is, spelled => by
      by_cases construct : Opcode.isConstruct op
      · rw [Instruction.wellFormed_construct construct] at wellFormed
        obtain ⟨⟨type, rfl, known⟩, bodyFormed, armFormed, arms⟩ := wellFormed
        have inside := spelled_instructions body bodyFormed
        by_cases empty : orElse = []
        · subst empty
          rw [instruction_construct]
          exact .construct construct (spells_blockType known) inside spelled
        · obtain rfl := arms.resolve_right empty
          have inside' := spelled_instructions orElse armFormed
          rw [instruction_choice type body empty]
          exact .choice (spells_blockType known) inside inside' spelled
      · rw [Instruction.wellFormed_plain construct] at wellFormed
        obtain ⟨suits, rfl, rfl⟩ := wellFormed
        have written := instruction_plain suits
        rw [Instruction.plain] at written
        rw [written]
        exact .plain (follows_immediate suits) spelled

/-- What is written for well-formed trees is a spelling of them. -/
theorem spelled_instructions : ∀ (is : List Instruction), Instruction.allWellFormed is →
    Instruction.Spelled (instructions is) is
  | [], _ => .nil
  | i :: rest, wellFormed => by
      simp only [Instruction.allWellFormed, Bool.and_eq_true] at wellFormed
      rw [instructions]
      exact spelled_instruction i wellFormed.1 (spelled_instructions rest wellFormed.2)

end

/-- Nothing shorter than what is written spells a sequence of trees. -/
theorem length_instructions_le {bytes : List UInt8} {is : List Instruction}
    (spelled : Instruction.Spelled bytes is) : (instructions is).length ≤ bytes.length := by
  induction spelled with
  | nil => exact Nat.le_refl _
  | plain follows _ ih =>
      have here := length_immediate_le_of_fills follows.1
      rw [instructions, instruction_plain follows.2]
      simp only [List.length_append, List.length_cons]
      omega
  | construct _ block _ _ ih ih' =>
      have head := length_s64_le (by decide) block.number
      rw [instructions, instruction_construct]
      simp only [List.length_append, List.length_cons]
      omega
  | @choice _ _ _ _ type body orElse _ block _ _ _ ih ih' ih'' =>
      have head := length_s64_le (by decide) block.number
      by_cases empty : orElse = []
      · subst empty
        rw [instructions, instruction_construct]
        simp only [List.length_append, List.length_cons]
        omega
      · rw [instructions, instruction_choice type body empty]
        simp only [List.length_append, List.length_cons]
        omega

end Encode

end WasmMachine
