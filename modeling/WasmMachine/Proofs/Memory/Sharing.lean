/-
# One memory for all

The embedder and code take turns with a memory, in any order and at any time, and each turn
gets an answer.  All turns are turns with one array of bytes that knows nothing of either: the
answers are those that this array gives when it is asked one thing after the other, whoever
asks.  So a view that was made at the start sees every byte that was written and every page
that was added since, and an access that fails changes nothing.
-/

import WasmMachine.Proofs.Memory.Views

namespace WasmMachine

/-- What a memory is asked for. -/
inductive MemoryRequest
  | read (start count : Nat)
  | number (start width : Nat)
  | load (t : Transfer) (start : Nat)
  | write (start : Nat) (bytes : List UInt8)
  | grow (count : Nat)

/-- What the one who asked gets. -/
inductive MemoryAnswer
  | refused
  | bytes (run : List UInt8)
  | number (n : Nat)
  | operand (v : Option Value)
  | done
  | pages (old : Nat)

namespace MemInst

/-- There are the bytes that a request is about, or the room that it asks for. -/
def Allows (m : MemInst) : MemoryRequest → Prop
  | .read start count => start + count ≤ m.data.size
  | .number start width => start + width ≤ m.data.size
  | .load t start => start + t.width ≤ m.data.size
  | .write start bytes => start + bytes.length ≤ m.data.size
  | .grow count => m.pages + count ≤ m.limit

/-- How a memory by itself answers a request, and what it is afterwards. -/
inductive Serves (m : MemInst) : MemoryRequest → MemoryAnswer → MemInst → Prop
  | refused {request : MemoryRequest} (outside : ¬ m.Allows request) : m.Serves request .refused m
  | read {start count : Nat} (inside : m.Allows (.read start count)) :
      m.Serves (.read start count) (.bytes ((m.data.toList.drop start).take count)) m
  | number {start width : Nat} (inside : m.Allows (.number start width)) :
      m.Serves (.number start width)
        (.number (Decoder.littleEndian ((m.data.toList.drop start).take width))) m
  | load {t : Transfer} {start : Nat} {v : Value} (inside : m.Allows (.load t start))
      (gives : t.Gives (Cells.number m.data start t.width) v) :
      m.Serves (.load t start) (.operand (some v)) m
  | write {start : Nat} {bytes : List UInt8} (inside : m.Allows (.write start bytes)) :
      m.Serves (.write start bytes) .done (m.withData (Cells.overwrite m.data start bytes))
  | grow {count : Nat} (room : m.Allows (.grow count)) :
      m.Serves (.grow count) (.pages m.pages) (m.grow count)

/-- A memory is asked one thing after the other. -/
inductive ServesAll : MemInst → List (MemoryRequest × MemoryAnswer) → MemInst → Prop
  | nil (m : MemInst) : ServesAll m [] m
  | cons {m m' m'' : MemInst} {request : MemoryRequest} {answer : MemoryAnswer}
      {history : List (MemoryRequest × MemoryAnswer)} (first : m.Serves request answer m')
      (rest : ServesAll m' history m'') : ServesAll m ((request, answer) :: history) m''

theorem Serves.pages_le {m m' : MemInst} {request : MemoryRequest} {answer : MemoryAnswer}
    (serves : m.Serves request answer m') (few : m.pages ≤ maxPages) : m'.pages ≤ maxPages := by
  cases serves with
  | grow room =>
      rw [pages_grow]
      exact Nat.le_trans room m.limit_le.1
  | write inside =>
      rw [pages, size_bytes, Cells.size_overwrite]
      exact few
  | _ => exact few

/-- A memory of the format ends long before the addresses do. -/
theorem size_lt {m : MemInst} (few : m.pages ≤ maxPages) : m.data.size < 2 ^ 64 := by
  have whole := Nat.lt_mul_div_succ m.data.size pageSize_pos
  have below : pageSize * (m.data.size / pageSize + 1) ≤ pageSize * (maxPages + 1) :=
    Nat.mul_le_mul_left _ (Nat.succ_le_succ few)
  exact Nat.lt_of_lt_of_le whole (Nat.le_trans below (by decide))

end MemInst

/-- A store is another one in which a memory has been exchanged. -/
structure Store.Exchanges (s s' : Store) (addr : Addr) (m : MemInst) : Prop where
  memories : Exchanged s.memories s'.memories addr m
  elsewhere : s' = { s with memories := s'.memories }

namespace Store

variable {s : Store} {addr : Addr} {m : MemInst}

theorem exchanges_self (found : s.memories[addr]? = some m) : s.Exchanges s addr m :=
  ⟨⟨found, fun _ _ => rfl⟩, rfl⟩

theorem Exchanges.trans {s' s'' : Store} {m' : MemInst} (first : s.Exchanges s' addr m)
    (second : s'.Exchanges s'' addr m') : s.Exchanges s'' addr m' where
  memories :=
    ⟨second.memories.here, fun other apart =>
      (second.memories.others other apart).trans (first.memories.others other apart)⟩
  elsewhere := by rw [second.elsewhere, first.elsewhere]

theorem exchanges_writeMemory (found : s.memories[addr]? = some m) (start : Nat)
    (bytes : List UInt8) :
    s.Exchanges (s.writeMemory addr start bytes) addr
      (m.withData (Cells.overwrite m.data start bytes)) :=
  have written := withMemory_writeMemory found start bytes
  ⟨written.memories, written.elsewhere⟩

theorem exchanges_growMemory (found : s.memories[addr]? = some m) (count : Nat) :
    s.Exchanges (s.growMemory addr count) addr (m.grow count) :=
  ⟨exchanged_modify found fun m => m.grow count, rfl⟩

end Store

/-! ## Turns -/

namespace MemoryAnswer

/-- The answer to what gives something or fails. -/
def of {ε α : Type} (give : α → MemoryAnswer) : Except ε α → MemoryAnswer
  | .ok a => give a
  | .error _ => .refused

/-- The answer of a view that was asked to grow. -/
def ofPages : Option Nat → MemoryAnswer
  | some old => .pages old
  | none => .refused

/-- The answer that code finds on its stack after it has asked the memory to grow. -/
def ofOperand : Option Value → MemoryAnswer
  | some (.i32 n) => if n = -1 then .refused else .pages n.toNat
  | _ => .refused

/-- There are too few pages for their number to be taken for a refusal. -/
theorem ofOperand_pages {n : Nat} (few : n ≤ maxPages) :
    ofOperand (some (.i32 (UInt32.ofNat n))) = .pages n := by
  have exact : (UInt32.ofNat n).toNat = n :=
    UInt32.toNat_ofNat_of_lt' (Nat.lt_of_le_of_lt few (by decide))
  have different : UInt32.ofNat n ≠ -1 := by
    intro same
    rw [same] at exact
    rw [← exact] at few
    exact absurd few (by decide)
  rw [ofOperand, if_neg different, exact]

end MemoryAnswer

/-- One turn with the memory that a view is of: of the embedder through the view, or of code
that has the memory as its own. -/
inductive MemoryView.Uses (view : MemoryView) :
    Store → MemoryRequest → MemoryAnswer → Store → Prop
  | read (s : Store) (offset length : UInt32) :
      view.Uses s (.read offset.toNat length.toNat) (.of .bytes (view.read s offset length)) s
  | number (s : Store) (offset : UInt32) {width : Nat} (known : width ∈ widths) :
      view.Uses s (.number offset.toNat width) (.of .number (view.readNumber s width offset)) s
  | write (e : Embedding) (offset : UInt32) {bytes : List UInt8} (short : bytes.length < 2 ^ 32) :
      view.Uses e.store (.write offset.toNat bytes)
        (.of (fun _ => .done) (outcome (Embed.writeView (view.write · offset bytes)) e))
        (after (Embed.writeView (view.write · offset bytes)) e).store
  | writeNumber (e : Embedding) (offset : UInt32) {width : Nat} (known : width ∈ widths) (n : Nat) :
      view.Uses e.store (.write offset.toNat (Encode.littleEndian width n))
        (.of (fun _ => .done) (outcome (Embed.writeView (view.writeNumber · width offset n)) e))
        (after (Embed.writeView (view.writeNumber · width offset n)) e).store
  | grow (e : Embedding) (count : UInt32) :
      view.Uses e.store (.grow count.toNat)
        (.of .ofPages (outcome (Embed.growView view count) e))
        (after (Embed.growView view count) e).store
  | load (options : Options) {i : Instruction} {t : Transfer} {offset : UInt64} {σ : Scope}
      {m : MemInst} {base : UInt32} {rest : List Value} (loads : i.Loads t offset)
      (reaches : σ.Reaches view.addr m) (top : σ.operands = .i32 base :: rest) :
      view.Uses σ.store (.load t (Step.effective base offset))
        (.of (fun _ => .operand (after (Step.plain options i) σ).operands.head?)
          (outcome (Step.plain options i) σ))
        (after (Step.plain options i) σ).store
  | store (options : Options) {i : Instruction} {t : Transfer} {offset : UInt64} {σ : Scope}
      {m : MemInst} {v : Value} {base : UInt32} {rest : List Value} (stores : i.Stores t offset)
      (takes : t.Takes v) (reaches : σ.Reaches view.addr m)
      (top : σ.operands = v :: .i32 base :: rest) :
      view.Uses σ.store
        (.write (Step.effective base offset) (Encode.littleEndian t.width v.bits.toNat))
        (.of (fun _ => .done) (outcome (Step.plain options i) σ))
        (after (Step.plain options i) σ).store
  | memoryGrow (options : Options) {i : Instruction} {σ : Scope} {m : MemInst} {count : UInt32}
      {rest : List Value} (known : i.opcode = Opcode.memoryGrow)
      (reaches : σ.Reaches view.addr m) (top : σ.operands = .i32 count :: rest) :
      view.Uses σ.store (.grow count.toNat)
        (.of (fun _ => .ofOperand (after (Step.plain options i) σ).operands.head?)
          (outcome (Step.plain options i) σ))
        (after (Step.plain options i) σ).store

namespace MemoryView

variable {view : MemoryView}

theorem serves_writeView {e : Embedding} {m : MemInst}
    (found : e.store.memories[view.addr]? = some m) {start : Nat} {bytes : List UInt8} {trap : Trap}
    {change : Store → Except Trap Store}
    (changes : change e.store =
      if start + bytes.length ≤ m.data.size then .ok (e.store.writeMemory view.addr start bytes)
      else .error trap) :
    ∃ m', m.Serves (.write start bytes) (.of (fun _ => .done) (outcome (Embed.writeView change) e))
        m' ∧ e.store.Exchanges (after (Embed.writeView change) e).store view.addr m' := by
  have run := Embed.writeView_eq change e
  by_cases inside : start + bytes.length ≤ m.data.size
  · rw [changes, if_pos inside] at run
    simp only [outcome, after, run]
    exact ⟨_, .write inside, Store.exchanges_writeMemory found start bytes⟩
  · rw [changes, if_neg inside] at run
    simp only [outcome, after, run]
    exact ⟨m, .refused inside, Store.exchanges_self found⟩

theorem serves_growView {e : Embedding} {m : MemInst}
    (found : e.store.memories[view.addr]? = some m) (count : UInt32) :
    ∃ m', m.Serves (.grow count.toNat) (.of .ofPages (outcome (Embed.growView view count) e)) m' ∧
      e.store.Exchanges (after (Embed.growView view count) e).store view.addr m' := by
  have run := Embed.growView_eq view count e
  rw [grow_eq found] at run
  by_cases room : m.pages + count.toNat ≤ m.limit
  · rw [if_pos room] at run
    simp only [outcome, after, run]
    exact ⟨_, .grow room, Store.exchanges_growMemory found count.toNat⟩
  · rw [if_neg room] at run
    simp only [outcome, after, run]
    exact ⟨m, .refused room, Store.exchanges_self found⟩

section Code

variable {options : Options} {i : Instruction} {t : Transfer} {offset : UInt64} {σ : Scope}
  {addr : Addr} {m : MemInst} {base count : UInt32} {rest : List Value}
  (reaches : σ.Reaches addr m) (few : m.pages ≤ maxPages)

include reaches few

theorem serves_load (loads : i.Loads t offset) (top : σ.operands = .i32 base :: rest) :
    ∃ m', m.Serves (.load t (Step.effective base offset))
        (.of (fun _ => .operand (after (Step.plain options i) σ).operands.head?)
          (outcome (Step.plain options i) σ)) m' ∧
      σ.store.Exchanges (after (Step.plain options i) σ).store addr m' := by
  obtain ⟨decode, gives, runs⟩ := Step.exists_load_eq loads options
  have run := runs σ addr m base rest reaches top
  have same := Store.exchanges_self reaches.found
  by_cases beyond : Step.Beyond (Step.effective base offset) t.width m.data.size
  · have outside := (Step.beyond_iff_of_size (MemInst.size_lt few)).mp beyond
    rw [if_pos beyond] at run
    simp only [outcome, after, run]
    exact ⟨m, .refused (Nat.not_le.mpr outside), same⟩
  · have inside := Nat.not_lt.mp (mt (Step.beyond_iff_of_size (MemInst.size_lt few)).mpr beyond)
    rw [if_neg beyond] at run
    simp only [outcome, after, run]
    exact ⟨m, .load inside (gives _ (Cells.length_run (by rwa [Array.length_toList]))), same⟩

theorem serves_store {v : Value} (stores : i.Stores t offset) (takes : t.Takes v)
    (top : σ.operands = v :: .i32 base :: rest) :
    ∃ m', m.Serves (.write (Step.effective base offset) (Encode.littleEndian t.width v.bits.toNat))
        (.of (fun _ => .done) (outcome (Step.plain options i) σ)) m' ∧
      σ.store.Exchanges (after (Step.plain options i) σ).store addr m' := by
  have run := Step.store_eq stores options takes reaches top
  have length := Decoder.length_littleEndian t.width v.bits.toNat
  by_cases beyond : Step.Beyond (Step.effective base offset) t.width m.data.size
  · have outside := (Step.beyond_iff_of_size (MemInst.size_lt few)).mp beyond
    rw [if_pos beyond] at run
    rw [← length] at outside
    simp only [outcome, after, run]
    exact ⟨m, .refused (Nat.not_le.mpr outside), Store.exchanges_self reaches.found⟩
  · have inside := Nat.not_lt.mp (mt (Step.beyond_iff_of_size (MemInst.size_lt few)).mpr beyond)
    rw [if_neg beyond] at run
    rw [← length] at inside
    simp only [outcome, after, run]
    exact ⟨_, .write inside, Store.exchanges_writeMemory reaches.found _ _⟩

theorem serves_memoryGrow (known : i.opcode = Opcode.memoryGrow)
    (top : σ.operands = .i32 count :: rest) :
    ∃ m', m.Serves (.grow count.toNat)
        (.of (fun _ => .ofOperand (after (Step.plain options i) σ).operands.head?)
          (outcome (Step.plain options i) σ)) m' ∧
      σ.store.Exchanges (after (Step.plain options i) σ).store addr m' := by
  have run := Step.memoryGrow_eq reaches top
  rw [← Step.plain_memoryGrow known options] at run
  by_cases room : m.pages + count.toNat ≤ m.limit
  · rw [if_pos room] at run
    simp only [outcome, after, run]
    refine ⟨_, ?_, Store.exchanges_growMemory reaches.found count.toNat⟩
    show m.Serves _ (MemoryAnswer.ofOperand (some (.i32 (UInt32.ofNat m.pages)))) _
    rw [MemoryAnswer.ofOperand_pages few]
    exact .grow room
  · rw [if_neg room] at run
    simp only [outcome, after, run]
    exact ⟨m, .refused room, Store.exchanges_self reaches.found⟩

end Code

/-- Every turn is answered as the memory by itself would, and leaves just what it would. -/
theorem Uses.serves {s s' : Store} {request : MemoryRequest} {answer : MemoryAnswer} {m : MemInst}
    (uses : view.Uses s request answer s') (found : s.memories[view.addr]? = some m)
    (few : m.pages ≤ maxPages) :
    ∃ m', m.Serves request answer m' ∧ s.Exchanges s' view.addr m' := by
  cases uses with
  | read _ offset length =>
      rw [read_eq found]
      split
      · next inside => exact ⟨m, .read inside, Store.exchanges_self found⟩
      · next outside => exact ⟨m, .refused outside, Store.exchanges_self found⟩
  | number _ offset known =>
      rw [readNumber_eq found offset (le_of_mem_widths known)]
      split
      · next inside => exact ⟨m, .number inside, Store.exchanges_self found⟩
      · next outside => exact ⟨m, .refused outside, Store.exchanges_self found⟩
  | write e offset short => exact serves_writeView found (write_eq found offset short)
  | writeNumber e offset known n =>
      exact serves_writeView found ((writeNumber_eq found offset (le_of_mem_widths known) n).trans
        (by rw [Decoder.length_littleEndian]))
  | grow e count => exact serves_growView found count
  | load options loads reaches top =>
      cases reaches.found.symm.trans found
      exact serves_load reaches few loads top
  | store options stores takes reaches top =>
      cases reaches.found.symm.trans found
      exact serves_store reaches few stores takes top
  | memoryGrow options known reaches top =>
      cases reaches.found.symm.trans found
      exact serves_memoryGrow reaches few known top

/-- Turns in any order, each of which starts with the store that the one before has left. -/
inductive Turns (view : MemoryView) :
    Store → List (MemoryRequest × MemoryAnswer) → Store → Prop
  | nil (s : Store) : view.Turns s [] s
  | cons {s s' s'' : Store} {request : MemoryRequest} {answer : MemoryAnswer}
      {history : List (MemoryRequest × MemoryAnswer)} (first : view.Uses s request answer s')
      (rest : view.Turns s' history s'') : view.Turns s ((request, answer) :: history) s''

/-- What the embedder and code did with a memory is what was done with that memory alone. -/
theorem Turns.serves {s s' : Store} {history : List (MemoryRequest × MemoryAnswer)} {m : MemInst}
    (turns : view.Turns s history s') (found : s.memories[view.addr]? = some m)
    (few : m.pages ≤ maxPages) :
    ∃ m', m.ServesAll history m' ∧ s.Exchanges s' view.addr m' ∧ m'.pages ≤ maxPages := by
  induction turns generalizing m with
  | nil s => exact ⟨m, .nil m, Store.exchanges_self found, few⟩
  | cons first rest ih =>
      obtain ⟨m', serves, exchanged⟩ := first.serves found few
      obtain ⟨m'', all, exchanged', few''⟩ := ih exchanged.memories.here (serves.pages_le few)
      exact ⟨m'', .cons serves all, exchanged.trans exchanged', few''⟩

/-- All turns are turns with one memory, and at the end of any of them the view and code agree
on what the next would find. -/
theorem one_memory {s s' : Store} {history : List (MemoryRequest × MemoryAnswer)} {m : MemInst}
    (found : s.memories[view.addr]? = some m) (few : m.pages ≤ 65535)
    (turns : view.Turns s history s') :
    ∃ m', m.ServesAll history m' ∧ s.Exchanges s' view.addr m' ∧ view.Agrees s' m' := by
  obtain ⟨m', serves, exchanged, few'⟩ := turns.serves found (Nat.le_trans few (by decide))
  exact ⟨m', serves, exchanged, agrees exchanged.memories.here few'⟩

/-- A memory of eight bytes that may grow, and an instance that has it. -/
def sharedEmbedding : Embedding :=
  (Embedding.new {}).withStore
    { memories := #[⟨⟨⟨0, some 2⟩⟩, ⟨#[1, 2, 3, 4, 5, 6, 7, 8]⟩⟩]
      instances := #[{ memories := #[0] }] }

/-- The embedder writes two of the bytes. -/
def writtenEmbedding : Embedding :=
  after (Embed.writeView ((⟨0⟩ : MemoryView).writeNumber · 2 2 0x1234)) sharedEmbedding

/-- Code is about to load them. -/
def loadingScope : Scope := ⟨[.i32 2], some ⟨some 0, #[], 0⟩, writtenEmbedding.store⟩

/-- Two bytes that the embedder writes are loaded by code; then a read is refused that goes
beyond the end, and the memory grows. -/
theorem one_memory_sharedEmbedding :
    ∃ s' m', (⟨0⟩ : MemoryView).Turns sharedEmbedding.store
        [(.write 2 [0x34, 0x12], .done),
          (.load ⟨.i32, 2, false, .zeroExtended⟩ 2, .operand (some (.i32 0x1234))),
          (.number 7 2, .refused), (.grow 1, .pages 0)] s' ∧
      MemInst.ServesAll ⟨⟨⟨0, some 2⟩⟩, ⟨#[1, 2, 3, 4, 5, 6, 7, 8]⟩⟩
        [(.write 2 [0x34, 0x12], .done),
          (.load ⟨.i32, 2, false, .zeroExtended⟩ 2, .operand (some (.i32 0x1234))),
          (.number 7 2, .refused), (.grow 1, .pages 0)] m' ∧
      MemoryView.Agrees ⟨0⟩ s' m' := by
  have two : 2 ∈ widths := by decide
  have written : (⟨0⟩ : MemoryView).Uses sharedEmbedding.store (.write 2 [0x34, 0x12]) .done
      writtenEmbedding.store := .writeNumber sharedEmbedding 2 two 0x1234
  have loads : (Instruction.plain 0x2f (some (.memory ⟨0, 0⟩))).Loads
      ⟨.i32, 2, false, .zeroExtended⟩ 0 := ⟨rfl, rfl⟩
  have reaches : loadingScope.Reaches 0 ⟨⟨⟨0, some 2⟩⟩, ⟨#[1, 2, 0x34, 0x12, 5, 6, 7, 8]⟩⟩ :=
    ⟨_, ⟨0, rfl, rfl⟩, rfl, rfl⟩
  have loaded : (⟨0⟩ : MemoryView).Uses writtenEmbedding.store
      (.load ⟨.i32, 2, false, .zeroExtended⟩ 2) (.operand (some (.i32 0x1234)))
      writtenEmbedding.store := .load {} loads reaches rfl
  have refused : (⟨0⟩ : MemoryView).Uses writtenEmbedding.store (.number 7 2) .refused
      writtenEmbedding.store := .number _ 7 two
  have grown : (⟨0⟩ : MemoryView).Uses writtenEmbedding.store (.grow 1) (.pages 0) _ :=
    .grow writtenEmbedding 1
  have turns := Turns.cons written (.cons loaded (.cons refused (.cons grown (.nil _))))
  obtain ⟨m', serves, -, agrees⟩ := one_memory rfl (by decide) turns
  exact ⟨_, m', turns, serves, agrees⟩

end MemoryView

end WasmMachine
