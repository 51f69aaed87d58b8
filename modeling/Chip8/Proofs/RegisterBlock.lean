import Chip8.Proofs.Failure

set_option autoImplicit false
set_option relaxedAutoImplicit false

namespace Chip8.Machine

open Instruction (Fits decode)

variable {m m' : Machine} {w : UInt16} {x : Fin 16}

def block (m : Machine) (x : Fin 16) : List UInt8 := m.regs.v.toList.take (x.val + 1)

/-- From the index on there are bytes for the registers up to one of them. -/
structure RoomFor (m : Machine) (x : Fin 16) : Prop where
  size : m.memory.size = memorySize
  low : 0 ≤ m.regs.index
  high : m.regs.index + x.val + 1 ≤ 4096

def indexAfter (m : Machine) (x : Fin 16) : Int :=
  if m.dialect.blockMovesIndex then m.regs.index + x.val + 1 else m.regs.index

private theorem block_length (m : Machine) (x : Fin 16) : (m.block x).length = x.val + 1 :=
  Int.ofNat_inj.mp (length_block m x)

private theorem getElem?_block (m : Machine) {x k : Fin 16} (upTo : k ≤ x) :
    (m.block x)[k.val]? = some (m.v k) := by
  have below : k.val < x.val + 1 := Nat.lt_succ_of_le upTo
  rw [block, List.getElem?_take_of_lt below, Vector.getElem?_toList]
  exact Vector.getElem?_eq_getElem k.isLt

private theorem exists_register {k : Nat} (below : k < (m.block x).length) :
    ∃ j : Fin 16, j ≤ x ∧ k = j.val := by
  rw [block_length] at below
  have bound := x.isLt
  exact ⟨⟨k, by omega⟩, Nat.le_of_lt_succ below, rfl⟩

section Room

variable (room : m.RoomFor x)

include room

theorem RoomFor.within : m.memory.Within m.regs.index (x.val + 1) := by
  have size : (m.memory.size : Int) = 4096 := congrArg Int.ofNat room.size
  have high := room.high
  exact ⟨room.low, by omega, by omega⟩

private theorem RoomFor.of_same {n : Machine} (size : n.memory.size = memorySize)
    (index : n.regs.index = m.regs.index) : n.RoomFor x := by
  refine ⟨size, ?_, ?_⟩
  · rw [index]
    exact room.low
  · rw [index]
    exact room.high

private theorem RoomFor.store_of_found
    (found : ∀ k ≤ x, m.memory.get? (m.regs.index + k.val) = some (m.v k)) :
    m.memory.store m.regs.index (m.block x) = .ok m.memory := by
  refine Memory.store_of_present ?_ fun k below => ?_
  · rw [block_length]
    exact room.within
  · obtain ⟨j, upTo, rfl⟩ := exists_register below
    rw [getElem?_block m upTo]
    exact found j upTo

theorem RoomFor.passBlock_index {n : Machine} (index : n.regs.index = m.regs.index)
    (dialect : n.dialect = m.dialect) : (n.passBlock x).regs.index = m.indexAfter x := by
  have low := room.low
  have high := room.high
  rw [Machine.passBlock_index, indexAfter, index, dialect]
  split
  · omega
  · rfl

end Room

private theorem quiet_memory (quiet : Quiet m m') : m'.memory = m.memory :=
  congrArg (fun n => n.memory) (show m' = _ from quiet)

section Steps

variable (holds : m.Holds w) (room : m.RoomFor (decode w.toNat).x)

include holds room

private theorem step_of_store (fits : Fits "FX55" w.toNat) :
    ∃ m', m.step = (m', .ok (decode w.toNat)) ∧
      m.memory.store m.regs.index (m.block (decode w.toNat).x) = .ok m'.memory ∧
      m'.regs.index = m.indexAfter (decode w.toNat).x ∧ m'.dialect = m.dialect := by
  have op : (decode w.toNat).opcode = .store :=
    (Instruction.opcode_eq_iff (by decide) (by decide) w).mpr fits
  have within : m.memory.Within m.regs.index (m.block (decode w.toNat).x).length := by
    rw [block_length]
    exact room.within
  have stored := Memory.store_eq m.memory m.regs.index (m.block (decode w.toNat).x)
  rw [if_pos within] at stored
  generalize m.memory.withBlock _ _ = memory at stored
  have granted : m.past.memory.store m.past.regs.index
      (m.past.regs.v.toList.take ((decode w.toNat).x.val + 1)) = .ok memory := stored
  have run : (perform (decode w.toNat)).run m.past =
      .ok ⟨⟩ ({ m.past with memory }.passBlock (decode w.toNat).x) := by
    rw [perform, op]
    dsimp only
    rw [EStateM.run_bind, run_ask, granted]
    rfl
  have result := step_of_run (fetch_eq_ok_iff.mpr holds) run
  have kept := (perform_effect run).kept
  have index := room.passBlock_index (n := { m.past with memory }) rfl rfl
  refine ⟨_, result, stored.trans (congrArg Except.ok ?_), index, kept.dialect⟩
  exact (quiet_memory (quiet_passBlock { m.past with memory } _)).symm

private theorem step_of_load (fits : Fits "FX65" w.toNat) :
    ∃ m', m.step = (m', .ok (decode w.toNat)) ∧ m'.memory = m.memory ∧
      m'.regs.index = m.indexAfter (decode w.toNat).x ∧
      ∀ k, if k ≤ (decode w.toNat).x
        then m.memory.get? (m.regs.index + k.val) = some (m'.v k) else m'.v k = m.v k := by
  have op : (decode w.toNat).opcode = .load :=
    (Instruction.opcode_eq_iff (by decide) (by decide) w).mpr fits
  obtain ⟨bytes, read⟩ := Memory.readBlock_of_within room.within
  have granted : m.past.memory.readBlock m.past.regs.index ((decode w.toNat).x.val + 1) =
      .ok bytes := read
  have run : (perform (decode w.toNat)).run m.past =
      .ok ⟨⟩ ((m.past.setBlock bytes).passBlock (decode w.toNat).x) := by
    rw [perform, op]
    dsimp only
    rw [EStateM.run_bind, run_ask, granted]
    rfl
  have total := Memory.length_readBlock read
  have result := step_of_run (fetch_eq_ok_iff.mpr holds) run
  have kept := (perform_effect run).kept
  have index := room.passBlock_index (setBlock_index m.past bytes)
    ((quiet_setBlock m.past bytes).kept (i := decode w.toNat)).dialect
  refine ⟨_, result, kept.memory (by simp [op]) (by simp [op]), index, fun k => ?_⟩
  · have value : (((m.past.setBlock bytes).passBlock (decode w.toNat).x).goOn).v k =
        bytes.getD k.val (m.v k) := (v_passBlock _ _ k).trans (v_setBlock m.past k bytes)
    rw [value, List.getD_eq_getElem?_getD]
    split
    · rename_i upTo
      have inside : k.val < bytes.length := by omega
      rw [← Memory.getElem?_readBlock read inside, List.getElem?_eq_getElem inside]
      rfl
    · rename_i above
      have outside : bytes.length ≤ k.val := by omega
      rw [List.getElem?_eq_none outside]
      rfl

end Steps

/-- Stores in a row, and the blocks that they store. In between anything may happen that leaves
memory, the index and the dialect alone. -/
inductive Saves : Machine → List (List UInt8) → Machine → Prop where
  | done (m : Machine) : Saves m [] m
  | store {m n last : Machine} {w : UInt16} {blocks : List (List UInt8)} (holds : m.Holds w)
      (fits : Fits "FX55" w.toNat) (memory : n.memory = m.step.1.memory)
      (index : n.regs.index = m.step.1.regs.index) (dialect : n.dialect = m.step.1.dialect)
      (rest : Saves n blocks last) : Saves m (m.block (decode w.toNat).x :: blocks) last

/-- Blocks that are stored in a row, with an index that moves, lie side by side, and the index comes
to lie behind them all. -/
theorem Saves.side_by_side {blocks : List (List UInt8)} {last : Machine}
    (saves : m.Saves blocks last) (moves : m.dialect.blockMovesIndex = true)
    (size : m.memory.size = memorySize) (low : 0 ≤ m.regs.index)
    (high : m.regs.index + blocks.flatten.length ≤ 4096) :
    last.regs.index = m.regs.index + blocks.flatten.length ∧
      (∀ k < blocks.flatten.length,
        last.memory.get? (m.regs.index + (k : Nat)) = blocks.flatten[k]?) ∧
      ∀ a, a < m.regs.index ∨ m.regs.index + blocks.flatten.length ≤ a →
        last.memory.get? a = m.memory.get? a := by
  induction saves with
  | done m =>
    refine ⟨(Int.add_zero _).symm, nofun, fun a outside => rfl⟩
  | @store m n last w blocks holds fits memory index dialect rest ih =>
    rw [List.flatten_cons, List.length_append, block_length] at high ⊢
    have room : m.RoomFor (decode w.toNat).x := ⟨size, low, by omega⟩
    obtain ⟨m', result, stored, index', dialect'⟩ := step_of_store holds room fits
    rw [result] at memory index dialect
    rw [index', indexAfter, if_pos moves] at index
    rw [← memory] at stored
    rw [dialect'] at dialect
    obtain ⟨end_, inside, outside⟩ := ih (by rw [dialect, moves])
      ((Memory.size_store stored).trans size) (by omega) (by omega)
    refine ⟨by omega, fun k below => ?_, fun a apart => ?_⟩
    · have length := block_length m (decode w.toNat).x
      by_cases first : k < (m.block (decode w.toNat).x).length
      · rw [List.getElem?_append_left first, ← Memory.get?_store_inside stored first]
        exact outside _ (.inl (by omega))
      · have later := inside (k - (m.block (decode w.toNat).x).length) (by omega)
        rw [List.getElem?_append_right (Nat.le_of_not_lt first), ← later, index]
        congr 1
        omega
    · rw [outside a (by omega)]
      refine Memory.get?_store_outside stored ?_
      rw [block_length]
      omega

/-- A store followed by a load, or a load followed by a store, of as many registers at the same
index brings back what was there, whatever has happened to the other parts of the machine in
between. Both leave the index where it was or right behind the block, and stores in a row whose
index moves fill blocks side by side. -/
theorem stored_registers_load (m : Machine) :
    (∀ w, m.Holds w → m.RoomFor (decode w.toNat).x → Fits "FX55" w.toNat →
      let x := (decode w.toNat).x
      ∃ m', m.step = (m', .ok (decode w.toNat)) ∧ m'.regs.index = m.indexAfter x ∧
        (∀ k ≤ x, m'.memory.get? (m.regs.index + k.val) = some (m.v k)) ∧
        (∀ a, a < m.regs.index ∨ m.regs.index + x.val < a →
          m'.memory.get? a = m.memory.get? a) ∧
        ∀ (n : Machine) (w' : UInt16), n.Holds w' → Fits "FX65" w'.toNat → (decode w'.toNat).x = x →
          n.memory.size = memorySize → n.regs.index = m.regs.index →
          (∀ k ≤ x, n.memory.get? (m.regs.index + k.val) =
            m'.memory.get? (m.regs.index + k.val)) →
          ∃ n', n.step = (n', .ok (decode w'.toNat)) ∧ n'.regs.index = n.indexAfter x ∧
            n'.memory = n.memory ∧ ∀ k, n'.v k = if k ≤ x then m.v k else n.v k) ∧
      (∀ w, m.Holds w → m.RoomFor (decode w.toNat).x → Fits "FX65" w.toNat →
        let x := (decode w.toNat).x
        ∃ m', m.step = (m', .ok (decode w.toNat)) ∧ m'.regs.index = m.indexAfter x ∧
          m'.memory = m.memory ∧
          (∀ k, if k ≤ x then m.memory.get? (m.regs.index + k.val) = some (m'.v k)
            else m'.v k = m.v k) ∧
          ∀ (n : Machine) (w' : UInt16), n.Holds w' → Fits "FX55" w'.toNat →
            (decode w'.toNat).x = x → n.memory = m'.memory → n.regs.index = m.regs.index →
            (∀ k ≤ x, n.v k = m'.v k) →
            ∃ n', n.step = (n', .ok (decode w'.toNat)) ∧ n'.regs.index = n.indexAfter x ∧
              n'.memory = m.memory) ∧
      ∀ blocks last, m.Saves blocks last → m.dialect.blockMovesIndex = true →
        m.memory.size = memorySize → 0 ≤ m.regs.index →
        m.regs.index + blocks.flatten.length ≤ 4096 →
        last.regs.index = m.regs.index + blocks.flatten.length ∧
          (∀ k < blocks.flatten.length,
            last.memory.get? (m.regs.index + (k : Nat)) = blocks.flatten[k]?) ∧
          ∀ a, a < m.regs.index ∨ m.regs.index + blocks.flatten.length ≤ a →
            last.memory.get? a = m.memory.get? a := by
  refine ⟨fun w holds room fits => ?_, fun w holds room fits => ?_,
    fun blocks last saves => saves.side_by_side⟩
  · intro x
    obtain ⟨m', result, stored, index, -⟩ := step_of_store holds room fits
    have length : (m.block (decode w.toNat).x).length = x.val + 1 := block_length m x
    have kept (k : Fin 16) (upTo : k ≤ x) :
        m'.memory.get? (m.regs.index + k.val) = some (m.v k) := by
      have below : k.val < (m.block (decode w.toNat).x).length := by omega
      rw [Memory.get?_store_inside stored below, getElem?_block m upTo]
    refine ⟨m', result, index, kept, fun a outside => ?_, ?_⟩
    · exact Memory.get?_store_outside stored (by omega)
    · intro n w' holds' fits' same size index' untouched
      have room' : n.RoomFor (decode w'.toNat).x := by
        rw [same]
        exact room.of_same size index'
      obtain ⟨n', result', memory, moved, values⟩ := step_of_load holds' room' fits'
      rw [same] at moved values
      refine ⟨n', result', moved, memory, fun k => ?_⟩
      have value := values k
      split at value
      · rename_i upTo
        rw [index', untouched k upTo, kept k upTo] at value
        rw [if_pos upTo]
        exact (Option.some.inj value).symm
      · rename_i above
        rw [if_neg above]
        exact value
  · intro x
    obtain ⟨m', result, memory, index, values⟩ := step_of_load holds room fits
    refine ⟨m', result, index, memory, values, ?_⟩
    intro n w' holds' fits' same memory' index' registers
    rw [memory] at memory'
    have room' : n.RoomFor x := room.of_same (by rw [memory', room.size]) index'
    -- what is stored is what the load has found there
    have present : n.memory.store n.regs.index (n.block x) = .ok n.memory := by
      apply room'.store_of_found
      intro k upTo
      have value := values k
      rw [if_pos upTo] at value
      rw [memory', index', registers k upTo]
      exact value
    rw [← same] at room'
    obtain ⟨n', result', stored, moved, -⟩ := step_of_store holds' room' fits'
    rw [same, present] at stored
    rw [same] at moved
    exact ⟨n', result', moved, (Except.ok.inj stored).symm.trans memory'⟩

/-- A machine about to store two registers. The next word clears one of them, and the one after it
loads both again. -/
def beforeSave : Machine :=
  (loaded [0x60, 0x11, 0x61, 0x22, 0xA3, 0x00, 0xF1, 0x55, 0x60, 0x00, 0xF1, 0x65]).after
    [.step, .step, .step]

/-- A machine about to store two registers and then one more, where memory ends right after them. -/
def beforeSavesAtEnd : Machine :=
  ((fresh .cosmacVip .halt (.empty 2) ⟨#[], 0⟩).load
    [0x60, 0x11, 0x61, 0x22, 0xAF, 0xFD, 0xF1, 0x55, 0xF0, 0x55]).1.after [.step, .step, .step]

def bytesAt (m : Machine) : Option UInt8 × Option UInt8 :=
  (m.memory.get? m.regs.pc, m.memory.get? (m.regs.pc + 1))

private theorem holds_of_bytesAt {high low : UInt8} (bytes : m.bytesAt = (some high, some low))
    (value : w.toNat = high.toNat * 256 + low.toNat) : m.Holds w :=
  ⟨high, low, congrArg Prod.fst bytes, congrArg Prod.snd bytes, value⟩

private theorem jumpTo_same (m : Machine) (pc : Int) :
    (m.jumpTo pc).memory = m.memory ∧ (m.jumpTo pc).regs.index = m.regs.index ∧
      ∀ k, (m.jumpTo pc).v k = m.v k := ⟨rfl, rfl, fun _ => rfl⟩

private theorem after_two_steps (m : Machine) : m.after [.step, .step] = m.step.1.step.1 := rfl

set_option maxRecDepth 20000 in
theorem two_registers_come_back :
    (∃ n', (beforeSave.after [.step, .step]).step = (n', .ok (decode 0xF165)) ∧
      (beforeSave.after [.step, .step]).v 0 = 0 ∧ n'.v 0 = 0x11 ∧ n'.v 1 = 0x22) ∧
      (∃ n', ((beforeSave.after [.step, .step]).step.1.jumpTo 0x206).step =
          (n', .ok (decode 0xF155)) ∧
        n'.memory = (beforeSave.after [.step, .step]).memory) ∧
      (beforeSavesAtEnd.after [.step, .step]).regs.index = 4096 ∧
      (beforeSavesAtEnd.after [.step, .step]).memory.get? 0xFFF = some 0x11 := by
  have words : Fits "FX55" (0xF155 : UInt16).toNat ∧ Fits "FX55" (0xF055 : UInt16).toNat ∧
      Fits "FX65" (0xF165 : UInt16).toNat ∧ (decode (0xF155 : UInt16).toNat).x = 1 ∧
      (decode (0xF165 : UInt16).toNat).x = 1 ∧ (decode (0xF055 : UInt16).toNat).x = 0 := by
    decide +kernel
  obtain ⟨store, store', load, two, two', one⟩ := words
  have room {m : Machine} (size : m.memory.size = memorySize) (index : m.regs.index = 0x300) :
      m.RoomFor 1 := ⟨size, by rw [index]; decide, by rw [index]; decide⟩
  refine ⟨?_, ?_, ?_⟩
  · have facts : (beforeSave.bytesAt = (some 0xF1, some 0x55) ∧
          beforeSave.memory.size = memorySize ∧ beforeSave.regs.index = 0x300 ∧
          beforeSave.v 0 = 0x11 ∧ beforeSave.v 1 = 0x22) ∧
        (beforeSave.after [.step, .step]).bytesAt = (some 0xF1, some 0x65) ∧
        (beforeSave.after [.step, .step]).memory.size = memorySize ∧
        (beforeSave.after [.step, .step]).regs.index = 0x300 ∧
        (∀ k ≤ (1 : Fin 16), (beforeSave.after [.step, .step]).memory.get? (0x300 + k.val) =
          beforeSave.step.1.memory.get? (0x300 + k.val)) ∧
        (beforeSave.after [.step, .step]).v 0 = 0 := by
      decide +kernel
    obtain ⟨⟨bytes, size, index, first, second⟩, bytes', size', index', untouched, cleared⟩ := facts
    obtain ⟨m', result, -, -, -, loads⟩ := (stored_registers_load beforeSave).1 0xF155
      (holds_of_bytesAt bytes rfl) (by rw [two]; exact room size index) store
    obtain rfl : beforeSave.step.1 = m' := congrArg Prod.fst result
    rw [two, index] at loads
    obtain ⟨n', result', -, -, values⟩ := loads (beforeSave.after [.step, .step]) 0xF165
      (holds_of_bytesAt bytes' rfl) load two' size' index' untouched
    exact ⟨n', result', cleared, (values 0).trans first, (values 1).trans second⟩
  · have facts : ((beforeSave.after [.step, .step]).bytesAt = (some 0xF1, some 0x65) ∧
          (beforeSave.after [.step, .step]).memory.size = memorySize ∧
          (beforeSave.after [.step, .step]).regs.index = 0x300) ∧
        ((beforeSave.after [.step, .step]).step.1.jumpTo 0x206).bytesAt =
          (some 0xF1, some 0x55) ∧
        ((beforeSave.after [.step, .step]).step.1.jumpTo 0x206).regs.index = 0x300 := by
      decide +kernel
    obtain ⟨⟨bytes, size, index⟩, bytes', index'⟩ := facts
    obtain ⟨m', result, -, -, -, stores⟩ :=
      (stored_registers_load (beforeSave.after [.step, .step])).2.1 0xF165
        (holds_of_bytesAt bytes rfl) (by rw [two']; exact room size index) load
    obtain rfl : (beforeSave.after [.step, .step]).step.1 = m' := congrArg Prod.fst result
    rw [two', index] at stores
    have same := jumpTo_same (beforeSave.after [.step, .step]).step.1 0x206
    obtain ⟨n', result', -, memory⟩ :=
      stores ((beforeSave.after [.step, .step]).step.1.jumpTo 0x206) 0xF155
        (holds_of_bytesAt bytes' rfl) store two same.1 index' fun k _ => same.2.2 k
    exact ⟨n', result', memory⟩
  · have facts : (beforeSavesAtEnd.bytesAt = (some 0xF1, some 0x55) ∧
          beforeSavesAtEnd.dialect.blockMovesIndex = true ∧
          beforeSavesAtEnd.memory.size = memorySize ∧ beforeSavesAtEnd.regs.index = 0xFFD ∧
          beforeSavesAtEnd.block 1 = [0x11, 0x22]) ∧
        beforeSavesAtEnd.step.1.bytesAt = (some 0xF0, some 0x55) ∧
        beforeSavesAtEnd.step.1.block 0 = [0x11] := by
      decide +kernel
    obtain ⟨⟨bytes, moves, size, index, first⟩, bytes', second⟩ := facts
    have saves : beforeSavesAtEnd.Saves
        [beforeSavesAtEnd.block (decode (0xF155 : UInt16).toNat).x,
          beforeSavesAtEnd.step.1.block (decode (0xF055 : UInt16).toNat).x]
        beforeSavesAtEnd.step.1.step.1 :=
      .store (holds_of_bytesAt bytes rfl) store rfl rfl rfl
        (.store (holds_of_bytesAt bytes' rfl) store' rfl rfl rfl (.done _))
    rw [two, one, first, second] at saves
    obtain ⟨index', bytes, -⟩ := (stored_registers_load beforeSavesAtEnd).2.2 _ _ saves moves size
      (by rw [index]; decide) (by rw [index]; decide)
    rw [index] at index' bytes
    rw [after_two_steps]
    exact ⟨index', bytes 2 (by decide)⟩

end Chip8.Machine
