import Chip8.Proofs.Effect

set_option autoImplicit false
set_option relaxedAutoImplicit false

namespace Chip8.Machine

variable {m m' m'' : Machine} {i : Instruction}

section Counter

variable (m : Machine) (x : Fin 16) (b : UInt8)

@[simp] theorem setLogic_pc : (m.setLogic x b).regs.pc = m.regs.pc := by
  simp only [setLogic]
  split <;> rfl

@[simp] theorem passBlock_pc : (m.passBlock x).regs.pc = m.regs.pc := by
  unfold passBlock
  split <;> rfl

@[simp] theorem addToIndex_pc : (m.addToIndex x).regs.pc = m.regs.pc := by
  simp only [addToIndex]
  split <;> rfl

@[simp] theorem setBlock_pc (block : List UInt8) : (m.setBlock block).regs.pc = m.regs.pc := by
  simp only [setBlock]

theorem skipIf_pc (condition : Bool) :
    (m.skipIf condition).regs.pc = if condition then m.regs.pc + 2 else m.regs.pc := by
  cases condition <;> rfl

end Counter

section Index

variable (m : Machine) (x : Fin 16) (b : UInt8)

@[simp] theorem setLogic_index : (m.setLogic x b).regs.index = m.regs.index := by
  simp only [setLogic]
  split <;> rfl

@[simp] theorem skipIf_index (condition : Bool) :
    (m.skipIf condition).regs.index = m.regs.index := by
  cases condition <;> rfl

@[simp] theorem setBlock_index (block : List UInt8) :
    (m.setBlock block).regs.index = m.regs.index := by simp only [setBlock]

theorem passBlock_index : (m.passBlock x).regs.index =
    if m.dialect.blockMovesIndex then (m.regs.index + x.val + 1) % 65536 else m.regs.index := by
  unfold passBlock
  split <;> rfl

@[simp] theorem addToIndex_index :
    (m.addToIndex x).regs.index = (m.regs.index + (m.v x).toNat) % 65536 := by
  simp only [addToIndex]
  split <;> rfl

end Index

section Register

variable (m : Machine) (x k : Fin 16) (b : UInt8)

theorem v_setV : (m.setV x b).v k = if k = x then b else m.v k := by
  by_cases same : k = x
  · rw [if_pos same, same]
    exact Vector.getElem_set_self x.isLt
  · rw [if_neg same]
    exact Vector.getElem_set_ne x.isLt k.isLt fun equal => same (Fin.ext equal.symm)

@[simp] theorem v_skipIf (condition : Bool) : (m.skipIf condition).v k = m.v k := by
  cases condition <;> rfl

@[simp] theorem v_passBlock : (m.passBlock x).v k = m.v k := by
  unfold passBlock
  split <;> rfl

theorem setLogic_of_clears (clears : m.dialect.logicClearsFlag = true) :
    m.setLogic x b = (m.setV x b).setFlag false := if_pos clears

theorem setLogic_of_keeps (keeps : ¬ m.dialect.logicClearsFlag = true) :
    m.setLogic x b = m.setV x b := if_neg keeps

theorem addToIndex_of_sets (sets : m.dialect.indexSetsFlag = true) :
    m.addToIndex x =
      (m.indexed ((m.regs.index + (m.v x).toNat) % 65536)).setFlag
        (0xFFF < m.regs.index + (m.v x).toNat) := if_pos sets

theorem addToIndex_of_keeps (keeps : ¬ m.dialect.indexSetsFlag = true) :
    m.addToIndex x = m.indexed ((m.regs.index + (m.v x).toNat) % 65536) := if_neg keeps

theorem v_setBlock (block : List UInt8) :
    (m.setBlock block).v k = block.getD k.val (m.v k) := by
  simp only [setBlock, v, Registers.get, Fin.getElem_fin, Vector.getElem_ofFn]

end Register

section Await

variable (x : Fin 16)

theorem awaitKey_of_idle (idle : m.waiting = false) :
    m.awaitKey x = { m with waiting := true, pressed := none }.jumpTo (m.regs.pc - 2) := by
  simp [awaitKey, idle, jumpTo]

theorem awaitKey_of_none (waiting : m.waiting = true) (unpressed : m.pressed = none) :
    m.awaitKey x = m.jumpTo (m.regs.pc - 2) := by
  simp [awaitKey, waiting, unpressed]

theorem awaitKey_of_some {key : Fin 16} (waiting : m.waiting = true)
    (pressed : m.pressed = some key) :
    m.awaitKey x =
      { m.setV x (UInt8.ofNat key.val) with pressed := none, waiting := false } := by
  simp [awaitKey, waiting, pressed]

theorem awaitKey_cases (m : Machine) :
    m.awaitKey x = { m with waiting := true, pressed := none }.jumpTo (m.regs.pc - 2) ∨
      (m.waiting = true ∧ m.pressed = none ∧ m.awaitKey x = m.jumpTo (m.regs.pc - 2)) ∨
      ∃ key, m.waiting = true ∧ m.pressed = some key ∧
        m.awaitKey x =
          { m.setV x (UInt8.ofNat key.val) with pressed := none, waiting := false } := by
  cases waiting : m.waiting with
  | false => exact .inl (awaitKey_of_idle x waiting)
  | true =>
    cases pressed : m.pressed with
    | none => exact .inr (.inl ⟨rfl, rfl, awaitKey_of_none x waiting pressed⟩)
    | some key => exact .inr (.inr ⟨key, rfl, rfl, awaitKey_of_some x waiting pressed⟩)

end Await

/-- The second machine is the first with other registers, index and counter. -/
def Quiet (m m' : Machine) : Prop :=
  m' = { m with regs := { m'.regs with stack := m.regs.stack } }

theorem Quiet.trans (first : Quiet m m') (second : Quiet m' m'') : Quiet m m'' := by
  unfold Quiet at *
  rw [second, first]

theorem Quiet.stack (quiet : Quiet m m') : m'.regs.stack = m.regs.stack :=
  congrArg (fun n => n.regs.stack) quiet

private theorem quiet_refl (m : Machine) : Quiet m m := rfl

private theorem quiet_jumpTo (m : Machine) (pc : Int) : Quiet m (m.jumpTo pc) := rfl

private theorem quiet_indexed (m : Machine) (index : Int) : Quiet m (m.indexed index) := rfl

private theorem quiet_setV (m : Machine) (x : Fin 16) (b : UInt8) : Quiet m (m.setV x b) := rfl

private theorem quiet_setFlag (m : Machine) (flag : Bool) : Quiet m (m.setFlag flag) := rfl

theorem quiet_setBlock (m : Machine) (block : List UInt8) : Quiet m (m.setBlock block) := by
  simp only [Quiet, setBlock]

private theorem quiet_skipIf (m : Machine) (condition : Bool) : Quiet m (m.skipIf condition) := by
  unfold skipIf
  split
  · exact quiet_jumpTo m _
  · exact quiet_refl m

private theorem quiet_setLogic (m : Machine) (x : Fin 16) (b : UInt8) :
    Quiet m (m.setLogic x b) := by
  simp only [setLogic]
  split
  · exact (quiet_setV m x b).trans (quiet_setFlag _ _)
  · exact quiet_setV m x b

theorem quiet_passBlock (m : Machine) (x : Fin 16) : Quiet m (m.passBlock x) := by
  unfold passBlock
  split
  · exact quiet_indexed m _
  · exact quiet_refl m

private theorem quiet_addToIndex (m : Machine) (x : Fin 16) : Quiet m (m.addToIndex x) := by
  simp only [addToIndex]
  split
  · exact (quiet_indexed m _).trans (quiet_setFlag _ _)
  · exact quiet_indexed m _

/-- What carrying out an instruction leaves alone. -/
structure Kept (i : Instruction) (m m' : Machine) : Prop where
  dialect : m'.dialect = m.dialect
  policy : m'.policy = m.policy
  keys : m'.keys = m.keys
  halted : m'.halted = m.halted
  fault : m'.fault = m.fault
  cycles : m'.cycles = m.cycles
  size : m'.memory.size = m.memory.size
  memory : i.opcode ≠ .decimal → i.opcode ≠ .store → m'.memory = m.memory
  stack : i.opcode ≠ .call → i.opcode ≠ .ret → m'.regs.stack = m.regs.stack
  timers : i.opcode ≠ .setDelay → i.opcode ≠ .setSound → m'.timers = m.timers
  display : i.opcode ≠ .clearScreen → i.opcode ≠ .draw → m'.display = m.display
  random : i.opcode ≠ .random → m'.random = m.random
  wait : i.opcode ≠ .awaitKey → m'.waiting = m.waiting ∧ m'.pressed = m.pressed

theorem Kept.trans (first : Kept i m m') (second : Kept i m' m'') : Kept i m m'' where
  dialect := second.dialect.trans first.dialect
  policy := second.policy.trans first.policy
  keys := second.keys.trans first.keys
  halted := second.halted.trans first.halted
  fault := second.fault.trans first.fault
  cycles := second.cycles.trans first.cycles
  size := second.size.trans first.size
  memory h₁ h₂ := (second.memory h₁ h₂).trans (first.memory h₁ h₂)
  stack h₁ h₂ := (second.stack h₁ h₂).trans (first.stack h₁ h₂)
  timers h₁ h₂ := (second.timers h₁ h₂).trans (first.timers h₁ h₂)
  display h₁ h₂ := (second.display h₁ h₂).trans (first.display h₁ h₂)
  random h := (second.random h).trans (first.random h)
  wait h := ⟨(second.wait h).1.trans (first.wait h).1, (second.wait h).2.trans (first.wait h).2⟩

theorem Quiet.kept (quiet : Quiet m m') : Kept i m m' := by
  unfold Quiet at quiet
  rw [quiet]
  exact ⟨rfl, rfl, rfl, rfl, rfl, rfl, rfl, fun _ _ => rfl, fun _ _ => rfl, fun _ _ => rfl,
    fun _ _ => rfl, fun _ => rfl, fun _ => ⟨rfl, rfl⟩⟩

theorem Effect.kept (effect : Effect i m m') : Kept i m m' := by
  cases effect with
  | nothing op => exact (quiet_refl m).kept
  | skip op condition => exact (quiet_skipIf m condition).kept
  | jump op b => exact (quiet_jumpTo m _).kept
  | assign op b => exact (quiet_setV m i.x b).kept
  | logic op b => exact (quiet_setLogic m i.x b).kept
  | flagged op b flag => exact ((quiet_setV m i.x b).trans (quiet_setFlag _ flag)).kept
  | index op n small => exact (quiet_indexed m n).kept
  | addIndex op => exact (quiet_addToIndex m i.x).kept
  | load op block read => exact ((quiet_setBlock m block).trans (quiet_passBlock _ i.x)).kept
  | random op =>
    have drawn : Kept i m { m with random := m.random.nextByte.2 } := by
      constructor <;> simp [op]
    exact drawn.trans (quiet_setV _ _ _).kept
  | draw op display hit =>
    have drawn : Kept i m { m with display } := by
      constructor <;> simp [op]
    exact drawn.trans (quiet_setFlag _ hit).kept
  | store op memory stored =>
    have written : Kept i m { m with memory } := by
      constructor <;> simp [op, Memory.size_store stored]
    exact written.trans (quiet_passBlock _ i.x).kept
  | decimal op memory stored => constructor <;> simp [op, Memory.size_store stored]
  | clear op => constructor <;> simp [op]
  | time op timers =>
    simp only [List.mem_cons, List.not_mem_nil, or_false] at op
    rcases op with op | op <;> constructor <;> simp [op]
  | call op stack pushed => constructor <;> simp [op]
  | ret op address stack popped => constructor <;> simp [op]
  | await op =>
    rcases awaitKey_cases i.x m with start | ⟨-, -, stall⟩ | ⟨key, -, -, finish⟩
    · rw [start]
      constructor <;> simp [op, jumpTo]
    · rw [stall]
      exact (quiet_jumpTo m _).kept
    · rw [finish]
      constructor <;> simp [op, setV, Registers.set]

theorem Effect.stack (effect : Effect i m m') :
    (i.opcode = .call ∧
        m.regs.stack.pushAddress (UInt16.ofInt m.regs.pc) = .ok m'.regs.stack) ∨
      (i.opcode = .ret ∧ ∃ address, m.regs.stack.pop = .ok (address, m'.regs.stack) ∧
        m'.regs.pc = address.toNat) ∨
      m'.regs.stack = m.regs.stack := by
  cases effect with
  | call op stack pushed => exact .inl ⟨op, pushed⟩
  | ret op address stack popped => exact .inr (.inl ⟨op, address, popped, rfl⟩)
  | skip op condition => exact .inr (.inr (quiet_skipIf m condition).stack)
  | logic op b => exact .inr (.inr (quiet_setLogic m i.x b).stack)
  | addIndex op => exact .inr (.inr (quiet_addToIndex m i.x).stack)
  | store op memory stored => exact .inr (.inr (quiet_passBlock _ i.x).stack)
  | load op block read =>
    exact .inr (.inr ((quiet_setBlock m block).trans (quiet_passBlock _ i.x)).stack)
  | await op =>
    rcases awaitKey_cases i.x m with start | ⟨-, -, stall⟩ | ⟨key, -, -, finish⟩
    · rw [start]
      exact .inr (.inr rfl)
    · rw [stall]
      exact .inr (.inr rfl)
    · rw [finish]
      exact .inr (.inr rfl)
  | _ => exact .inr (.inr rfl)

/-- A step leaves the stack alone, pushes on it or pops from it. -/
theorem stack_step (m : Machine) :
    m.step.1.regs.stack = m.regs.stack ∨
      (∃ address, m.regs.stack.pushAddress address = .ok m.step.1.regs.stack) ∨
      ∃ address, m.regs.stack.pop = .ok (address, m.step.1.regs.stack) := by
  cases m.stepped with
  | unfetched cause fetched result =>
    rw [result]
    exact .inl rfl
  | refused word cause fetched run result =>
    rw [result]
    exact .inl rfl
  | done word after fetched run result =>
    rw [result]
    rcases (perform_effect run).stack with ⟨-, pushed⟩ | ⟨-, address, popped, -⟩ | same
    · exact .inr (.inl ⟨_, pushed⟩)
    · exact .inr (.inr ⟨address, popped⟩)
    · exact .inl same

/-- The counter stays, skips a word, goes back to wait, or goes near the address in the word or to
one on the stack. -/
theorem Effect.pc (effect : Effect i m m') :
    m'.regs.pc = m.regs.pc ∨ m'.regs.pc = m.regs.pc + 2 ∨ m'.regs.pc = m.regs.pc - 2 ∨
      (∃ b : UInt8, m'.regs.pc = i.nnn + b.toNat) ∨
      ∃ a ∈ m.regs.stack.slots, m'.regs.pc = a.toNat := by
  cases effect with
  | skip op condition =>
    rw [skipIf_pc]
    cases condition
    · exact .inl rfl
    · exact .inr (.inl rfl)
  | jump op b => exact .inr (.inr (.inr (.inl ⟨b, rfl⟩)))
  | call op stack pushed => exact .inr (.inr (.inr (.inl ⟨0, (Int.add_zero _).symm⟩)))
  | ret op address stack popped =>
    obtain ⟨-, -, top⟩ := CallStack.pop_ok popped
    exact .inr (.inr (.inr (.inr ⟨address, Array.mem_of_getElem? top, rfl⟩)))
  | await op =>
    rcases awaitKey_cases i.x m with start | ⟨-, -, stall⟩ | ⟨key, -, -, finish⟩
    · rw [start]
      exact .inr (.inr (.inl rfl))
    · rw [stall]
      exact .inr (.inr (.inl rfl))
    · rw [finish]
      exact .inl rfl
  | logic op b => exact .inl (setLogic_pc m i.x b)
  | addIndex op => exact .inl (addToIndex_pc m i.x)
  | store op memory stored => exact .inl (passBlock_pc _ i.x)
  | load op block read => exact .inl ((passBlock_pc _ i.x).trans (setBlock_pc m block))
  | _ => exact .inl rfl

private theorem index_of_block {n : Machine} (x : Fin 16) (same : n.regs.index = m.regs.index) :
    (n.passBlock x).regs.index = m.regs.index ∨
      (0 ≤ (n.passBlock x).regs.index ∧ (n.passBlock x).regs.index ≤ 0xFFFF) := by
  rw [passBlock_index]
  split
  · right
    omega
  · exact .inl same

theorem Effect.index_range (effect : Effect i m m') :
    m'.regs.index = m.regs.index ∨ (0 ≤ m'.regs.index ∧ m'.regs.index ≤ 0xFFFF) := by
  cases effect with
  | index op n small =>
    right
    change (0 : Int) ≤ n ∧ (n : Int) ≤ 0xFFFF
    omega
  | addIndex op =>
    right
    rw [addToIndex_index]
    omega
  | store op memory stored => exact index_of_block i.x rfl
  | load op block read => exact index_of_block i.x (setBlock_index m block)
  | await op =>
    left
    rcases awaitKey_cases i.x m with start | ⟨-, -, stall⟩ | ⟨key, -, -, finish⟩
    · rw [start]
      rfl
    · rw [stall]
      rfl
    · rw [finish]
      rfl
  | skip op condition => exact .inl (skipIf_index m condition)
  | logic op b => exact .inl (setLogic_index m i.x b)
  | _ => exact .inl rfl

end Chip8.Machine
