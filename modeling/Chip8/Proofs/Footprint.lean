import Chip8.Proofs.Failure

/-!
The frame of a step: which parts of the state each word may write. Memory is taken byte by byte, the
registers one by one and the stack slot by slot, so that what a word may write is listed as exactly
as the patterns of the words allow.
-/

set_option autoImplicit false
set_option relaxedAutoImplicit false

namespace Chip8.Machine

open Instruction (Fits)

variable {m m' : Machine} {w : UInt16}

inductive Part where
  | byte (address : Int)
  | register (k : Fin 16)
  | index
  | slot (k : Nat)
  | level
  | delay
  | sound
  | picture
  | dirty
  | pad
  | waiting
  | pressed
  | random

def Part.Same (m m' : Machine) : Part → Prop
  | byte a => m'.memory.get? a = m.memory.get? a
  | register k => m'.v k = m.v k
  | index => m'.regs.index = m.regs.index
  | slot k => m'.regs.stack.slots[k]? = m.regs.stack.slots[k]?
  | level => m'.regs.stack.sp = m.regs.stack.sp
  | delay => m'.timers.delay = m.timers.delay
  | sound => m'.timers.sound = m.timers.sound
  | picture => m'.display.cells = m.display.cells
  | dirty => m'.display.dirty = m.display.dirty
  | pad => m'.keys = m.keys
  | waiting => m'.waiting = m.waiting
  | pressed => m'.pressed = m.pressed
  | random => m'.random = m.random

def FitsOne (patterns : List String) (w : UInt16) : Prop := ∃ p ∈ patterns, Fits p w.toNat

instance (patterns : List String) (w : UInt16) : Decidable (FitsOne patterns w) :=
  inferInstanceAs (Decidable (∃ p ∈ patterns, Fits p w.toNat))

def named (w : UInt16) : Fin 16 := (Instruction.decode w.toNat).x

/-- What a machine may write when it carries out a word. -/
inductive Writes (m : Machine) (w : UInt16) : Part → Prop where
  | decimal {a : Int} (fits : FitsOne ["FX33"] w) (low : m.regs.index ≤ a)
      (high : a ≤ m.regs.index + 2) : Writes m w (.byte a)
  | store {a : Int} (fits : FitsOne ["FX55"] w) (low : m.regs.index ≤ a)
      (high : a ≤ m.regs.index + (named w).val) : Writes m w (.byte a)
  | result (fits : FitsOne ["6XNN", "7XNN", "8XY0", "8XY1", "8XY2", "8XY3", "8XY4", "8XY5", "8XY6",
      "8XY7", "8XYE", "CXNN", "FX07"] w) : Writes m w (.register (named w))
  | key (fits : FitsOne ["FX0A"] w) (waiting : m.waiting = true)
      (given : m.pressed.isSome = true) : Writes m w (.register (named w))
  | flag (fits : FitsOne ["8XY4", "8XY5", "8XY6", "8XY7", "8XYE", "DXYN"] w) :
      Writes m w (.register Registers.flag)
  | cleared (fits : FitsOne ["8XY1", "8XY2", "8XY3"] w)
      (clears : m.dialect.logicClearsFlag = true) : Writes m w (.register Registers.flag)
  | overflow (fits : FitsOne ["FX1E"] w) (sets : m.dialect.indexSetsFlag = true) :
      Writes m w (.register Registers.flag)
  | load {k : Fin 16} (fits : FitsOne ["FX65"] w) (upTo : k ≤ named w) : Writes m w (.register k)
  | index (fits : FitsOne ["ANNN", "FX1E", "FX29"] w) : Writes m w .index
  | passed (fits : FitsOne ["FX55", "FX65"] w) (moves : m.dialect.blockMovesIndex = true) :
      Writes m w .index
  | slot (fits : FitsOne ["2NNN"] w) : Writes m w (.slot m.regs.stack.sp)
  | level (fits : FitsOne ["2NNN", "00EE"] w) : Writes m w .level
  | delay (fits : FitsOne ["FX15"] w) : Writes m w .delay
  | sound (fits : FitsOne ["FX18"] w) : Writes m w .sound
  | picture (fits : FitsOne ["00E0", "DXYN"] w) : Writes m w .picture
  | dirty (fits : FitsOne ["00E0", "DXYN"] w) : Writes m w .dirty
  | waiting (fits : FitsOne ["FX0A"] w) : Writes m w .waiting
  | pressed (fits : FitsOne ["FX0A"] w) : Writes m w .pressed
  | random (fits : FitsOne ["CXNN"] w) : Writes m w .random

theorem fitsOne_of_mem {ops : List Opcode} {patterns : List String}
    (op : (Instruction.decode w.toNat).opcode ∈ ops)
    (listed : ∀ o ∈ ops, o ≠ .unknown ∧ o.pattern ∈ patterns) : FitsOne patterns w := by
  obtain ⟨known, pattern⟩ := listed _ op
  exact ⟨_, pattern, Instruction.fits_of_known known⟩

private theorem fitsOne_of_eq {o : Opcode} {patterns : List String}
    (op : (Instruction.decode w.toNat).opcode = o)
    (listed : o ≠ .unknown ∧ o.pattern ∈ patterns) : FitsOne patterns w := by
  refine fitsOne_of_mem (List.mem_singleton.mpr op) fun o' mem => ?_
  obtain rfl := List.mem_singleton.mp mem
  exact listed

private theorem register_of_setV (m : Machine) (x k : Fin 16) (b : UInt8) :
    (m.setV x b).v k = m.v k ∨ k = x := by
  by_cases same : k = x
  · exact .inr same
  · exact .inl ((v_setV m x k b).trans (if_neg same))

section Effect

variable (effect : Effect (.decode w.toNat) m.past m')

include effect

private theorem byte_of_effect (a : Int) : Part.Same m m' (.byte a) ∨ Writes m w (.byte a) := by
  by_cases decimal : (Instruction.decode w.toNat).opcode = .decimal
  · by_cases inside : m.regs.index ≤ a ∧ a ≤ m.regs.index + 2
    · exact .inr (.decimal (fitsOne_of_eq decimal (by decide)) inside.1 inside.2)
    · cases effect with
      | decimal op memory stored =>
        refine .inl (Memory.get?_store_outside stored ?_)
        change a < m.regs.index ∨ m.regs.index + 3 ≤ a
        omega
      | _ => simp_all
  by_cases store : (Instruction.decode w.toNat).opcode = .store
  · by_cases inside : m.regs.index ≤ a ∧ a ≤ m.regs.index + (named w).val
    · exact .inr (.store (fitsOne_of_eq store (by decide)) inside.1 inside.2)
    · cases effect with
      | store op memory stored =>
        have same := congrArg Machine.memory (quiet_passBlock { m.past with memory } (named w))
        refine .inl ((congrArg (Memory.get? · a) same).trans ?_)
        refine Memory.get?_store_outside stored ?_
        rw [length_block]
        change a < m.regs.index ∨ m.regs.index + ((named w).val + 1) ≤ a
        omega
      | _ => simp_all
  · exact .inl (congrArg (Memory.get? · a) (effect.kept.memory decimal store))

private theorem register_of_effect (k : Fin 16) :
    Part.Same m m' (.register k) ∨ Writes m w (.register k) := by
  cases effect with
  | nothing op => exact .inl rfl
  | skip op condition => exact .inl (v_skipIf m.past k condition)
  | jump op b => exact .inl rfl
  | index op n small => exact .inl rfl
  | clear op => exact .inl rfl
  | time op timers => exact .inl rfl
  | decimal op memory stored => exact .inl rfl
  | call op stack pushed => exact .inl rfl
  | ret op address stack popped => exact .inl rfl
  | store op memory stored => exact .inl (v_passBlock _ (named w) k)
  | assign op b =>
    rcases register_of_setV m.past (named w) k b with same | rfl
    · exact .inl same
    · exact .inr (.result (fitsOne_of_mem op (by decide)))
  | random op =>
    let drawn : Machine := { m.past with random := m.random.nextByte.2 }
    rcases register_of_setV drawn (named w) k _ with same | rfl
    · exact .inl same
    · exact .inr (.result (fitsOne_of_eq op (by decide)))
  | flagged op b flag =>
    rcases register_of_setV (m.past.setV (named w) b) Registers.flag k _ with same | rfl
    · rcases register_of_setV m.past (named w) k b with same' | rfl
      · exact .inl (same.trans same')
      · exact .inr (.result (fitsOne_of_mem op (by decide)))
    · exact .inr (.flag (fitsOne_of_mem op (by decide)))
  | draw op display hit =>
    rcases register_of_setV { m.past with display } Registers.flag k _ with same | rfl
    · exact .inl same
    · exact .inr (.flag (fitsOne_of_eq op (by decide)))
  | logic op b =>
    change (m.past.setLogic (named w) b).v k = m.v k ∨ _
    rcases register_of_setV m.past (named w) k b with same | rfl
    · by_cases clears : m.dialect.logicClearsFlag = true
      · rw [setLogic_of_clears m.past (named w) b clears]
        rcases register_of_setV (m.past.setV (named w) b) Registers.flag k _ with same' | rfl
        · exact .inl (same'.trans same)
        · exact .inr (.cleared (fitsOne_of_mem op (by decide)) clears)
      · rw [setLogic_of_keeps m.past (named w) b clears]
        exact .inl same
    · exact .inr (.result (fitsOne_of_mem op (by decide)))
  | addIndex op =>
    change (m.past.addToIndex (named w)).v k = m.v k ∨ _
    by_cases sets : m.dialect.indexSetsFlag = true
    · rw [addToIndex_of_sets m.past (named w) sets]
      rcases register_of_setV (m.past.indexed _) Registers.flag k _ with same | rfl
      · exact .inl same
      · exact .inr (.overflow (fitsOne_of_eq op (by decide)) sets)
    · rw [addToIndex_of_keeps m.past (named w) sets]
      exact .inl rfl
  | load op block read =>
    by_cases upTo : k ≤ named w
    · exact .inr (.load (fitsOne_of_eq op (by decide)) upTo)
    · left
      have length : (block.length : Int) = (named w).val + 1 := Memory.length_readBlock read
      have beyond : block.length ≤ k.val := by
        have above : (named w).val < k.val := Nat.lt_of_not_le upTo
        omega
      change ((m.past.setBlock block).passBlock (named w)).v k = m.v k
      rw [v_passBlock, v_setBlock, List.getD_eq_getElem?_getD, List.getElem?_eq_none beyond]
      rfl
  | await op =>
    change (m.past.awaitKey (named w)).v k = m.v k ∨ _
    rcases awaitKey_cases (named w) m.past with
      start | ⟨-, -, stall⟩ | ⟨key, waiting, given, finish⟩
    · rw [start]
      exact .inl rfl
    · rw [stall]
      exact .inl rfl
    · rw [finish]
      rcases register_of_setV m.past (named w) k (UInt8.ofNat key.val) with same | rfl
      · exact .inl same
      · exact .inr (.key (fitsOne_of_eq op (by decide)) waiting (congrArg Option.isSome given))

private theorem index_of_effect : Part.Same m m' .index ∨ Writes m w .index := by
  have passed (n : Machine) (x : Fin 16) (same : n.regs.index = m.regs.index)
      (dialect : n.dialect = m.dialect)
      (op : (Instruction.decode w.toNat).opcode ∈ [.store, .load]) :
      (n.passBlock x).regs.index = m.regs.index ∨ Writes m w .index := by
    rw [passBlock_index, dialect]
    split
    · rename_i moves
      exact .inr (.passed (fitsOne_of_mem op (by decide)) moves)
    · exact .inl same
  cases effect with
  | index op n small => exact .inr (.index (fitsOne_of_mem op (by decide)))
  | addIndex op => exact .inr (.index (fitsOne_of_eq op (by decide)))
  | store op memory stored => exact passed _ _ rfl rfl (by simp [op])
  | load op block read =>
    have dialect := congrArg Machine.dialect (quiet_setBlock m.past block)
    exact passed _ _ (setBlock_index m.past block) dialect (by simp [op])
  | skip op condition => exact .inl (skipIf_index m.past condition)
  | logic op b => exact .inl (setLogic_index m.past _ b)
  | await op =>
    left
    rcases awaitKey_cases (named w) m.past with start | ⟨-, -, stall⟩ | ⟨key, -, -, finish⟩
    · exact congrArg (fun n => n.regs.index) start
    · exact congrArg (fun n => n.regs.index) stall
    · exact congrArg (fun n => n.regs.index) finish
  | _ => exact .inl rfl

theorem stack_of_effect (k : Nat) :
    (Part.Same m m' (.slot k) ∨ Writes m w (.slot k)) ∧
      (Part.Same m m' .level ∨ Writes m w .level) := by
  rcases effect.stack with ⟨call, pushed⟩ | ⟨ret, address, popped, -⟩ | same
  · refine ⟨?_, .inr (.level (fitsOne_of_eq call (by decide)))⟩
    obtain ⟨room, slots, -⟩ := CallStack.pushAddress_ok pushed
    by_cases here : k = m.regs.stack.sp
    · rw [here]
      exact .inr (.slot (fitsOne_of_eq call (by decide)))
    · left
      change m'.regs.stack.slots[k]? = m.regs.stack.slots[k]?
      rw [slots]
      exact Array.getElem?_set_ne room fun equal => here equal.symm
  · refine ⟨.inl ?_, .inr (.level (fitsOne_of_eq ret (by decide)))⟩
    obtain ⟨slots, -, -⟩ := CallStack.pop_ok popped
    exact congrArg (·[k]?) slots
  · exact ⟨.inl (congrArg (fun s : CallStack => s.slots[k]?) same),
      .inl (congrArg CallStack.sp same)⟩

end Effect

private theorem timers_of_run (run : (perform (.decode w.toNat)).run m.past = .ok ⟨⟩ m') :
    (Part.Same m m' .delay ∨ Writes m w .delay) ∧
      (Part.Same m m' .sound ∨ Writes m w .sound) := by
  by_cases delay : (Instruction.decode w.toNat).opcode = .setDelay
  · refine ⟨.inr (.delay (fitsOne_of_eq delay (by decide))), .inl ?_⟩
    rw [perform, delay] at run
    cases run
    rfl
  by_cases sound : (Instruction.decode w.toNat).opcode = .setSound
  · refine ⟨.inl ?_, .inr (.sound (fitsOne_of_eq sound (by decide)))⟩
    rw [perform, sound] at run
    cases run
    rfl
  · have same := (perform_effect run).kept.timers delay sound
    exact ⟨.inl (congrArg Timers.delay same), .inl (congrArg Timers.sound same)⟩

private theorem display_of_effect (effect : Effect (.decode w.toNat) m.past m') :
    (Part.Same m m' .picture ∨ Writes m w .picture) ∧
      (Part.Same m m' .dirty ∨ Writes m w .dirty) := by
  by_cases op : (Instruction.decode w.toNat).opcode ∈ [.clearScreen, .draw]
  · exact ⟨.inr (.picture (fitsOne_of_mem op (by decide))),
      .inr (.dirty (fitsOne_of_mem op (by decide)))⟩
  · rw [List.mem_pair, not_or] at op
    have same := effect.kept.display op.1 op.2
    exact ⟨.inl (congrArg Display.cells same), .inl (congrArg Display.dirty same)⟩

private theorem wait_of_effect (effect : Effect (.decode w.toNat) m.past m') :
    (Part.Same m m' .waiting ∨ Writes m w .waiting) ∧
      (Part.Same m m' .pressed ∨ Writes m w .pressed) := by
  by_cases op : (Instruction.decode w.toNat).opcode = .awaitKey
  · exact ⟨.inr (.waiting (fitsOne_of_eq op (by decide))),
      .inr (.pressed (fitsOne_of_eq op (by decide)))⟩
  · obtain ⟨waiting, pressed⟩ := effect.kept.wait op
    exact ⟨.inl waiting, .inl pressed⟩

private theorem random_of_effect (effect : Effect (.decode w.toNat) m.past m') :
    Part.Same m m' .random ∨ Writes m w .random := by
  by_cases op : (Instruction.decode w.toNat).opcode = .random
  · exact .inr (.random (fitsOne_of_eq op (by decide)))
  · exact .inl (effect.kept.random op)

/-- An instruction leaves every part as it was that its word may not write. -/
theorem part_of_run (run : (perform (.decode w.toNat)).run m.past = .ok ⟨⟩ m') (part : Part) :
    part.Same m m' ∨ Writes m w part := by
  have effect := perform_effect run
  cases part with
  | byte a => exact byte_of_effect effect a
  | register k => exact register_of_effect effect k
  | index => exact index_of_effect effect
  | slot k => exact (stack_of_effect effect k).1
  | level => exact (stack_of_effect effect 0).2
  | delay => exact (timers_of_run run).1
  | sound => exact (timers_of_run run).2
  | picture => exact (display_of_effect effect).1
  | dirty => exact (display_of_effect effect).2
  | pad => exact .inl effect.kept.keys
  | waiting => exact (wait_of_effect effect).1
  | pressed => exact (wait_of_effect effect).2
  | random => exact random_of_effect effect

private theorem not_mem_of_mem {o : Opcode} {ops others : List Opcode} (mem : o ∈ ops)
    (apart : ∀ o ∈ ops, o ∉ others) : o ∉ others := apart o mem

private theorem moves_of_effect {i : Instruction} (effect : Effect i m m')
    (op : i.opcode ∈ [.sys, .unknown, .jump, .jumpOffset, .skipIfByte, .skipUnlessByte,
      .skipIfEqual, .skipUnlessEqual, .skipIfKey, .skipUnlessKey]) :
    m' = m.jumpTo m'.regs.pc := by
  cases effect with
  | nothing => rfl
  | jump => rfl
  | skip _ condition => cases condition <;> rfl
  | assign other => exact absurd op (not_mem_of_mem other (by decide))
  | logic other => exact absurd op (not_mem_of_mem other (by decide))
  | flagged other => exact absurd op (not_mem_of_mem other (by decide))
  | index other => exact absurd op (not_mem_of_mem other (by decide))
  | time other => exact absurd op (not_mem_of_mem other (by decide))
  | _ => simp_all

private theorem stack_ext {stack stack' : CallStack}
    (slots : ∀ k : Nat, stack'.slots[k]? = stack.slots[k]?)
    (level : stack'.sp = stack.sp) : stack' = stack := by
  obtain ⟨cells, sp, bound⟩ := stack
  obtain ⟨cells', sp', bound'⟩ := stack'
  obtain rfl : cells' = cells := Array.ext_getElem? slots
  obtain rfl : sp' = sp := level
  rfl

private theorem registers_ext (registers : ∀ k, m'.v k = m.v k) : m'.regs.v = m.regs.v := by
  apply Vector.ext
  intro k inside
  exact registers ⟨k, inside⟩

/-- There is no more to a machine than its parts, its settings, its counter and its account. -/
theorem eq_of_parts (same : ∀ part : Part, part.Same m m') (dialect : m'.dialect = m.dialect)
    (policy : m'.policy = m.policy) :
    m' = { m with
      regs := { m.regs with pc := m'.regs.pc }
      halted := m'.halted
      fault := m'.fault
      cycles := m'.cycles } := by
  have memory : m'.memory = m.memory := Memory.ext_get? fun a => same (.byte a)
  have stack : m'.regs.stack = m.regs.stack :=
    stack_ext (fun k => same (.slot k)) (same .level)
  have v : m'.regs.v = m.regs.v := registers_ext fun k => same (.register k)
  have index : m'.regs.index = m.regs.index := same .index
  have regs : m'.regs = { m.regs with pc := m'.regs.pc } := by
    dsimp only
    rw [← stack, ← v, ← index]
  have timers : m'.timers = m.timers := congrArg₂ Timers.mk (same .delay) (same .sound)
  have display : m'.display = m.display :=
    congrArg₂ Display.mk (same .picture) (same .dirty)
  have pad : m'.keys = m.keys := same .pad
  have random : m'.random = m.random := same .random
  have waiting : m'.waiting = m.waiting := same .waiting
  have pressed : m'.pressed = m.pressed := same .pressed
  rw [← regs, ← memory, ← timers, ← display, ← pad, ← random, ← waiting, ← pressed, ← dialect,
    ← policy]

/-- A step that succeeds counts a cycle, clears the account of a fault, keeps the settings and the
sizes, and may write only what is listed for the word at the counter. What is listed leaves nothing
out: where no part is written, the machine is the same but for its counter and its account. -/
theorem step_writes_listed {i : Instruction} (result : m.step = (m', .ok i)) :
    (m.Holds i.word ∧ i = .decode i.word.toNat) ∧
      (m'.cycles = m.cycles + 1 ∧ m'.halted = false ∧ m'.fault = none) ∧
      (m'.dialect = m.dialect ∧ m'.policy = m.policy ∧ m'.memory.size = m.memory.size ∧
        m'.regs.stack.depth = m.regs.stack.depth) ∧
      (∀ part : Part, ¬ Writes m i.word part → part.Same m m') ∧
      ((∀ part : Part, part.Same m m') → m' = { m with
        regs := { m.regs with pc := m'.regs.pc }
        halted := false
        fault := none
        cycles := m.cycles + 1 }) ∧
      (i.opcode ∈ [.sys, .unknown, .jump, .jumpOffset, .skipIfByte, .skipUnlessByte, .skipIfEqual,
          .skipUnlessEqual, .skipIfKey, .skipUnlessKey] →
        m' = { m with
          regs := { m.regs with pc := m'.regs.pc }
          halted := false
          fault := none
          cycles := m.cycles + 1 }) := by
  cases m.stepped with
  | unfetched cause fetched stopped =>
    rw [stopped] at result
    cases result
  | refused word cause fetched run stopped =>
    rw [stopped] at result
    cases result
  | done word after fetched run carried =>
    have depth := depth_step m
    rw [carried] at result depth
    cases result
    have effect := perform_effect run
    have kept := effect.kept
    have holds : m.Holds word := fetch_eq_ok_iff.mp fetched
    have cycles : after.cycles + 1 = m.cycles + 1 := congrArg (· + 1) kept.cycles
    rw [Instruction.word_decode]
    refine ⟨⟨holds, rfl⟩, ⟨cycles, rfl, rfl⟩, ⟨kept.dialect, kept.policy, kept.size, depth⟩,
      fun part unlisted => ?_, fun same => ?_, fun op => ?_⟩
    · have same := (part_of_run run part).resolve_right unlisted
      cases part <;> exact same
    · have whole := eq_of_parts same kept.dialect kept.policy
      rw [← cycles]
      exact whole
    · have moved := moves_of_effect effect op
      rw [← cycles, moved]
      rfl

/-- A machine whose next word stores the first two registers over that word. -/
def beforeSelfStore : Machine :=
  (loaded [0x60, 0x2A, 0xA2, 0x04, 0xF1, 0x55]).after [.step, .step]

set_option maxRecDepth 20000 in
theorem self_store_writes_itself :
    beforeSelfStore.step.2 = .ok (.decode 0xF155) ∧
      beforeSelfStore.step.1.memory.get? 0x204 = some 0x2A ∧
      beforeSelfStore.step.1.memory.get? 0x205 = some 0x00 ∧
      (∀ a : Int, a < 0x204 ∨ 0x205 < a →
        beforeSelfStore.step.1.memory.get? a = beforeSelfStore.memory.get? a) ∧
      beforeSelfStore.step.1.regs.index = 0x204 ∧
      beforeSelfStore.step.1.random = beforeSelfStore.random := by
  have result : beforeSelfStore.step = (beforeSelfStore.step.1, .ok (.decode 0xF155)) := rfl
  obtain ⟨-, -, -, kept, -⟩ := step_writes_listed result
  obtain ⟨index, stays, first, second⟩ : beforeSelfStore.regs.index = 0x204 ∧
      beforeSelfStore.dialect.blockMovesIndex = false ∧
      beforeSelfStore.step.1.memory.get? 0x204 = some 0x2A ∧
      beforeSelfStore.step.1.memory.get? 0x205 = some 0x00 := by decide +kernel
  have outside (a : Int) (beyond : a < 0x204 ∨ 0x205 < a) :
      ¬ Writes beforeSelfStore 0xF155 (.byte a) := by
    intro writes
    cases writes with
    | decimal fits low high => exact absurd fits (by decide +kernel)
    | store fits low high =>
      rw [index] at low high
      change a ≤ (0x204 : Int) + 1 at high
      omega
  have unmoved : ¬ Writes beforeSelfStore 0xF155 .index := by
    intro writes
    cases writes with
    | index fits => exact absurd fits (by decide +kernel)
    | passed fits moves =>
      rw [stays] at moves
      cases moves
  have undrawn : ¬ Writes beforeSelfStore 0xF155 .random := by
    intro writes
    cases writes with
    | random fits => exact absurd fits (by decide +kernel)
  exact ⟨congrArg Prod.snd result, first, second,
    fun a beyond => kept (.byte a) (outside a beyond), (kept .index unmoved).trans index,
    kept .random undrawn⟩

end Chip8.Machine
