import Chip8.Proofs.Display
import Chip8.Proofs.Frame
import Chip8.Proofs.Run

/-!
What holds of every machine that settings can lead to. The bounds lean on one another: a return
address fits its slot since fetching bounds the counter, and the counter after a return is bounded
by what was pushed. A machine that waits for a key stands on the instruction that waits.
-/

set_option autoImplicit false
set_option relaxedAutoImplicit false

namespace Chip8.Machine

variable {m m' : Machine}

structure Sound (m : Machine) : Prop where
  size : m.memory.size = memorySize
  index : 0 ≤ m.regs.index ∧ m.regs.index ≤ 0xFFFF
  pc : 0 ≤ m.regs.pc ∧ m.regs.pc ≤ 0x10FE
  slots : ∀ a ∈ m.regs.stack.slots, a.toNat ≤ 4096
  frames : ∀ a ∈ m.regs.stack.frames, 2 ≤ a.toNat
  recorded : m.pressed.isSome = true → m.waiting = true
  waits : m.waiting = true →
    m.halted = false ∧ ∃ i, m.current = some i ∧ i.opcode = .awaitKey
  halts : m.halted = m.fault.isSome
  blames : ∀ fault, m.fault = some fault → fault.pc = some m.regs.pc

private theorem sound_of_idle (size : m.memory.size = memorySize) (index : m.regs.index = 0)
    (pc : m.regs.pc = programStart) {depth : Nat} (stack : m.regs.stack = .empty depth)
    (waiting : m.waiting = false) (pressed : m.pressed = none) (halted : m.halted = false)
    (fault : m.fault = none) : m.Sound where
  size := size
  index := by
    rw [index]
    decide
  pc := by
    rw [pc]
    decide
  slots a mem := by
    rw [stack] at mem
    rw [Array.eq_of_mem_replicate mem]
    decide
  frames a mem := by
    rw [stack] at mem
    cases mem
  recorded some := by simp [pressed] at some
  waits waits := by simp [waiting] at waits
  halts := by rw [halted, fault]; rfl
  blames f some := by simp [fault] at some

private theorem size_zeroed (size : Nat) : (Memory.zeroed size).size = size := Array.size_replicate

theorem glyphs_within : (Memory.zeroed memorySize).Within glyphStart glyphs.length := by
  rw [Memory.Within, size_zeroed]
  decide

theorem size_bareMemory : (bareMemory memorySize).size = memorySize :=
  (Memory.size_withBlock glyphs_within).trans (size_zeroed _)

theorem reset_memory (size : m.memory.size = memorySize) :
    m.reset.memory = bareMemory memorySize := congrArg bareMemory size

private theorem sound_fresh (dialect : Dialect) (policy : UnknownPolicy) (depth : Nat)
    (random : Twister) : (fresh dialect policy (.empty depth) random).Sound :=
  sound_of_idle size_bareMemory rfl rfl
    (congrArg CallStack.empty (CallStack.depth_empty depth)) rfl rfl rfl rfl

theorem Sound.reset (sound : m.Sound) : m.reset.Sound :=
  sound_of_idle ((congrArg Memory.size (reset_memory sound.size)).trans size_bareMemory) rfl rfl rfl
    rfl rfl rfl rfl

theorem Sound.load (sound : m.Sound) (program : List UInt8) : (m.load program).1.Sound := by
  unfold Machine.load
  have blank := sound.reset
  dsimp only
  split
  · exact blank
  · rename_i memory placed
    exact sound_of_idle ((Memory.size_place placed).trans blank.size) rfl rfl rfl rfl rfl rfl rfl

theorem Sound.tick (sound : m.Sound) : m.tick.Sound :=
  ⟨sound.size, sound.index, sound.pc, sound.slots, sound.frames, sound.recorded, sound.waits,
    sound.halts, sound.blames⟩

theorem Sound.key (sound : m.Sound) (key : Int) (down : Bool) :
    (m.next (.key key down)).Sound := by
  obtain ⟨keys, pressed, result, origin⟩ := next_key_kept m key down
  rw [result]
  refine ⟨sound.size, sound.index, sound.pc, sound.slots, sound.frames, ?_, sound.waits,
    sound.halts, sound.blames⟩
  intro some
  rcases origin with rfl | waiting
  · exact sound.recorded some
  · exact waiting

/-- Only an instruction that cannot be refused is waited at. -/
theorem Sound.idle_of_refused (sound : m.Sound) {i : Instruction} {n : Machine} {cause : Cause}
    (current : m.current = some i) (refused : Refused i n cause) : m.waiting = false := by
  by_contra waiting
  obtain ⟨-, j, here, op⟩ := sound.waits (by simpa using waiting)
  rw [current] at here
  cases here
  have refusable := refused.opcode
  rw [op] at refusable
  simp at refusable

theorem Sound.stop (sound : m.Sound) (idle : m.waiting = false) (cause : Cause)
    (word : Option UInt16) : (m.stop cause word).1.Sound where
  size := sound.size
  index := sound.index
  pc := sound.pc
  slots := sound.slots
  frames := sound.frames
  recorded := sound.recorded
  waits waiting := by
    change m.waiting = true at waiting
    rw [idle] at waiting
    cases waiting
  halts := rfl
  blames fault blamed := by
    cases blamed
    rfl

theorem within_of_fetch {word : UInt16} (fetched : m.fetch = .ok word) :
    0 ≤ m.regs.pc ∧ m.regs.pc + 2 ≤ m.memory.size := by
  obtain ⟨low, -, high⟩ := Memory.readWord_ok fetched
  exact ⟨low, high⟩

/-- The address after an instruction lies in memory, so it fits a slot of the stack. -/
theorem Sound.return_address (sound : m.Sound) {word : UInt16} (fetched : m.fetch = .ok word) :
    2 ≤ m.regs.pc + 2 ∧ m.regs.pc + 2 ≤ 4096 ∧
      ((UInt16.ofInt (m.regs.pc + 2)).toNat : Int) = m.regs.pc + 2 := by
  obtain ⟨low, high⟩ := within_of_fetch fetched
  have size : (m.memory.size : Int) = 4096 := by rw [sound.size]; rfl
  exact ⟨by omega, by omega, CallStack.toNat_ofInt (by omega) (by omega)⟩

section Done

variable {word : UInt16}

private theorem Sound.pc_of_effect (sound : m.Sound) (fetched : m.fetch = .ok word)
    (effect : Effect (.decode word.toNat) m.past m') :
    0 ≤ m'.regs.pc ∧ m'.regs.pc ≤ 0x10FE := by
  obtain ⟨low, high, -⟩ := sound.return_address fetched
  have past : m.past.regs.pc = m.regs.pc + 2 := rfl
  have address : (Instruction.decode word.toNat).nnn < 4096 := Nat.mod_lt _ (by decide)
  rcases effect.pc with same | skip | back | ⟨b, near⟩ | ⟨a, mem, popped⟩
  · omega
  · omega
  · omega
  · have offset := b.toNat_lt
    omega
  · have bound := sound.slots a mem
    omega

private theorem Sound.stack_of_effect (sound : m.Sound) (fetched : m.fetch = .ok word)
    (effect : Effect (.decode word.toNat) m.past m') :
    (∀ a ∈ m'.regs.stack.slots, a.toNat ≤ 4096) ∧ ∀ a ∈ m'.regs.stack.frames, 2 ≤ a.toNat := by
  obtain ⟨low, high, kept⟩ := sound.return_address fetched
  have past : m.past.regs.stack = m.regs.stack := rfl
  rcases effect.stack with ⟨-, pushed⟩ | ⟨-, address, popped, -⟩ | same
  · constructor
    · intro a mem
      rcases CallStack.mem_slots_of_push pushed mem with old | rfl
      · exact sound.slots a old
      · change (UInt16.ofInt (m.regs.pc + 2)).toNat ≤ 4096
        omega
    · intro a mem
      rw [CallStack.frames_push pushed, List.mem_append, List.mem_singleton] at mem
      rcases mem with old | rfl
      · exact sound.frames a old
      · change 2 ≤ (UInt16.ofInt (m.regs.pc + 2)).toNat
        omega
  · constructor
    · intro a mem
      obtain ⟨slots, -, -⟩ := CallStack.pop_ok popped
      rw [slots] at mem
      exact sound.slots a mem
    · intro a mem
      apply sound.frames a
      rw [← past, CallStack.frames_pop popped]
      exact List.mem_append_left _ mem
  · rw [same, past]
    exact ⟨sound.slots, sound.frames⟩

private theorem Sound.waits_of_effect (sound : m.Sound) (fetched : m.fetch = .ok word)
    (effect : Effect (.decode word.toNat) m.past m') :
    (m'.pressed.isSome = true → m'.waiting = true) ∧
      (m'.waiting = true → ∃ i, m'.current = some i ∧ i.opcode = .awaitKey) := by
  have here := current_of_fetch fetched
  by_cases op : (Instruction.decode word.toNat).opcode = .awaitKey
  · have stalled (n : Machine) (memory : n.memory = m.memory)
        (pc : n.regs.pc = m.regs.pc) : ∃ i, n.current = some i ∧ i.opcode = .awaitKey := by
      refine ⟨_, ?_, op⟩
      rw [← here, current, current, fetch, fetch, memory, pc]
    cases effect with
    | await op' =>
      have back : m.past.regs.pc - 2 = m.regs.pc := by
        change m.regs.pc + 2 - 2 = m.regs.pc
        omega
      rcases awaitKey_cases (Instruction.decode word.toNat).x m.past with
        start | ⟨waiting, pressed, stall⟩ | ⟨key, waiting, pressed, finish⟩
      · rw [start]
        exact ⟨fun _ => rfl, fun _ => stalled _ rfl back⟩
      · rw [stall]
        exact ⟨fun _ => waiting, fun _ => stalled _ rfl back⟩
      · rw [finish]
        exact ⟨by simp, by simp⟩
    | _ => simp_all
  · obtain ⟨waiting, pressed⟩ := effect.kept.wait op
    rw [waiting, pressed]
    refine ⟨sound.recorded, fun waits => ?_⟩
    obtain ⟨-, i, current, await⟩ := sound.waits waits
    rw [here] at current
    cases current
    exact absurd await op

theorem Sound.done (sound : m.Sound) (fetched : m.fetch = .ok word)
    (effect : Effect (.decode word.toNat) m.past m') : m'.goOn.Sound := by
  obtain ⟨slots, frames⟩ := sound.stack_of_effect fetched effect
  obtain ⟨recorded, waits⟩ := sound.waits_of_effect fetched effect
  have pc := sound.pc_of_effect fetched effect
  refine ⟨effect.kept.size.trans sound.size, ?_, pc, slots, frames, recorded,
    fun waiting => ⟨rfl, waits waiting⟩, rfl, fun fault blamed => nomatch blamed⟩
  change 0 ≤ m'.regs.index ∧ m'.regs.index ≤ 0xFFFF
  rcases effect.index_range with same | range
  · rw [same]
    exact sound.index
  · exact range

end Done

theorem Sound.step (sound : m.Sound) : m.step.1.Sound := by
  cases m.stepped with
  | unfetched cause fetched result =>
    rw [result]
    refine sound.stop ?_ cause none
    by_contra waiting
    obtain ⟨-, i, current, -⟩ := sound.waits (by simpa using waiting)
    rw [Machine.current, fetched] at current
    cases current
  | refused word cause fetched run result =>
    rw [result]
    exact sound.stop (sound.idle_of_refused (current_of_fetch fetched) (perform_refused run)) _ _
  | done word after fetched run result =>
    rw [result]
    exact sound.done fetched (perform_effect run)

theorem Sound.obey (sound : m.Sound) (c : Command) : (m.obey c).Sound := by
  cases c with
  | load program => exact sound.load program
  | reset => exact sound.reset
  | event e =>
    cases e with
    | step => exact sound.step
    | tick => exact sound.tick
    | key key down => exact sound.key key down

theorem Reached.sound {s : Settings} (reached : Reached s m) : m.Sound := by
  induction reached with
  | built build random =>
    obtain ⟨depth, random', -, rfl⟩ := Settings.machine_ok build
    exact sound_fresh s.dialect s.policy depth random
  | obeyed reached c ih => exact ih.obey c

theorem depth_step (m : Machine) : m.step.1.regs.stack.depth = m.regs.stack.depth := by
  rcases m.stack_step with same | ⟨address, pushed⟩ | ⟨address, popped⟩
  · rw [same]
  · exact CallStack.depth_push pushed
  · exact CallStack.depth_pop popped

private theorem depth_obey (m : Machine) (c : Command) :
    (m.obey c).regs.stack.depth = m.regs.stack.depth := by
  cases c with
  | load program =>
    have cleared : m.reset.regs.stack.depth = m.regs.stack.depth := CallStack.depth_clear _
    change (m.load program).1.regs.stack.depth = _
    unfold Machine.load
    dsimp only
    split <;> exact cleared
  | reset => exact CallStack.depth_clear _
  | event e =>
    cases e with
    | step => exact depth_step m
    | tick => rfl
    | key key down =>
      obtain ⟨keys, pressed, result, -⟩ := next_key_kept m key down
      change (m.next _).regs.stack.depth = _
      rw [result]

theorem Reached.depth {s : Settings} (reached : Reached s m) :
    s.stackDepth = .int m.regs.stack.depth := by
  induction reached with
  | built build random =>
    obtain ⟨depth, random', asked, rfl⟩ := Settings.machine_ok build
    rw [asked]
    congr 2
    change depth = ((CallStack.empty depth).clear).depth
    rw [CallStack.depth_clear, CallStack.depth_empty]
  | @obeyed n reached c ih => rw [ih, depth_obey]

end Chip8.Machine
