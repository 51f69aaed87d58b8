import Chip8.Proofs.CallStack
import Chip8.Proofs.Memory
import Chip8.Proofs.Step

set_option autoImplicit false
set_option relaxedAutoImplicit false

namespace Chip8.Machine

open Work

variable {m m' left : Machine} {i : Instruction} {cause : Cause}

/-- The machines that an instruction can lead to, by what it does. -/
inductive Effect (i : Instruction) (m : Machine) : Machine → Prop where
  | nothing (op : i.opcode ∈ [.sys, .unknown]) : Effect i m m
  | skip (op : i.opcode ∈ [.skipIfByte, .skipUnlessByte, .skipIfEqual, .skipUnlessEqual, .skipIfKey,
      .skipUnlessKey]) (condition : Bool) : Effect i m (m.skipIf condition)
  | jump (op : i.opcode ∈ [.jump, .jumpOffset]) (b : UInt8) :
      Effect i m (m.jumpTo (i.nnn + b.toNat))
  | assign (op : i.opcode ∈ [.setByte, .addByte, .copy, .readDelay]) (b : UInt8) :
      Effect i m (m.setV i.x b)
  | logic (op : i.opcode ∈ [.or, .and, .xor]) (b : UInt8) : Effect i m (m.setLogic i.x b)
  | flagged (op : i.opcode ∈ [.add, .subtract, .subtractFrom, .shiftRight, .shiftLeft])
      (b : UInt8) (flag : Bool) : Effect i m ((m.setV i.x b).setFlag flag)
  | index (op : i.opcode ∈ [.setIndex, .glyph]) (n : Nat) (small : n < 4096) :
      Effect i m (m.indexed n)
  | addIndex (op : i.opcode = .addIndex) : Effect i m (m.addToIndex i.x)
  | random (op : i.opcode = .random) :
      Effect i m
        ({ m with random := m.random.nextByte.2 }.setV i.x (m.random.nextByte.1 &&& i.nn))
  | clear (op : i.opcode = .clearScreen) : Effect i m { m with display := m.display.clear }
  | draw (op : i.opcode = .draw) (display : Display displayWidth displayHeight) (hit : Bool) :
      Effect i m ({ m with display }.setFlag hit)
  | time (op : i.opcode ∈ [.setDelay, .setSound]) (timers : Timers) :
      Effect i m { m with timers }
  | await (op : i.opcode = .awaitKey) : Effect i m (m.awaitKey i.x)
  | decimal (op : i.opcode = .decimal) (memory : Memory)
      (stored : m.memory.store m.regs.index (decimalDigits (m.v i.x)) = .ok memory) :
      Effect i m { m with memory }
  | store (op : i.opcode = .store) (memory : Memory)
      (stored : m.memory.store m.regs.index (m.regs.v.toList.take (i.x.val + 1)) = .ok memory) :
      Effect i m ({ m with memory }.passBlock i.x)
  | load (op : i.opcode = .load) (block : List UInt8)
      (read : m.memory.readBlock m.regs.index (i.x.val + 1) = .ok block) :
      Effect i m ((m.setBlock block).passBlock i.x)
  | call (op : i.opcode = .call) (stack : CallStack)
      (pushed : m.regs.stack.pushAddress (UInt16.ofInt m.regs.pc) = .ok stack) :
      Effect i m { m with regs := { m.regs with stack, pc := i.nnn } }
  | ret (op : i.opcode = .ret) (address : UInt16) (stack : CallStack)
      (popped : m.regs.stack.pop = .ok (address, stack)) :
      Effect i m { m with regs := { m.regs with stack, pc := address.toNat } }

inductive Refused (i : Instruction) (m : Machine) : Cause → Prop where
  | unknown (op : i.opcode = .unknown) (policy : m.policy = .halt) :
      Refused i m .illegalInstruction
  | call (op : i.opcode = .call) (full : m.regs.stack.sp = m.regs.stack.depth) :
      Refused i m (.stackOverflow m.regs.stack.depth)
  | ret (op : i.opcode = .ret) (empty : m.regs.stack.sp = 0) : Refused i m .stackUnderflow
  | draw (op : i.opcode = .draw) (outside : ¬ m.memory.Within m.regs.index i.n) :
      Refused i m (.outOfBounds m.regs.index i.n)
  | decimal (op : i.opcode = .decimal) (outside : ¬ m.memory.Within m.regs.index 3) :
      Refused i m (.outOfBounds m.regs.index 3)
  | block (op : i.opcode ∈ [.store, .load])
      (outside : ¬ m.memory.Within m.regs.index (i.x.val + 1)) :
      Refused i m (.outOfBounds m.regs.index (i.x.val + 1))

theorem run_ask_bind {α β : Type} {request : Machine → Except Cause α} {next : α → Work β} {b : β}
    (run : (ask request >>= next).run m = .ok b m') :
    ∃ a, request m = .ok a ∧ (next a).run m = .ok b m' := by
  rw [EStateM.run_bind, run_ask] at run
  cases granted : request m with
  | error cause =>
    rw [granted] at run
    cases run
  | ok a =>
    rw [granted] at run
    exact ⟨a, rfl, run⟩

private theorem ret_effect (op : i.opcode = .ret) (run : (perform i).run m = .ok ⟨⟩ m') :
    Effect i m m' := by
  rw [perform, op] at run
  obtain ⟨⟨address, regs⟩, granted, rest⟩ := run_ask_bind run
  cases rest
  rw [CallStack.pop_regs] at granted
  cases popped : m.regs.stack.pop with
  | error cause =>
    rw [popped] at granted
    cases granted
  | ok pair =>
    rw [popped] at granted
    cases granted
    exact .ret op pair.1 pair.2 popped

private theorem unknown_effect (op : i.opcode = .unknown)
    (run : (perform i).run m = .ok ⟨⟩ m') : Effect i m m' := by
  rw [perform, op] at run
  change EStateM.run (if m.policy = .halt then throw Cause.illegalInstruction else pure ⟨⟩ :
    Work PUnit) m = _ at run
  split at run <;> cases run
  exact .nothing (by simp [op])

private theorem sum_lt_of_digit (d : UInt8) : glyphStart + d.toNat % 16 * glyphHeight < 4096 := by
  have digit : d.toNat % 16 < 16 := Nat.mod_lt _ (by decide)
  unfold glyphStart glyphHeight
  omega

theorem perform_effect (run : (perform i).run m = .ok ⟨⟩ m') : Effect i m m' := by
  cases op : i.opcode with
  | ret => exact ret_effect op run
  | unknown => exact unknown_effect op run
  | call =>
    rw [perform, op] at run
    obtain ⟨stack, pushed, rest⟩ := run_ask_bind run
    cases rest
    exact .call op stack pushed
  | draw =>
    rw [perform, op] at run
    obtain ⟨rows, -, rest⟩ := run_ask_bind run
    cases rest
    exact .draw op _ _
  | decimal =>
    rw [perform, op] at run
    obtain ⟨memory, stored, rest⟩ := run_ask_bind run
    cases rest
    exact .decimal op memory stored
  | store =>
    rw [perform, op] at run
    obtain ⟨memory, stored, rest⟩ := run_ask_bind run
    cases rest
    exact .store op memory stored
  | load =>
    rw [perform, op] at run
    obtain ⟨block, read, rest⟩ := run_ask_bind run
    cases rest
    exact .load op block read
  | random =>
    rw [perform, op] at run
    cases run
    exact .random op
  | clearScreen =>
    rw [perform, op] at run
    cases run
    exact .clear op
  | setDelay =>
    rw [perform, op] at run
    cases run
    exact .time (by simp [op]) _
  | setSound =>
    rw [perform, op] at run
    cases run
    exact .time (by simp [op]) _
  | awaitKey =>
    rw [perform, op] at run
    cases run
    exact .await op
  | sys =>
    rw [perform, op] at run
    cases run
    exact .nothing (by simp [op])
  | jump =>
    rw [perform, op] at run
    cases run
    have jump : Effect i m (m.jumpTo (i.nnn + (0 : UInt8).toNat)) := .jump (by simp [op]) 0
    simpa using jump
  | jumpOffset =>
    rw [perform, op] at run
    cases run
    exact .jump (by simp [op]) _
  | setIndex =>
    rw [perform, op] at run
    cases run
    exact .index (by simp [op]) i.nnn (Nat.mod_lt _ (by decide))
  | glyph =>
    rw [perform, op] at run
    cases run
    exact .index (by simp [op]) _ (sum_lt_of_digit (m.v i.x))
  | addIndex =>
    rw [perform, op] at run
    cases run
    exact .addIndex op
  | skipIfByte | skipUnlessByte | skipIfEqual | skipUnlessEqual | skipIfKey | skipUnlessKey =>
    rw [perform, op] at run
    cases run
    exact .skip (by simp [op]) _
  | or | and | xor =>
    rw [perform, op] at run
    cases run
    exact .logic (by simp [op]) _
  | setByte | addByte | copy | readDelay =>
    rw [perform, op] at run
    cases run
    exact .assign (by simp [op]) _
  | add | subtract | subtractFrom | shiftRight | shiftLeft =>
    rw [perform, op] at run
    cases run
    exact .flagged (by simp [op]) _ _

private theorem ret_refused (op : i.opcode = .ret)
    (run : (perform i).run m = .error cause left) : Refused i m cause := by
  rw [perform, op] at run
  obtain ⟨refused, -⟩ := refusal_of_ask_bind (fun _ => sure_modify_modify _ _) run
  rw [CallStack.pop_regs] at refused
  cases popped : m.regs.stack.pop with
  | ok pair =>
    rw [popped] at refused
    cases refused
  | error c =>
    rw [popped] at refused
    cases refused
    obtain ⟨rfl, empty⟩ := CallStack.pop_error popped
    exact .ret op empty

private theorem unknown_refused (op : i.opcode = .unknown)
    (run : (perform i).run m = .error cause left) : Refused i m cause := by
  rw [perform, op] at run
  change EStateM.run (if m.policy = .halt then throw Cause.illegalInstruction else pure ⟨⟩ :
    Work PUnit) m = _ at run
  split at run <;> cases run
  rename_i policy
  exact .unknown op policy

theorem length_block (m : Machine) (x : Fin 16) :
    ((m.regs.v.toList.take (x.val + 1)).length : Int) = x.val + 1 := by
  rw [List.length_take, Vector.length_toList]
  omega

theorem perform_refused (run : (perform i).run m = .error cause left) : Refused i m cause := by
  cases op : i.opcode with
  | ret => exact ret_refused op run
  | unknown => exact unknown_refused op run
  | call =>
    rw [perform, op] at run
    obtain ⟨refused, -⟩ := refusal_of_ask_bind (fun _ => sure_modify_modify _ _) run
    obtain ⟨rfl, full⟩ := CallStack.pushAddress_error refused
    exact .call op full
  | draw =>
    rw [perform, op] at run
    obtain ⟨refused, -⟩ := refusal_of_ask_bind (fun _ _ => ⟨_, _, rfl⟩) run
    obtain ⟨rfl, outside⟩ := Memory.readBlock_error refused
    exact .draw op outside
  | decimal =>
    rw [perform, op] at run
    obtain ⟨refused, -⟩ := refusal_of_ask_bind (fun _ => sure_modify _) run
    obtain ⟨rfl, outside⟩ := Memory.store_error refused
    exact .decimal op outside
  | store =>
    rw [perform, op] at run
    obtain ⟨refused, -⟩ := refusal_of_ask_bind (fun _ => sure_modify_modify _ _) run
    obtain ⟨rfl, outside⟩ := Memory.store_error refused
    rw [length_block] at outside ⊢
    exact .block (by simp [op]) outside
  | load =>
    rw [perform, op] at run
    obtain ⟨refused, -⟩ := refusal_of_ask_bind (fun _ => sure_modify_modify _ _) run
    obtain ⟨rfl, outside⟩ := Memory.readBlock_error refused
    exact .block (by simp [op]) outside
  | _ =>
    rw [perform, op] at run
    cases run

theorem Refused.opcode (refused : Refused i m cause) :
    i.opcode ∈ [.unknown, .call, .ret, .draw, .decimal, .store, .load] := by
  cases refused with
  | block op outside =>
    simp only [List.mem_cons, List.not_mem_nil, or_false] at op
    rcases op with op | op <;> simp [op]
  | unknown op policy => simp [op]
  | call op full => simp [op]
  | ret op empty => simp [op]
  | draw op outside => simp [op]
  | decimal op outside => simp [op]

end Chip8.Machine
