import Chip8.Machine.Checked
import Chip8.Proofs.Arithmetic
import Chip8.Proofs.Masks
import Chip8.Proofs.Sprite

/-!
Instructions with every check beside those that do without. On a machine in bounds each number that
is stored fits where it goes and each place that is looked up exists, so the two agree and nothing
but a report of the machine itself can come of a step.
-/

set_option autoImplicit false
set_option relaxedAutoImplicit false

namespace Chip8

open Instruction.Table (masked)

private theorem position_of_lt {size k : Nat} (inside : k < size) (small : size ≤ 4096) :
    position size k = .ok k := by
  have low : ¬ ((k : Int) < 0) := by omega
  rw [position, if_neg (by omega)]
  dsimp only
  rw [if_neg low, if_neg (by omega), Int.toNat_natCast]

private theorem setIfInBounds_of_lt {α : Type} {n k : Nat} (v : Vector α n) (inside : k < n)
    (a : α) : v.setIfInBounds k a = v.set k a inside := by
  ext i bound
  rw [Vector.getElem_setIfInBounds, Vector.getElem_set]

private theorem getD_of_lt {α : Type} {n k : Nat} (v : Vector α n) (inside : k < n)
    (otherwise : α) : v.toArray.getD k otherwise = v[k] := by
  simp [inside]

private theorem ofInt_toNat (b : UInt8) : UInt8.ofInt b.toNat = b := by
  have bound := b.toNat_lt
  have low : (b.toNat : Int) % 2 ^ 8 = b.toNat := Int.emod_eq_of_lt (by omega) (by omega)
  rw [UInt8.ofInt, low, Int.toNat_natCast, UInt8.ofNat_toNat]

namespace Memory

private theorem bytesOf?_map (bytes : List UInt8) :
    bytesOf? (bytes.map fun b => (b.toNat : Int)) = some bytes := by
  induction bytes with
  | nil => rfl
  | cons b bytes ih =>
    have bound := b.toNat_lt
    rw [List.map_cons, bytesOf?, if_pos (by omega), ih, ofInt_toNat]
    rfl

variable {m : Memory} {address : Int} {bytes : List UInt8}

private theorem writingBlock_of_within (within : m.Within address bytes.length) :
    writingBlock address (bytes.map fun b => (b.toNat : Int)) m =
      .ok () (m.withBlock address bytes) := by
  rw [writingBlock, bytesOf?_map]
  exact adapt_of_ok (storing_of_within within) _

private theorem writingBlock_of_not_within (outside : ¬ m.Within address bytes.length) :
    writingBlock address (bytes.map fun b => (b.toNat : Int)) m =
      .error (.fault (.outOfBounds address bytes.length)) m := by
  rw [writingBlock, bytesOf?_map]
  exact adapt_of_error (storing_of_not_within outside) _

private theorem cellAt_val {k : Nat} (inside : k < m.size) (small : m.size ≤ 4096) :
    m.cellAt k = .ok (m.cells.getD k 0) := by
  rw [cellAt, position_of_lt inside small]
  rfl

private theorem toNat_joined (high low : UInt8) :
    (UInt16.ofNat (high.toNat * 256 + low.toNat)).toNat = high.toNat <<< 8 ||| low.toNat := by
  have bound := high.toNat_lt
  have bound' := low.toNat_lt
  rw [UInt16.toNat_ofNat', Nat.mod_eq_of_lt (by omega), ← Nat.shiftLeft_add_eq_or_of_lt bound',
    Nat.shiftLeft_eq]

private theorem readingWord_of_within (small : m.size ≤ 4096) (within : m.Within address 2) :
    ∃ word, m.readWord address = .ok word ∧ readingWord address m = .ok word.toNat m := by
  obtain ⟨k, rfl⟩ := Int.eq_ofNat_of_zero_le within.1
  have inside : k + 1 < m.size := by
    have high := within.2.2
    omega
  refine ⟨_, readWord_of_within within, ?_⟩
  refine (bind_of_ok (adapt_of_ok (ensure_of_within within) _) _).trans ?_
  change (grant Refusal.misuse (m.cellAt k) >>= fun high =>
    grant Refusal.misuse (m.cellAt (k + 1 : Nat)) >>= fun low =>
      pure (high.toNat <<< 8 ||| low.toNat) : Work Refusal Nat) m = _
  rw [cellAt_val (by omega) small, cellAt_val inside small]
  exact congrArg (EStateM.Result.ok · m) (toNat_joined _ _).symm

private theorem readingWord_of_not_within (outside : ¬ m.Within address 2) :
    readingWord address m = .error (.fault (.outOfBounds address 2)) m :=
  bind_of_error (adapt_of_error (ensure_of_not_within outside) _) _

end Memory

namespace Registers

private theorem getAt_val (r : Registers) (x : Fin 16) : r.getAt x.val = .ok (r.get x) := by
  rw [getAt, position_of_lt x.isLt (by decide), Registers.get]
  exact congrArg Except.ok (getD_of_lt r.v x.isLt 0)

private theorem setAt_val (r : Registers) (x : Fin 16) (b : UInt8) :
    r.setAt x.val b.toNat = .ok (r.set x b) := by
  have bound := b.toNat_lt
  rw [setAt, position_of_lt x.isLt (by decide)]
  dsimp only
  rw [if_neg (by omega), ofInt_toNat, Registers.set, ← setIfInBounds_of_lt]
  rfl

end Registers

section Masks

private theorem masked_natCast (mask n : Nat) : masked mask (n : Int) = n &&& mask := rfl

private theorem and_digit (n : Nat) : n &&& 0xF = n % 16 := Nat.and_two_pow_sub_one_eq_mod n 4

private theorem and_byte (n : Nat) : n &&& 0xFF = n % 256 := Nat.and_two_pow_sub_one_eq_mod n 8

private theorem and_address (n : Nat) :
    n &&& 0xFFF = n % 4096 := Nat.and_two_pow_sub_one_eq_mod n 12

private theorem and_word (n : Nat) : n &&& 0xFFFF = n % 65536 := Nat.and_two_pow_sub_one_eq_mod n 16

private theorem masked_word (n : Int) : (masked 0xFFFF n : Int) = n % 65536 := by
  rw [Instruction.Table.masked_lowWord (by decide), masked_natCast, and_word,
    Nat.mod_eq_of_lt (Instruction.lowWord_lt n), Instruction.lowWord_cast]

private theorem masked_byte (n : Int) : (masked 0xFF n : Int) = n % 256 := by
  have cast := Instruction.lowWord_cast n
  rw [Instruction.Table.masked_lowWord (by decide), masked_natCast, and_byte]
  omega

variable (a b : UInt8)

private theorem masked_sum : masked 0xFF (a.toNat + b.toNat) = (a + b).toNat := by
  have low := masked_byte (a.toNat + b.toNat)
  rw [UInt8.toNat_add]
  omega

private theorem masked_difference : masked 0xFF (a.toNat - b.toNat) = (a - b).toNat := by
  have low := masked_byte (a.toNat - b.toNat)
  have bound := b.toNat_lt
  rw [Machine.toNat_difference]
  omega

private theorem masked_double : masked 0xFF (a.toNat <<< 1 : Nat) = (a <<< 1).toNat := by
  rw [masked_natCast, and_byte, Machine.toNat_double, Nat.shiftLeft_eq, Nat.mul_comm]

private theorem half_eq : a.toNat >>> 1 = (a >>> 1).toNat := by
  rw [Machine.toNat_half, Nat.shiftRight_eq_div_pow]

private theorem lowest_eq : a.toNat &&& 1 = (decide (a &&& 1 ≠ 0)).toNat := by
  rw [Machine.toNat_lowest]
  exact Nat.and_one_is_mod a.toNat

private theorem decide_toNat : decide (a.toNat = b.toNat) = decide (a = b) :=
  decide_eq_decide.mpr UInt8.toNat_inj

private theorem highest_eq : a.toNat >>> 7 &&& 1 = (decide (a >>> 7 ≠ 0)).toNat := by
  have bound := a.toNat_lt
  have bit := Nat.and_one_is_mod (a.toNat / 2 ^ 7)
  rw [Machine.toNat_highest, Nat.shiftRight_eq_div_pow]
  omega

end Masks

private theorem Operands.ofWord_eq (i : Instruction) :
    Operands.ofWord i.word.toNat = ⟨i.x, i.y, i.n, i.nn.toNat, i.nnn⟩ := by
  have x : (i.word.toNat &&& 0x0F00) >>> 8 = i.word.toNat / 256 % 16 := by
    rw [Nat.shiftRight_and_distrib, Nat.shiftRight_eq_div_pow]
    exact and_digit _
  have y : (i.word.toNat &&& 0x00F0) >>> 4 = i.word.toNat / 16 % 16 := by
    rw [Nat.shiftRight_and_distrib, Nat.shiftRight_eq_div_pow]
    exact and_digit _
  have nn : i.nn.toNat = i.word.toNat % 256 := UInt16.toNat_toUInt8 i.word
  rw [ofWord, x, y, and_digit, and_byte, and_address, nn]
  rfl

namespace Machine.Attempt

section Parts

variable {β : Type} (x : Fin 16) (b : UInt8) (m : Machine)

private theorem get_bind (next : Machine → Attempt β) :
    ((get : Attempt Machine) >>= next) m = next m m := rfl

private theorem modify_bind (f : Machine → Machine) (next : Unit → Attempt β) :
    ((modify f : Attempt Unit) >>= next) m = next ⟨⟩ (f m) := rfl

private theorem register_bind (next : Nat → Attempt β) :
    (register x >>= next) m = next (m.v x).toNat m := by
  have read : register x m = .ok (m.v x).toNat m := by
    change (grant Mishap.misuse (m.regs.getAt x) >>= fun b => pure b.toNat : Attempt Nat) m = _
    rw [Registers.getAt_val]
    rfl
  exact bind_of_ok read next

private theorem setRegister_eq : setRegister x b.toNat m = .ok ⟨⟩ (m.setV x b) := by
  change (grant Mishap.misuse (m.regs.setAt x b.toNat) >>= _ : Attempt Unit) m = _
  rw [Registers.setAt_val]
  rfl

private theorem setRegister_bind (next : Unit → Attempt β) :
    (setRegister x b.toNat >>= next) m = next ⟨⟩ (m.setV x b) :=
  bind_of_ok (setRegister_eq x b m) next

private theorem setRegister_flag (flag : Bool) :
    setRegister Registers.flag flag.toNat m = .ok ⟨⟩ (m.setFlag flag) := by
  cases flag
  · exact setRegister_eq Registers.flag 0 m
  · exact setRegister_eq Registers.flag 1 m

private theorem setFlag_eq (flag : Bool) : setFlag flag m = .ok ⟨⟩ (m.setFlag flag) := by
  cases flag
  · exact setRegister_flag m false
  · exact setRegister_flag m true

private theorem setBoth_eq (flag : Bool) :
    setBoth x b.toNat flag m = .ok ⟨⟩ ((m.setV x b).setFlag flag) := by
  rw [setBoth, setRegister_bind, setFlag_eq]

private theorem skipIf_eq (condition : Bool) :
    skipIf condition m = .ok ⟨⟩ (m.skipIf condition) := by
  cases condition <;> rfl

private theorem setLogic_eq : setLogic x b.toNat m = .ok ⟨⟩ (m.setLogic x b) := by
  rw [setLogic, setRegister_bind]
  change (if m.dialect.logicClearsFlag then _ else pure ⟨⟩ : Attempt Unit) _ = _
  split
  · rename_i clears
    rw [setLogic_of_clears m x b clears]
    exact setRegister_flag _ false
  · rename_i keeps
    rw [setLogic_of_keeps m x b keeps]
    rfl

private theorem passBlock_eq : passBlock x m = .ok ⟨⟩ (m.passBlock x) := by
  change (if m.dialect.blockMovesIndex then _ else pure ⟨⟩ : Attempt Unit) _ = _
  rw [Machine.passBlock]
  split
  · rw [← masked_word]
    rfl
  · rfl

private theorem shiftSource_bind (i : Instruction) (n nn nnn : Nat) (next : Nat → Attempt β) :
    (shiftSource ⟨i.x, i.y, n, nn, nnn⟩ >>= next) m = next (m.shiftSource i).toNat m := by
  change ((if m.dialect.shiftReadsY then register i.y else register i.x) >>= next) m = _
  rw [Machine.shiftSource]
  split <;> exact register_bind _ m next

private theorem key_bind (next : Bool → Attempt β) :
    (key (masked 0xF b.toNat) >>= next) m = next m.keys[b.toNat % 16] m := by
  have low : b.toNat % 16 < 16 := Nat.mod_lt _ (by decide)
  have looked : key (masked 0xF b.toNat) m = .ok m.keys[b.toNat % 16] m := by
    rw [masked_natCast, and_digit]
    change (grant Mishap.misuse (position 16 (b.toNat % 16 : Nat)) >>= _ : Attempt Bool) m = _
    rw [position_of_lt low (by decide)]
    exact congrArg (EStateM.Result.ok · m) (getD_of_lt m.keys low false)
  exact bind_of_ok looked next

private theorem awaitKey_eq : awaitKey x m = .ok ⟨⟩ (m.awaitKey x) := by
  cases waiting : m.waiting with
  | false =>
    have started : (if m.waiting then m else { m with waiting := true, pressed := none }) =
        { m with waiting := true, pressed := none } := by rw [waiting]; rfl
    rw [awaitKey_of_idle x waiting, awaitKey, modify_bind, started]
    rfl
  | true =>
    have goes_on : (if m.waiting then m else { m with waiting := true, pressed := none }) = m := by
      rw [waiting]; rfl
    rw [awaitKey, modify_bind, goes_on]
    cases pressed : m.pressed with
    | none =>
      rw [awaitKey_of_none x waiting pressed, get_bind, pressed]
      rfl
    | some key =>
      have value : key.val = (UInt8.ofNat key.val).toNat := by
        rw [UInt8.toNat_ofNat', Nat.mod_eq_of_lt (by omega)]
      rw [awaitKey_of_some x waiting pressed, get_bind, pressed]
      dsimp only
      rw [value, setRegister_bind, ← value]
      rfl

private theorem addToIndex_eq : addToIndex x m = .ok ⟨⟩ (m.addToIndex x) := by
  change (register x >>= _ : Attempt Unit) m = _
  rw [register_bind]
  change (if m.dialect.indexSetsFlag then _ else pure ⟨⟩ : Attempt Unit) _ = _
  rw [masked_word]
  split
  · rename_i sets
    rw [addToIndex_of_sets m x sets]
    exact setFlag_eq _ _
  · rename_i keeps
    rw [addToIndex_of_keeps m x keeps]
    rfl

private theorem toggle_bind {cell : Nat} (inside : cell < displayWidth * displayHeight)
    (next : Bool → Attempt β) :
    (toggle cell >>= next) m = next m.display.cells[cell]
      { m with display := { m.display with
        cells := m.display.cells.set cell !m.display.cells[cell] } } := by
  have toggled : toggle cell m = .ok m.display.cells[cell]
      { m with display := { m.display with
        cells := m.display.cells.set cell !m.display.cells[cell] } } := by
    change (grant Mishap.misuse (position (displayWidth * displayHeight) cell) >>= _ :
      Attempt Bool) m = _
    rw [position_of_lt inside (by decide), ← setIfInBounds_of_lt,
      ← getD_of_lt m.display.cells inside false]
    rfl
  exact bind_of_ok toggled next

private theorem toggleEach_eq {cells : List Nat} (hit : Bool)
    (inside : ∀ cell ∈ cells, cell < displayWidth * displayHeight) :
    toggleEach hit cells m =
      .ok (Display.toggleAll m.display.cells hit cells).2
        { m with display := { m.display with
          cells := (Display.toggleAll m.display.cells hit cells).1 } } := by
  induction cells generalizing m hit with
  | nil => rfl
  | cons cell cells ih =>
    obtain ⟨first, rest⟩ := List.forall_mem_cons.mp inside
    rw [toggleEach, toggle_bind m first, ih _ _ rest, Display.toggleAll_of_lt first]

end Parts

section Work

variable {α β : Type} {m n : Machine} {i : Instruction}

private theorem inStack_of_ok {work : CallStack.Work Refusal α} {a : α} {stack : CallStack}
    (done : work m.regs.stack = .ok a stack) :
    inStack work m = .ok a { m with regs := { m.regs with stack } } := by
  rw [inStack, Registers.inStack, done]

private theorem inStack_of_refused {work : CallStack.Work Refusal α} {refusal : Refusal}
    (cut : work m.regs.stack = .error refusal m.regs.stack) :
    inStack work m = .error (.ofRefusal refusal) m := by
  rw [inStack, Registers.inStack, cut]

private theorem inMemory_of_ok {work : Memory.Work Refusal α} {a : α} {memory : Memory}
    (done : work m.memory = .ok a memory) : inMemory work m = .ok a { m with memory } := by
  rw [inMemory, done]

private theorem inMemory_of_refused {work : Memory.Work Refusal α} {refusal : Refusal}
    (cut : work m.memory = .error refusal m.memory) :
    inMemory work m = .error (.ofRefusal refusal) m := by
  rw [inMemory, cut]

private theorem ask_bind (request : Machine → Except Cause α) {a : α} (granted : request m = .ok a)
    (next : α → Work β) : (ask request >>= next) m = next a m := by
  refine bind_of_ok ?_ next
  rw [ask, granted]

/-- With every check an instruction comes to what it comes to without. -/
def Agrees (i : Instruction) (m : Machine) : Prop :=
  perform i.opcode (.ofWord i.word.toNat) m = (Machine.perform i).adaptExcept .fault m

private theorem agrees_of_ok (run : Machine.perform i m = .ok ⟨⟩ n)
    (checked : perform i.opcode ⟨i.x, i.y, i.n, i.nn.toNat, i.nnn⟩ m = .ok ⟨⟩ n) : Agrees i m := by
  rw [Agrees, Operands.ofWord_eq, adapt_of_ok run]
  exact checked

private theorem agrees_of_refused {cause : Cause} (refused : Refused i m cause)
    (checked : perform i.opcode ⟨i.x, i.y, i.n, i.nn.toNat, i.nnn⟩ m = .error (.fault cause) m) :
    Agrees i m := by
  have run : Machine.perform i m = .error cause m := run_of_refused refused
  rw [Agrees, Operands.ofWord_eq, adapt_of_error run]
  exact checked

end Work

section Agreement

variable {m : Machine} {i : Instruction}

private theorem agrees_skip
    (op : i.opcode ∈ [.skipIfByte, .skipUnlessByte, .skipIfEqual, .skipUnlessEqual,
    .skipIfKey, .skipUnlessKey]) : Agrees i m := by
  simp only [List.mem_cons, List.not_mem_nil, or_false] at op
  rcases op with op | op | op | op | op | op <;>
    refine agrees_of_ok (by rw [Machine.perform, op]; rfl) ?_ <;> rw [op, perform]
  · rw [register_bind, decide_toNat, skipIf_eq]
  · rw [register_bind, decide_not, decide_toNat, ← decide_not, skipIf_eq]
  · rw [register_bind, register_bind, decide_toNat, skipIf_eq]
  · rw [register_bind, register_bind, decide_not, decide_toNat, ← decide_not, skipIf_eq]
  · rw [register_bind, key_bind, skipIf_eq]
  · rw [register_bind, key_bind, skipIf_eq]

private theorem agrees_assign (op : i.opcode ∈ [.setByte, .addByte, .copy, .readDelay]) :
    Agrees i m := by
  simp only [List.mem_cons, List.not_mem_nil, or_false] at op
  rcases op with op | op | op | op <;>
    refine agrees_of_ok (by rw [Machine.perform, op]; rfl) ?_ <;> rw [op, perform]
  · rw [setRegister_eq]
  · rw [register_bind, masked_sum, setRegister_eq]
  · rw [register_bind, setRegister_eq]
  · rw [get_bind, setRegister_eq]

private theorem agrees_random (op : i.opcode = .random) : Agrees i m := by
  have run : Machine.perform i m = .ok ⟨⟩
      ({ m with random := m.random.nextByte.2 }.setV i.x (m.random.nextByte.1 &&& i.nn)) := by
    rw [Machine.perform, op]
    rfl
  apply agrees_of_ok run
  rw [op, perform, get_bind]
  change setRegister i.x (m.random.nextByte.1.toNat &&& i.nn.toNat : Nat) _ = _
  rw [← UInt8.toNat_and, setRegister_eq]
  rfl

private theorem agrees_logic (op : i.opcode ∈ [.or, .and, .xor]) : Agrees i m := by
  simp only [List.mem_cons, List.not_mem_nil, or_false] at op
  rcases op with op | op | op <;>
    refine agrees_of_ok (by rw [Machine.perform, op]; rfl) ?_ <;>
      rw [op, perform, register_bind, register_bind]
  · rw [← UInt8.toNat_or, setLogic_eq]
  · rw [← UInt8.toNat_and, setLogic_eq]
  · rw [← UInt8.toNat_xor, setLogic_eq]

private theorem agrees_flagged
    (op : i.opcode ∈ [.add, .subtract, .subtractFrom, .shiftRight, .shiftLeft]) : Agrees i m := by
  simp only [List.mem_cons, List.not_mem_nil, or_false] at op
  rcases op with op | op | op | op | op <;>
    refine agrees_of_ok (by rw [Machine.perform, op]; rfl) ?_ <;> rw [op, perform]
  · rw [register_bind, register_bind]
    dsimp only
    rw [Nat.cast_add, masked_sum, setBoth_eq]
  · rw [register_bind, register_bind, masked_difference]
    exact setBoth_eq i.x _ m _
  · rw [register_bind, register_bind, masked_difference]
    exact setBoth_eq i.x _ m _
  · rw [shiftSource_bind, half_eq, setRegister_bind, lowest_eq]
    exact setRegister_flag _ _
  · rw [shiftSource_bind, masked_double, setRegister_bind, highest_eq]
    exact setRegister_flag _ _

private theorem agrees_jumpOffset (op : i.opcode = .jumpOffset) : Agrees i m := by
  refine agrees_of_ok (by rw [Machine.perform, op]; rfl) ?_
  rw [op, perform, get_bind]
  dsimp only
  rw [← apply_ite Fin.val, register_bind, apply_ite m.v]
  rfl

private theorem agrees_unknown (op : i.opcode = .unknown) : Agrees i m := by
  by_cases halts : m.policy = .halt
  · apply agrees_of_refused (.unknown op halts)
    rw [op, perform, get_bind, if_pos halts]
    rfl
  · have run : Machine.perform i m = .ok ⟨⟩ m := by
      rw [Machine.perform, op]
      change (if m.policy = .halt then throw .illegalInstruction else pure ⟨⟩ : Work Unit) m = _
      rw [if_neg halts]
      rfl
    apply agrees_of_ok run
    rw [op, perform, get_bind, if_neg halts]
    rfl

private theorem agrees_ret (op : i.opcode = .ret) : Agrees i m := by
  rcases Nat.eq_zero_or_pos m.regs.stack.sp with empty | used
  · apply agrees_of_refused (.ret op empty)
    have cut := adapt_of_error (CallStack.popping_of_empty empty) Refusal.fault
    rw [op]
    exact bind_of_error (inStack_of_refused cut) _
  · have popped : m.regs.pop = .ok (m.regs.stack.slots.getD (m.regs.stack.sp - 1) 0,
        { m.regs with stack := m.regs.stack.shrink }) := by
      rw [CallStack.pop_regs, CallStack.pop, settled, CallStack.popping_of_used used]
      rfl
    have run : Machine.perform i m = .ok ⟨⟩ ({ m with
        regs := { m.regs with stack := m.regs.stack.shrink } }.jumpTo
          (m.regs.stack.slots.getD (m.regs.stack.sp - 1) 0).toNat) := by
      rw [Machine.perform, op]
      exact ask_bind (·.regs.pop) popped _
    apply agrees_of_ok run
    have done := adapt_of_ok (CallStack.popping_of_used used) Refusal.fault
    rw [op]
    exact bind_of_ok (inStack_of_ok done) _

private theorem agrees_call (op : i.opcode = .call) (fits : 0 ≤ m.regs.pc ∧ m.regs.pc ≤ 65535) :
    Agrees i m := by
  rcases Nat.lt_or_ge m.regs.stack.sp m.regs.stack.depth with room | full
  · obtain ⟨stack, done, pushed⟩ := CallStack.pushing_of_room room fits
    have run : Machine.perform i m =
        .ok ⟨⟩ ({ m with regs := { m.regs with stack } }.jumpTo i.nnn) := by
      rw [Machine.perform, op]
      exact ask_bind (fun m => m.regs.stack.pushAddress (UInt16.ofInt m.regs.pc)) pushed _
    apply agrees_of_ok run
    rw [op]
    exact bind_of_ok (inStack_of_ok done) _
  · have full : m.regs.stack.sp = m.regs.stack.depth := Nat.le_antisymm m.regs.stack.sp_le full
    apply agrees_of_refused (.call op full)
    rw [op]
    exact bind_of_error (inStack_of_refused (CallStack.pushing_of_full full)) _

private theorem agrees_draw (op : i.opcode = .draw) : Agrees i m := by
  by_cases within : m.memory.Within m.regs.index i.n
  · obtain ⟨rows, read⟩ := Memory.readBlock_of_within within
    let drawn := m.display.draw (m.v i.x).toNat (m.v i.y).toNat
      (rows.map fun b => (b.toNat : Int)) m.dialect.clipSprites
    have run : Machine.perform i m = .ok ⟨⟩ ({ m with display := drawn.1 }.setFlag drawn.2) := by
      rw [Machine.perform, op, Machine.drawSprite]
      exact ask_bind (fun m => m.memory.readBlock m.regs.index i.n) read _
    apply agrees_of_ok run
    rw [op, perform, drawSprite, get_bind, read]
    change (register i.x >>= _ : Attempt Unit) m = _
    rw [register_bind, register_bind]
    refine (bind_of_ok (toggleEach_eq m false fun cell covered => ?_) _).trans ?_
    · exact Display.coveredFrom_lt (by decide) (by decide) covered
    · exact setFlag_eq _ _
  · apply agrees_of_refused (.draw op within)
    rw [op, perform, drawSprite, get_bind, Memory.readBlock_of_not_within within]
    rfl

private theorem agrees_decimal (op : i.opcode = .decimal) : Agrees i m := by
  have digits : (decimalDigits (m.v i.x)).map (fun b => (b.toNat : Int)) =
      ([((m.v i.x).toNat / 100 : Nat), ((m.v i.x).toNat / 10 % 10 : Nat),
        ((m.v i.x).toNat % 10 : Nat)] : List Int) := rfl
  by_cases within : m.memory.Within m.regs.index (decimalDigits (m.v i.x)).length
  · have run : Machine.perform i m = .ok ⟨⟩ { m with
        memory := m.memory.withBlock m.regs.index (decimalDigits (m.v i.x)) } := by
      rw [Machine.perform, op]
      refine ask_bind (fun m => m.memory.store m.regs.index (decimalDigits (m.v i.x))) ?_ _
      rw [Memory.store_eq, if_pos within]
    apply agrees_of_ok run
    rw [op, perform, register_bind, get_bind, ← digits]
    exact inMemory_of_ok (Memory.writingBlock_of_within within)
  · apply agrees_of_refused (.decimal op within)
    rw [op, perform, register_bind, get_bind, ← digits]
    exact inMemory_of_refused (Memory.writingBlock_of_not_within within)

private theorem agrees_store (op : i.opcode = .store) : Agrees i m := by
  have length := length_block m i.x
  by_cases within : m.memory.Within m.regs.index (m.regs.v.toList.take (i.x.val + 1)).length
  · let memory := m.memory.withBlock m.regs.index (m.regs.v.toList.take (i.x.val + 1))
    have run : Machine.perform i m = .ok ⟨⟩ ({ m with memory }.passBlock i.x) := by
      rw [Machine.perform, op]
      refine ask_bind
        (fun m => m.memory.store m.regs.index (m.regs.v.toList.take (i.x.val + 1))) ?_ _
      rw [Memory.store_eq, if_pos within]
    apply agrees_of_ok run
    rw [op, perform, get_bind]
    refine (bind_of_ok (inMemory_of_ok (Memory.writingBlock_of_within within)) _).trans ?_
    exact passBlock_eq i.x _
  · have outside := within
    rw [length] at outside
    apply agrees_of_refused (.block (by simp [op]) outside)
    rw [op, perform, get_bind, ← length]
    exact bind_of_error (inMemory_of_refused (Memory.writingBlock_of_not_within within)) _

/-- A block of as many bytes as it replaces registers leaves sixteen of them. -/
theorem setRegisters_eq {block : List UInt8} (length : (block.length : Int) = i.x.val + 1) :
    setRegisters (i.x.val + 1) block m = .ok ⟨⟩ (m.setBlock block) := by
  have size : m.regs.v.toList.length = 16 := Vector.length_toList
  have fits : 0 + block.length ≤ m.regs.v.toList.length := by omega
  have count : ((0 : Nat) : Int) + block.length = i.x.val + 1 := by omega
  have sixteen := (Memory.length_splice fits).trans size
  have found (k : Nat) (inside : k < 16) := Memory.getElem?_splice_front fits (size ▸ inside)
  rw [count] at sixteen found
  have same : Vector.mk (splice m.regs.v.toList (0 : Nat) (i.x.val + 1) block).toArray sixteen =
      Vector.ofFn fun k => block.getD k.val (m.regs.get k) := by
    apply Vector.ext
    intro k inside
    have here := found k inside
    rw [List.getElem?_eq_getElem (by omega), Vector.getElem_toList] at here
    rw [Vector.getElem_ofFn, Vector.getElem_mk, List.getElem_toArray]
    exact Option.some_inj.mp here
  change (if sixteen : (splice m.regs.v.toList (0 : Nat) (i.x.val + 1) block).length = 16 then _
    else throw .resized : Attempt Unit) m = _
  rw [dif_pos sixteen, setBlock, ← same]
  rfl

private theorem agrees_load (op : i.opcode = .load) : Agrees i m := by
  by_cases within : m.memory.Within m.regs.index (i.x.val + 1)
  · obtain ⟨block, read⟩ := Memory.readBlock_of_within within
    have run : Machine.perform i m = .ok ⟨⟩ ((m.setBlock block).passBlock i.x) := by
      rw [Machine.perform, op]
      exact ask_bind (fun m => m.memory.readBlock m.regs.index (i.x.val + 1)) read _
    apply agrees_of_ok run
    rw [op, perform, get_bind, read]
    refine (bind_of_ok (setRegisters_eq (Memory.length_readBlock read)) _).trans ?_
    exact passBlock_eq i.x _
  · apply agrees_of_refused (.block (by simp [op]) within)
    rw [op, perform, get_bind, Memory.readBlock_of_not_within within]
    rfl

theorem agrees (i : Instruction) (fits : 0 ≤ m.regs.pc ∧ m.regs.pc ≤ 65535) : Agrees i m := by
  cases op : i.opcode with
  | ret => exact agrees_ret op
  | call => exact agrees_call op fits
  | draw => exact agrees_draw op
  | decimal => exact agrees_decimal op
  | store => exact agrees_store op
  | load => exact agrees_load op
  | unknown => exact agrees_unknown op
  | jumpOffset => exact agrees_jumpOffset op
  | skipIfByte | skipUnlessByte | skipIfEqual | skipUnlessEqual | skipIfKey | skipUnlessKey =>
    exact agrees_skip (by simp [op])
  | random => exact agrees_random op
  | setByte | addByte | copy | readDelay => exact agrees_assign (by simp [op])
  | or | and | xor => exact agrees_logic (by simp [op])
  | add | subtract | subtractFrom | shiftRight | shiftLeft => exact agrees_flagged (by simp [op])
  | clearScreen | sys | jump | setIndex =>
    refine agrees_of_ok (by rw [Machine.perform, op]; rfl) ?_
    rw [op]
    rfl
  | setDelay | setSound =>
    refine agrees_of_ok (by rw [Machine.perform, op]; rfl) ?_
    rw [op, perform, register_bind]
    rfl
  | glyph =>
    refine agrees_of_ok (by rw [Machine.perform, op]; rfl) ?_
    rw [op, perform, register_bind, masked_natCast, and_digit]
    rfl
  | awaitKey =>
    refine agrees_of_ok (by rw [Machine.perform, op]; rfl) ?_
    rw [op, perform, awaitKey_eq]
  | addIndex =>
    refine agrees_of_ok (by rw [Machine.perform, op]; rfl) ?_
    rw [op, perform, addToIndex_eq]

end Agreement

end Machine.Attempt

namespace Machine

variable {m : Machine}

private theorem past_fits (size : m.memory.size = memorySize) {word : UInt16}
    (fetched : m.fetch = .ok word) : 0 ≤ m.past.regs.pc ∧ m.past.regs.pc ≤ 65535 := by
  obtain ⟨low, high⟩ := within_of_fetch fetched
  have size : (m.memory.size : Int) = 4096 := congrArg Nat.cast size
  change 0 ≤ m.regs.pc + 2 ∧ m.regs.pc + 2 ≤ 65535
  omega

private theorem reading_of_fetch (size : m.memory.size = memorySize) {word : UInt16}
    (fetched : m.fetch = .ok word) :
    Attempt.inMemory (Memory.readingWord m.regs.pc) m = .ok word.toNat m := by
  obtain ⟨word', read, reading⟩ :=
    Memory.readingWord_of_within (Nat.le_of_eq size) (Memory.readWord_ok fetched)
  rw [fetch, read] at fetched
  cases fetched
  exact Attempt.inMemory_of_ok reading

/-- On a machine of the usual size a step with every check is a step without. -/
theorem checkedStep_eq (size : m.memory.size = memorySize) :
    m.checkedStep.1 = m.step.1 ∧ m.checkedStep.2 = m.step.2.mapError .fault := by
  have small : m.memory.size ≤ 4096 := Nat.le_of_eq size
  cases m.stepped with
  | unfetched cause fetched result =>
    obtain ⟨rfl, outside⟩ := Memory.readWord_error fetched
    have reading := Attempt.inMemory_of_refused (Memory.readingWord_of_not_within outside)
    rw [result, checkedStep, reading]
    exact ⟨rfl, rfl⟩
  | refused word cause fetched run result =>
    have checked := (Attempt.agrees _ (past_fits size fetched)).trans (adapt_of_error run _)
    rw [result, checkedStep, reading_of_fetch size fetched]
    dsimp only
    rw [checked]
    exact ⟨rfl, rfl⟩
  | done word after fetched run result =>
    have checked := (Attempt.agrees _ (past_fits size fetched)).trans (adapt_of_ok run _)
    rw [result, checkedStep, reading_of_fetch size fetched]
    dsimp only
    rw [checked]
    exact ⟨rfl, rfl⟩

def checkedObey (m : Machine) : Command → Machine
  | .event .step => m.checkedStep.1
  | c => m.obey c

private theorem checkedObey_eq (size : m.memory.size = memorySize) (c : Command) :
    m.checkedObey c = m.obey c := by
  cases c with
  | load program => rfl
  | reset => rfl
  | event e =>
    cases e with
    | step => exact (checkedStep_eq size).1
    | tick => rfl
    | key key down => rfl

/-- With every check any row of commands leads where it leads without. -/
theorem Reached.checked {s : Settings} (reached : Reached s m) (cs : List Command) :
    cs.foldl checkedObey m = cs.foldl obey m := by
  induction cs generalizing m with
  | nil => rfl
  | cons c cs ih =>
    rw [List.foldl_cons, List.foldl_cons, checkedObey_eq reached.sound.size, ih (reached.obeyed c)]

/-- What a step can end with, if nothing but a report of the machine itself stops it. -/
def Reports (m : Machine) (outcome : Except (Mishap Fault) Instruction) : Prop :=
  (∃ i, outcome = .ok i) ∨
    ∃ cause word, outcome = .error (.fault ⟨cause, some m.regs.pc, word⟩) ∧
      (cause = .illegalInstruction ∨ cause = .stackOverflow m.regs.stack.depth ∨
        cause = .stackUnderflow ∨ ∃ address length, cause = .outOfBounds address length)

private theorem reports_checkedStep (size : m.memory.size = memorySize) :
    m.Reports m.checkedStep.2 := by
  rw [(checkedStep_eq size).2]
  cases outcome : m.step.2 with
  | ok i => exact .inl ⟨i, rfl⟩
  | error fault =>
    right
    cases blamed_of_step outcome with
    | unfetched outside =>
      exact ⟨_, _, rfl, .inr (.inr (.inr ⟨_, _, rfl⟩))⟩
    | refused word cause fetched refused =>
      refine ⟨_, _, rfl, ?_⟩
      cases refused with
      | unknown => exact .inl rfl
      | call => exact .inr (.inl rfl)
      | ret => exact .inr (.inr (.inl rfl))
      | draw | decimal | block => exact .inr (.inr (.inr ⟨_, _, rfl⟩))

/-- Every machine that settings can lead to is in bounds. With every check, commands lead it where
they lead it without, and nothing but a report of one of four families can stop its next step: no
register, slot, key or pixel is asked to take or to be what it cannot. -/
theorem reached_in_bounds {s : Settings} (reached : Reached s m) :
    m.Sound ∧
      (s.stackDepth = .int m.regs.stack.depth ∧ m.regs.stack.sp ≤ m.regs.stack.depth) ∧
      (m.regs.v.toList.length = 16 ∧ ∀ b ∈ m.regs.v.toList, b.toNat ≤ 255) ∧
      (m.timers.delay.toNat ≤ 255 ∧ m.timers.sound.toNat ≤ 255) ∧
      (m.display.cells.toList.length = 64 * 32 ∧ m.keys.toList.length = 16) ∧
      (∀ cs : List Command, cs.foldl checkedObey m = cs.foldl obey m) ∧
      m.checkedStep.2 = m.step.2.mapError .fault ∧
      m.Reports m.checkedStep.2 := by
  have sound := reached.sound
  refine ⟨sound, ⟨reached.depth, m.regs.stack.sp_le⟩, ⟨by simp, fun b _ => ?_⟩,
    ⟨?_, ?_⟩, ⟨by simp [displayWidth, displayHeight], by simp⟩, reached.checked,
    (checkedStep_eq sound.size).2, reports_checkedStep sound.size⟩
  · have bound := b.toNat_lt
    omega
  · have bound := m.timers.delay.toNat_lt
    omega
  · have bound := m.timers.sound.toNat_lt
    omega

/-- A machine that has waited for a key and been given one. -/
def keyGiven : Machine :=
  ((loaded [0xF3, 0x0A]).obey (.event .step)).obey (.event (.key 7 true))

set_option maxRecDepth 20000 in
theorem key_given_in_bounds :
    Reached .default keyGiven ∧ keyGiven.waiting = true ∧ keyGiven.pressed = some 7 ∧
      keyGiven.Sound ∧ keyGiven.regs.stack.depth = 16 ∧
      keyGiven.Reports keyGiven.checkedStep.2 := by
  have reached : Reached .default keyGiven :=
    ((reached_loaded [0xF3, 0x0A]).obeyed (.event .step)).obeyed (.event (.key 7 true))
  obtain ⟨sound, -, -, -, -, -, -, reports⟩ := reached_in_bounds reached
  exact ⟨reached, rfl, rfl, sound, rfl, reports⟩

end Machine

end Chip8
