import Chip8.Proofs.Footprint
import Chip8.Proofs.Subroutine

set_option autoImplicit false
set_option relaxedAutoImplicit false

namespace Chip8.Machine

open Instruction (Fits decode)

variable {s : Settings} {m m' : Machine} {i : Instruction} {calls : List Int}

/-- The return addresses of the open calls after a command, given those before it: a call opens one,
a return closes the latest, and loading or resetting forgets them all. -/
def callsAfter (m : Machine) (calls : List Int) : Command → List Int
  | .load _ => []
  | .reset => []
  | .event .step =>
    match m.step.2 with
    | .ok i =>
      if i.opcode = .call then calls ++ [m.regs.pc + 2]
      else if i.opcode = .ret then calls.dropLast
      else calls
    | .error _ => calls
  | .event .tick => calls
  | .event (.key _ _) => calls

/-- The machines that settings can lead to, each with the return addresses that were pushed on the
way there and not popped since, the latest last. -/
inductive OpenCalls (s : Settings) : Machine → List Int → Prop where
  | built {m : Machine} (build : s.machine = .ok m) (random : Twister) :
      OpenCalls s { m with random } []
  | obeyed {m : Machine} {calls : List Int} (opened : OpenCalls s m calls) (c : Command) :
      OpenCalls s (m.obey c) (m.callsAfter calls c)

private theorem Reached.openCalls (reached : Reached s m) : ∃ calls, OpenCalls s m calls := by
  induction reached with
  | built build random => exact ⟨[], .built build random⟩
  | obeyed reached c ih =>
    obtain ⟨calls, opened⟩ := ih
    exact ⟨_, opened.obeyed c⟩

theorem OpenCalls.reached (opened : OpenCalls s m calls) : Reached s m := by
  induction opened with
  | built build random => exact .built build random
  | obeyed opened c ih => exact ih.obeyed c

def returns (m : Machine) : List Int := m.regs.stack.frames.map fun a => (a.toNat : Int)

private theorem returns_of_stack (same : m'.regs.stack = m.regs.stack) :
    m'.returns = m.returns := by
  rw [returns, returns, same]

private theorem returns_reset (m : Machine) : m.reset.returns = [] := by
  have cleared : m.reset.regs.stack = m.regs.stack.clear := by
    simp only [reset, Registers.reset]
  rw [returns, cleared]
  rfl

private theorem returns_load (m : Machine) (program : List UInt8) :
    (m.load program).1.returns = [] := by
  rw [← returns_reset m]
  unfold load
  dsimp only
  split
  · rfl
  · exact returns_of_stack rfl

private theorem returns_step (sound : m.Sound) :
    m.step.1.returns = m.callsAfter m.returns (.event .step) := by
  unfold callsAfter
  cases m.stepped with
  | unfetched cause fetched result =>
    rw [result]
    rfl
  | refused word cause fetched run result =>
    rw [result]
    rfl
  | done word after fetched run result =>
    rw [result]
    dsimp only
    split
    · rename_i call
      obtain ⟨-, -, fits⟩ := sound.return_address fetched
      rw [returns, frames_of_call result call, List.map_append, List.map_singleton, fits]
      rfl
    · split
      · rename_i ret
        obtain ⟨address, popped, -⟩ := frames_of_ret result ret
        rw [returns, returns, popped, List.map_append, List.map_singleton, List.dropLast_concat]
      · rename_i call ret
        exact returns_of_stack ((perform_effect run).kept.stack call ret)

/-- The stack holds the return addresses of the open calls. -/
theorem OpenCalls.returns_eq (opened : OpenCalls s m calls) : m.returns = calls := by
  induction opened with
  | built build random =>
    obtain ⟨depth, random', -, rfl⟩ := Settings.machine_ok build
    rfl
  | @obeyed n calls opened c ih =>
    cases c with
    | load program => exact returns_load n program
    | reset => exact returns_reset n
    | event e =>
      cases e with
      | tick => exact ih
      | key key down =>
        obtain ⟨keys, pressed, result, -⟩ := next_key_kept n key down
        rw [obey, result]
        exact ih
      | step =>
        rw [← ih]
        exact returns_step opened.reached.sound

private theorem eq_nn_iff (b : UInt8) : b = i.nn ↔ b.toNat = i.word.toNat % 256 := by
  rw [← UInt8.toNat_inj, Instruction.nn, UInt16.toNat_toUInt8]

section Counter

variable (done : m.step = (m', .ok i))

include done

private theorem holds_of_step : m.Holds i.word ∧ i = decode i.word.toNat := by
  obtain ⟨word, after, fetched, rfl, -⟩ := run_of_step (congrArg Prod.snd done)
  rw [Instruction.word_decode]
  exact ⟨fetch_eq_ok_iff.mp fetched, rfl⟩

private theorem opcode_of_fits (op : Opcode) (fits : Fits op.pattern i.word.toNat)
    (known : op ≠ .unknown)
    (plain : op ≠ .sys) : i.opcode = op :=
  (congrArg Instruction.opcode (holds_of_step done).2).trans
    ((Instruction.opcode_eq_iff known plain i.word).mpr fits)

private theorem pc_of_modify {f : Machine → Machine} (work : perform i = modify f) :
    m'.regs.pc = (f m.past).regs.pc := by
  obtain ⟨word, after, -, -, run, next⟩ := run_of_step (congrArg Prod.snd done)
  rw [done] at next
  obtain rfl : m' = after.goOn := next
  rw [work] at run
  cases run
  rfl

private theorem pc_of_skip {condition : Machine → Bool}
    (work : perform i = modify fun n => n.skipIf (condition n)) {holds : Prop}
    (means : condition m.past = true ↔ holds) :
    (holds → m'.regs.pc = m.regs.pc + 4) ∧ (¬ holds → m'.regs.pc = m.regs.pc + 2) := by
  have twice : m.past.regs.pc + 2 = m.regs.pc + 4 := Int.add_assoc _ _ _
  rw [← means, pc_of_modify done work, skipIf_pc]
  exact ⟨fun skips => (if_pos skips).trans twice, fun stays => if_neg stays⟩

private theorem pc_of_call (op : i.opcode = .call) : m'.regs.pc = i.nnn := by
  obtain ⟨word, after, -, -, effect, rfl⟩ := effect_of_step done
  cases effect with
  | call op' stack pushed => rfl
  | _ => simp_all

private theorem pc_of_ret (op : i.opcode = .ret) : m.returns.getLast? = some m'.regs.pc := by
  obtain ⟨address, popped, goes⟩ := frames_of_ret done op
  rw [returns, popped, List.map_append, List.map_singleton, List.getLast?_concat, goes]

/-- The counter stays on a wait until a press is recorded. A press is recorded only while an
instruction waits already. -/
theorem pc_of_awaitKey (sound : m.Sound) (op : i.opcode = .awaitKey) :
    m'.regs.pc = if m.pressed = none then m.regs.pc else m.regs.pc + 2 := by
  have back : m.past.regs.pc - 2 = m.regs.pc := Int.add_sub_cancel _ _
  have forth : m.past.regs.pc = m.regs.pc + 2 := rfl
  rw [pc_of_modify done (by rw [perform, op])]
  cases pressed : m.pressed with
  | none =>
    rw [if_pos rfl, ← back]
    rcases awaitKey_cases i.x m.past with start | ⟨-, -, stall⟩ | ⟨key, -, given, -⟩
    · rw [start]
      rfl
    · rw [stall]
      rfl
    · exact absurd (given.symm.trans pressed) (by simp)
  | some key =>
    have waiting : m.waiting = true := sound.recorded (by rw [pressed]; rfl)
    rw [if_neg (by simp), ← forth, awaitKey_of_some i.x (m := m.past) waiting pressed]
    rfl

end Counter

/-- The operations that take the counter elsewhere than to the next word. -/
def turns : List Opcode :=
  [.jump, .call, .ret, .jumpOffset, .skipIfByte, .skipUnlessByte, .skipIfEqual, .skipUnlessEqual,
    .skipIfKey, .skipUnlessKey, .awaitKey]

private theorem Effect.straight (effect : Effect i m m') (op : i.opcode ∉ turns) :
    m'.regs.pc = m.regs.pc := by
  have elsewhere {ops : List Opcode} (listed : i.opcode ∈ ops) (apart : ∀ o ∈ ops, o ∈ turns) :
      False := op (apart _ listed)
  cases effect with
  | skip listed condition => exact (elsewhere listed (by decide)).elim
  | jump listed b => exact (elsewhere listed (by decide)).elim
  | call listed stack pushed => simp_all [turns]
  | ret listed address stack popped => simp_all [turns]
  | await listed => simp_all [turns]
  | logic listed b => exact setLogic_pc m i.x b
  | addIndex listed => exact addToIndex_pc m i.x
  | store listed memory stored => exact passBlock_pc _ i.x
  | load listed block read => exact (passBlock_pc _ i.x).trans (setBlock_pc m block)
  | _ => rfl

private theorem pc_of_straight (done : m.step = (m', .ok i)) (op : i.opcode ∉ turns) :
    m'.regs.pc = m.regs.pc + 2 := by
  obtain ⟨word, after, -, -, effect, rfl⟩ := effect_of_step done
  exact effect.straight op

private theorem step_beyond (sound : m.Sound) (beyond : 4094 < m.regs.pc) :
    m.step.2 = .error ⟨.outOfBounds m.regs.pc 2, some m.regs.pc, none⟩ := by
  have outside : ¬ m.memory.Within m.regs.pc 2 :=
    (not_within_iff sound.size sound.pc.1 (by decide)).mpr (by omega)
  exact step_error_iff.mpr (.unfetched outside)

/-- Where a step that succeeds goes on, by the pattern that fits the word it has carried out. Where
that is no place for a word, the next step fails there. -/
theorem counter_after_step (reached : Reached s m) (done : m.step = (m', .ok i)) :
    let w := i.word.toNat
    let p := m.regs.pc
    let nnn : Int := (w % 4096 : Nat)
    let skips (condition : Prop) :=
      (condition → m'.regs.pc = p + 4) ∧ (¬ condition → m'.regs.pc = p + 2)
    m.Holds i.word ∧
      (FitsOne ["1NNN", "2NNN"] i.word → m'.regs.pc = nnn) ∧
      (Fits "00EE" w → (∃ calls, OpenCalls s m calls) ∧
        ∀ calls, OpenCalls s m calls → calls.getLast? = some m'.regs.pc) ∧
      (Fits "BNNN" w → m'.regs.pc = nnn + (m.v (if m.dialect.jumpReadsX then i.x else 0)).toNat) ∧
      (Fits "3XNN" w → skips ((m.v i.x).toNat = w % 256)) ∧
      (Fits "4XNN" w → skips ((m.v i.x).toNat ≠ w % 256)) ∧
      (Fits "5XY0" w → skips (m.v i.x = m.v i.y)) ∧
      (Fits "9XY0" w → skips (m.v i.x ≠ m.v i.y)) ∧
      (Fits "EX9E" w → skips (m.keys[(m.v i.x).toNat % 16] = true)) ∧
      (Fits "EXA1" w → skips (m.keys[(m.v i.x).toNat % 16] = false)) ∧
      (Fits "FX0A" w → m'.regs.pc = if m.pressed = none then p else p + 2) ∧
      (¬ FitsOne ["1NNN", "2NNN", "00EE", "BNNN", "3XNN", "4XNN", "5XY0", "9XY0", "EX9E", "EXA1",
          "FX0A"] i.word → m'.regs.pc = p + 2) ∧
      (4094 < m'.regs.pc →
        m'.step.2 = .error ⟨.outOfBounds m'.regs.pc 2, some m'.regs.pc, none⟩) := by
  obtain ⟨here, same⟩ := holds_of_step done
  refine ⟨here, ?_, ?_, ?_, ?_, ?_, ?_, ?_, ?_, ?_, ?_, ?_, ?_⟩
  · rintro ⟨pattern, listed, fits⟩
    simp only [List.mem_cons, List.not_mem_nil, or_false] at listed
    rcases listed with rfl | rfl
    · have op := opcode_of_fits done .jump fits (by decide) (by decide)
      exact pc_of_modify done (by rw [perform, op])
    · exact pc_of_call done (opcode_of_fits done .call fits (by decide) (by decide))
  · intro fits
    have op := opcode_of_fits done .ret fits (by decide) (by decide)
    refine ⟨reached.openCalls, fun calls opened => ?_⟩
    rw [← opened.returns_eq]
    exact pc_of_ret done op
  · intro fits
    have op := opcode_of_fits done .jumpOffset fits (by decide) (by decide)
    rw [pc_of_modify done (by rw [perform, op]), apply_ite m.v]
    rfl
  · intro fits
    have op := opcode_of_fits done .skipIfByte fits (by decide) (by decide)
    exact pc_of_skip done (by rw [perform, op]) (decide_eq_true_iff.trans (eq_nn_iff _))
  · intro fits
    have op := opcode_of_fits done .skipUnlessByte fits (by decide) (by decide)
    exact pc_of_skip done (by rw [perform, op]) (decide_eq_true_iff.trans (not_congr (eq_nn_iff _)))
  · intro fits
    have op := opcode_of_fits done .skipIfEqual fits (by decide) (by decide)
    exact pc_of_skip done (by rw [perform, op]) decide_eq_true_iff
  · intro fits
    have op := opcode_of_fits done .skipUnlessEqual fits (by decide) (by decide)
    exact pc_of_skip done (by rw [perform, op]) decide_eq_true_iff
  · intro fits
    have op := opcode_of_fits done .skipIfKey fits (by decide) (by decide)
    exact pc_of_skip done (by rw [perform, op]) Iff.rfl
  · intro fits
    have op := opcode_of_fits done .skipUnlessKey fits (by decide) (by decide)
    exact pc_of_skip done (by rw [perform, op]) (Bool.not_eq_true' _).to_iff
  · intro fits
    have op := opcode_of_fits done .awaitKey fits (by decide) (by decide)
    exact pc_of_awaitKey done reached.sound op
  · intro unfit
    refine pc_of_straight done fun op => unfit ?_
    rw [same] at op
    exact fitsOne_of_mem op (by decide)
  · intro beyond
    have next : m' = m.step.1 := (congrArg Prod.fst done).symm
    rw [next] at beyond ⊢
    exact step_beyond reached.sound.step beyond

/-- A machine whose next word jumps as far as a word can. -/
def beforeFarJump : Machine := (loaded [0x60, 0xFF, 0xBF, 0xFF]).next .step

set_option maxRecDepth 20000 in
theorem far_jump_fails_next :
    Reached .default beforeFarJump ∧ beforeFarJump.step.2 = .ok (decode 0xBFFF) ∧
      beforeFarJump.step.1.regs.pc = 0x10FE ∧
      beforeFarJump.step.1.step.2 = .error ⟨.outOfBounds 0x10FE 2, some 0x10FE, none⟩ := by
  have reached : Reached .default beforeFarJump := (reached_loaded _).obeyed (.event .step)
  have done : beforeFarJump.step = (beforeFarJump.step.1, .ok (decode 0xBFFF)) := rfl
  obtain ⟨-, -, -, offset, -, -, -, -, -, -, -, -, beyond⟩ := counter_after_step reached done
  have fits : Fits "BNNN" (decode 0xBFFF).word.toNat := by decide +kernel
  have goes : beforeFarJump.step.1.regs.pc = 0x10FE := by
    rw [offset fits]
    decide +kernel
  rw [goes] at beyond
  exact ⟨reached, congrArg Prod.snd done, goes, beyond (by decide)⟩

end Chip8.Machine
