import Mathlib.Logic.Function.Basic
import Chip8.Proofs.Failure

set_option autoImplicit false
set_option relaxedAutoImplicit false

namespace Chip8.Machine

open Function (update)
open Instruction (Fits decode)

variable {m m' : Machine} {w : UInt16} {op : Opcode}

def numbers (m : Machine) (k : Fin 16) : Nat := (m.v k).toNat

/-- A step carries out a word, leaves these numbers in the registers and the index, and goes on to
the next word. Nothing else changes but the account of the run. -/
def Yields (m : Machine) (w : UInt16) (index : Int) (values : Fin 16 → Nat) : Prop :=
  ∃ m', m.step = (m', .ok (decode w.toNat)) ∧ m'.numbers = values ∧
    m' = { m with
      regs := { m.regs with v := m'.regs.v, index, pc := m.regs.pc + 2 }
      halted := false
      fault := none
      cycles := m.cycles + 1 }

private theorem numbers_setV (m : Machine) (x : Fin 16) (b : UInt8) :
    (m.setV x b).numbers = update m.numbers x b.toNat := by
  funext k
  rw [numbers, v_setV, Function.update_apply, numbers]
  split <;> rfl

private theorem numbers_setFlag (m : Machine) (flag : Bool) :
    (m.setFlag flag).numbers = update m.numbers Registers.flag flag.toNat := by
  rw [setFlag, numbers_setV]
  cases flag <;> rfl

section Carried

variable (holds : m.Holds w) {x : Fin 16}

include holds

/-- What an instruction makes of the registers and the index is what a step yields. -/
theorem yields_of_modify {f : Machine → Machine}
    (work : perform (decode w.toNat) = modify f)
    (quiet : f m.past = { m.past with
      regs := { m.past.regs with v := (f m.past).regs.v, index := (f m.past).regs.index } }) :
    m.Yields w (f m.past).regs.index (f m.past).numbers := by
  have run : (perform (decode w.toNat)).run m.past = .ok ⟨⟩ (f m.past) := by
    rw [work]
    rfl
  refine ⟨(f m.past).goOn, step_of_run (fetch_eq_ok_iff.mpr holds) run, rfl, ?_⟩
  rw [quiet]
  rfl

private theorem yields_setV {b : Machine → UInt8}
    (work : perform (decode w.toNat) = modify fun n => n.setV x (b n)) :
    m.Yields w m.regs.index (update m.numbers x (b m.past).toNat) := by
  have yields := yields_of_modify holds work rfl
  rw [numbers_setV] at yields
  exact yields

private theorem yields_flagged {b : Machine → UInt8} {c : Machine → Bool}
    (work : perform (decode w.toNat) = modify fun n => (n.setV x (b n)).setFlag (c n)) :
    m.Yields w m.regs.index
      (update (update m.numbers x (b m.past).toNat) Registers.flag (c m.past).toNat) := by
  have yields := yields_of_modify holds work rfl
  rw [numbers_setFlag, numbers_setV] at yields
  exact yields

private theorem yields_logic {b : Machine → UInt8}
    (work : perform (decode w.toNat) = modify fun n => n.setLogic x (b n)) :
    if m.dialect.logicClearsFlag then
      m.Yields w m.regs.index (update (update m.numbers x (b m.past).toNat) Registers.flag 0)
    else m.Yields w m.regs.index (update m.numbers x (b m.past).toNat) := by
  split
  · rename_i clears
    have sets := setLogic_of_clears m.past x (b m.past) clears
    have yields := yields_of_modify holds work (by rw [sets]; rfl)
    rw [sets, numbers_setFlag, numbers_setV] at yields
    exact yields
  · rename_i keeps
    have sets := setLogic_of_keeps m.past x (b m.past) keeps
    have yields := yields_of_modify holds work (by rw [sets]; rfl)
    rw [sets, numbers_setV] at yields
    exact yields

private theorem yields_addToIndex (work : perform (decode w.toNat) = modify (·.addToIndex x)) :
    m.Yields w ((m.regs.index + m.numbers x) % 65536)
      (if m.dialect.indexSetsFlag then
        update m.numbers Registers.flag (decide (0xFFF < m.regs.index + m.numbers x)).toNat
      else m.numbers) := by
  split
  · rename_i sets
    have adds := addToIndex_of_sets m.past x sets
    have yields := yields_of_modify holds work (by rw [adds]; rfl)
    rw [adds, numbers_setFlag] at yields
    exact yields
  · rename_i keeps
    have adds := addToIndex_of_keeps m.past x keeps
    have yields := yields_of_modify holds work (by rw [adds]; rfl)
    rw [adds] at yields
    exact yields

end Carried

section Byte

variable (a b : UInt8)

theorem toNat_difference : (a - b).toNat = (a.toNat + 256 - b.toNat) % 256 := by
  have bound := b.toNat_lt
  rw [UInt8.toNat_sub]
  congr 1
  omega

theorem toNat_half : (a >>> 1).toNat = a.toNat / 2 := by
  rw [UInt8.toNat_shiftRight]
  exact Nat.shiftRight_eq_div_pow a.toNat 1

theorem toNat_double : (a <<< 1).toNat = 2 * a.toNat % 256 := by
  rw [UInt8.toNat_shiftLeft]
  have one : (1 : UInt8).toNat % 8 = 1 := rfl
  rw [one, Nat.shiftLeft_eq, Nat.mul_comm]

private theorem toNat_ne_zero (small : a.toNat < 2) : (decide (a ≠ 0)).toNat = a.toNat := by
  by_cases zero : a = 0
  · rw [zero]
    rfl
  · have positive : a.toNat ≠ 0 := fun none => zero (UInt8.toNat_inj.mp none)
    have one : a.toNat = 1 := by omega
    rw [decide_eq_true zero, one]
    rfl

theorem toNat_lowest : (decide (a &&& 1 ≠ 0)).toNat = a.toNat % 2 := by
  have bit : (a &&& 1).toNat = a.toNat % 2 := by
    rw [UInt8.toNat_and]
    exact Nat.and_one_is_mod a.toNat
  have small : (a &&& 1).toNat < 2 := by omega
  exact (toNat_ne_zero _ small).trans bit

theorem toNat_highest : (decide (a >>> 7 ≠ 0)).toNat = a.toNat / 128 := by
  have bit : (a >>> 7).toNat = a.toNat / 128 := by
    rw [UInt8.toNat_shiftRight]
    exact Nat.shiftRight_eq_div_pow a.toNat 7
  have bound := a.toNat_lt
  have small : (a >>> 7).toNat < 2 := by omega
  exact (toNat_ne_zero _ small).trans bit

end Byte

private theorem numbers_shiftSource (m : Machine) (i : Instruction) :
    (m.past.shiftSource i).toNat =
      if m.dialect.shiftReadsY then m.numbers i.y else m.numbers i.x := by
  unfold shiftSource
  exact apply_ite UInt8.toNat _ _ _

/-- What a step of register arithmetic leaves behind, for numbers `a` and `b` in the two registers
and `s` in the one that a shift reads: the flag as listed, written last, so that it wins where it
falls on the result. -/
theorem registers_after_arithmetic (holds : m.Holds w) :
    let i := decode w.toNat
    let a := m.numbers i.x
    let b := m.numbers i.y
    let s := if m.dialect.shiftReadsY then b else a
    let plain (result : Nat) := m.Yields w m.regs.index (update m.numbers i.x result)
    let flagged (result : Nat) (flag : Nat) :=
      m.Yields w m.regs.index (update (update m.numbers i.x result) 15 flag)
    let logic (result : Nat) := if m.dialect.logicClearsFlag then flagged result 0 else plain result
    (Fits "7XNN" w.toNat → plain ((a + w.toNat % 256) % 256)) ∧
      (Fits "8XY0" w.toNat → plain b) ∧
      (Fits "8XY1" w.toNat → logic (a ||| b)) ∧
      (Fits "8XY2" w.toNat → logic (a &&& b)) ∧
      (Fits "8XY3" w.toNat → logic (a ^^^ b)) ∧
      (Fits "8XY4" w.toNat → flagged ((a + b) % 256) (decide (255 < a + b)).toNat) ∧
      (Fits "8XY5" w.toNat → flagged ((a + 256 - b) % 256) (decide (b ≤ a)).toNat) ∧
      (Fits "8XY6" w.toNat → flagged (s / 2) (s % 2)) ∧
      (Fits "8XY7" w.toNat → flagged ((b + 256 - a) % 256) (decide (a ≤ b)).toNat) ∧
      (Fits "8XYE" w.toNat → flagged (2 * s % 256) (s / 128)) ∧
      (Fits "FX1E" w.toNat → m.Yields w ((m.regs.index + a) % 65536)
        (if m.dialect.indexSetsFlag then
          update m.numbers 15 (decide (0xFFF < m.regs.index + a)).toNat
        else m.numbers)) := by
  have opcode (op : Opcode) (known : op ≠ .unknown) (plain : op ≠ .sys)
      (fits : Fits op.pattern w.toNat) : (decode w.toNat).opcode = op :=
    (Instruction.opcode_eq_iff known plain w).mpr fits
  have low : (decode w.toNat).nn.toNat = w.toNat % 256 := by
    rw [Instruction.nn, Instruction.word_decode]
    exact UInt16.toNat_toUInt8 w
  have source := numbers_shiftSource m (decode w.toNat)
  refine ⟨?_, ?_, ?_, ?_, ?_, ?_, ?_, ?_, ?_, ?_, ?_⟩
  · intro fits
    have op := opcode .addByte (by decide) (by decide) fits
    have yields := yields_setV holds (by rw [perform, op])
    rw [UInt8.toNat_add, low] at yields
    exact yields
  · intro fits
    have op := opcode .copy (by decide) (by decide) fits
    exact yields_setV holds (by rw [perform, op])
  · intro fits
    have op := opcode .or (by decide) (by decide) fits
    have yields := yields_logic holds (by rw [perform, op])
    rw [UInt8.toNat_or] at yields
    exact yields
  · intro fits
    have op := opcode .and (by decide) (by decide) fits
    have yields := yields_logic holds (by rw [perform, op])
    rw [UInt8.toNat_and] at yields
    exact yields
  · intro fits
    have op := opcode .xor (by decide) (by decide) fits
    have yields := yields_logic holds (by rw [perform, op])
    rw [UInt8.toNat_xor] at yields
    exact yields
  · intro fits
    have op := opcode .add (by decide) (by decide) fits
    have yields := yields_flagged holds (by rw [perform, op])
    rw [UInt8.toNat_add] at yields
    exact yields
  · intro fits
    have op := opcode .subtract (by decide) (by decide) fits
    have yields := yields_flagged holds (by rw [perform, op])
    rw [toNat_difference] at yields
    exact yields
  · intro fits
    have op := opcode .shiftRight (by decide) (by decide) fits
    have yields := yields_flagged holds (by rw [perform, op])
    rw [toNat_half, toNat_lowest, source] at yields
    exact yields
  · intro fits
    have op := opcode .subtractFrom (by decide) (by decide) fits
    have yields := yields_flagged holds (by rw [perform, op])
    rw [toNat_difference] at yields
    exact yields
  · intro fits
    have op := opcode .shiftLeft (by decide) (by decide) fits
    have yields := yields_flagged holds (by rw [perform, op])
    rw [toNat_double, toNat_highest, source] at yields
    exact yields
  · intro fits
    have op := opcode .addIndex (by decide) (by decide) fits
    exact yields_addToIndex holds (by rw [perform, op])

/-- A machine whose next word adds the flag register to itself. -/
def beforeSelfSum : Machine := (loaded [0x6F, 0xC8, 0x8F, 0xF4]).next .step

set_option maxRecDepth 20000 in
theorem self_sum_leaves_carry :
    beforeSelfSum.Holds 0x8FF4 ∧ beforeSelfSum.numbers 15 = 200 ∧
      ∃ m', beforeSelfSum.step = (m', .ok (decode 0x8FF4)) ∧ m'.numbers 15 = 1 ∧
        m'.regs.pc = 0x204 := by
  have holds : beforeSelfSum.Holds 0x8FF4 := ⟨0x8F, 0xF4, rfl, rfl, rfl⟩
  have fits : Fits "8XY4" (0x8FF4 : UInt16).toNat := by decide +kernel
  have number : beforeSelfSum.numbers 15 = 200 := by decide +kernel
  obtain ⟨-, -, -, -, -, add, -⟩ := registers_after_arithmetic holds
  obtain ⟨m', result, values, rest⟩ := add fits
  refine ⟨holds, number, m', result, ?_, ?_⟩
  · have last := congrFun values 15
    rw [Function.update_self] at last
    rw [last]
    have doubled : (decode (0x8FF4 : UInt16).toNat).x = 15 ∧
        (decode (0x8FF4 : UInt16).toNat).y = 15 := by decide +kernel
    rw [doubled.1, doubled.2, number]
    rfl
  · rw [rest]
    rfl

end Chip8.Machine
