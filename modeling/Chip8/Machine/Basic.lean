import Chip8.Instruction
import Chip8.Machine.Display
import Chip8.Machine.Memory
import Chip8.Machine.Registers
import Chip8.Machine.Twister

set_option autoImplicit false
set_option relaxedAutoImplicit false

namespace Chip8

/-- The state of a machine. -/
structure Machine where
  dialect : Dialect
  policy : UnknownPolicy
  memory : Memory
  regs : Registers
  timers : Timers
  display : Display displayWidth displayHeight
  keys : Vector Bool 16
  random : Twister
  /-- Whether an instruction is waiting for a key press. -/
  waiting : Bool
  /-- The key whose press the waiting instruction will see. -/
  pressed : Option (Fin 16)
  halted : Bool
  fault : Option Fault
  cycles : Nat

namespace Machine

/-- Memory with the glyphs in place and every other byte zero. -/
def bareMemory (size : Nat) : Memory := (Memory.zeroed size).withBlock glyphStart glyphs

def fresh (dialect : Dialect) (policy : UnknownPolicy) (stack : CallStack) (random : Twister) :
    Machine where
  dialect
  policy
  memory := bareMemory memorySize
  regs := Registers.initial stack
  timers := .zero
  display := .blank _ _
  keys := Vector.replicate 16 false
  random
  waiting := false
  pressed := none
  halted := false
  fault := none
  cycles := 0

/-- All as at power-on but the random stream, which goes on. -/
def reset (m : Machine) : Machine where
  dialect := m.dialect
  policy := m.policy
  memory := bareMemory m.memory.size
  regs := m.regs.reset programStart
  timers := .zero
  display := m.display.clear
  keys := Vector.replicate 16 false
  random := m.random
  waiting := false
  pressed := none
  halted := false
  fault := none
  cycles := 0

/-- Resets the machine and places a program where programs start. One that is too long is not
placed, and the machine stays reset. -/
def load (m : Machine) (program : List UInt8) : Machine × Option Cause :=
  let m := m.reset
  match m.memory.place program programStart with
  | .error c => (m, some c)
  | .ok memory => ({ m with memory }, none)

def loadNumbers (m : Machine) (program : List Int) : Machine × Option Refusal :=
  match Memory.bytesOf? program with
  | none => (m.reset, some (.misuse .notBytes))
  | some bytes =>
    let (m, c) := m.load bytes
    (m, c.map .fault)

def tick (m : Machine) : Machine := { m with timers := m.timers.tick }

def soundActive (m : Machine) : Bool := m.timers.soundActive

/-- Reports a key as down or up. The first key to go down while an instruction waits is recorded
for it. -/
def setKey (m : Machine) (key : Fin 16) (down : Bool) : Machine :=
  let recorded :=
    if down && !m.keys.get key && m.waiting && m.pressed.isNone then some key else m.pressed
  { m with keys := m.keys.setIfInBounds key down, pressed := recorded }

/-- The key of the pad that a whole number names. -/
def padKey? (key : Int) : Option (Fin 16) :=
  if h : 0 ≤ key ∧ key < 16 then some ⟨key.toNat, by omega⟩ else none

/-- Reports a key that a host names by any whole number. -/
def setKeyAt (m : Machine) (key : Int) (down : Bool) : Except Misuse Machine :=
  match padKey? key with
  | some k => .ok (m.setKey k down)
  | none => .error (.noSuchKey key)

def keysDown (m : Machine) : List (Fin 16) :=
  (List.finRange 16).filter fun k => m.keys.get k

end Machine

end Chip8
