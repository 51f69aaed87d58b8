import Chip8.Fault
import Chip8.Machine.Memory

set_option autoImplicit false
set_option relaxedAutoImplicit false

namespace Chip8

/-- Slots for return addresses and how many of them are in use. -/
structure CallStack where
  slots : Array UInt16
  sp : Nat
  sp_le : sp ≤ slots.size
  deriving DecidableEq

namespace CallStack

def depth (s : CallStack) : Nat := s.slots.size

/-- A stack of a given depth with every slot zero and none in use. -/
def empty (depth : Nat) : CallStack := ⟨Array.replicate depth 0, 0, Nat.zero_le _⟩

/-- A stack of a depth that may be asked for as any whole number. Whether the host has memory for it
is left out: one that is granted here may be far too deep for that. -/
def ofDepth (depth : Int) : Except Misuse CallStack :=
  if depth < 0 then .error .negativeDepth
  else if depth ≥ 0x8000000000000000 then .error .hugeDepth
  else if depth ≥ 0x4000000000000000 then .error .uncountableDepth
  else .ok (empty depth.toNat)

/-- The return addresses in use, the oldest first. -/
def frames (s : CallStack) : List UInt16 := s.slots.toList.take s.sp

def pushAddress (s : CallStack) (address : UInt16) : Except Cause CallStack :=
  if h : s.sp < s.slots.size then
    .ok ⟨s.slots.set s.sp address, s.sp + 1, by rw [Array.size_set]; exact h⟩
  else
    .error (.stackOverflow s.depth)

/-- Work on a call stack. A refusal cuts it short, and what was changed before it stays changed. -/
abbrev Work (ε α : Type) : Type := EStateM ε CallStack α

/-- Puts a whole number into the slot above the addresses in use, which must be able to hold it. -/
def writeAbove (address : Int) : Work Misuse Unit := do
  demand (0 ≤ address ∧ address ≤ 65535) .wideAddress
  modify fun s =>
    ⟨s.slots.setIfInBounds s.sp (UInt16.ofInt address), s.sp, by
      rw [Array.size_setIfInBounds]; exact s.sp_le⟩

/-- Takes one slot more into use, while there is one. -/
def grow (s : CallStack) : CallStack :=
  if room : s.sp < s.slots.size then ⟨s.slots, s.sp + 1, room⟩ else s

/-- Takes the last slot out of use, if one is. -/
def shrink (s : CallStack) : CallStack := ⟨s.slots, s.sp - 1, Nat.le_trans (Nat.pred_le _) s.sp_le⟩

/-- Puts a number on top. A full stack is reported before a number that no slot holds. -/
def pushing (address : Int) : Work Refusal Unit := do
  let s ← get
  demand (s.sp < s.depth) (.fault (.stackOverflow s.depth))
  (writeAbove address).adaptExcept .misuse
  modify grow

/-- Takes the top address off. -/
def popping : Work Cause UInt16 := do
  let s ← get
  demand (0 < s.sp) .stackUnderflow
  modify shrink
  let s ← get
  return s.slots.getD s.sp 0

def push (s : CallStack) (address : Int) : Except Refusal CallStack :=
  (settled (pushing address) s).map (·.2)

def pop (s : CallStack) : Except Cause (UInt16 × CallStack) := settled popping s

/-- A stack of the same depth with every slot zero and none in use. -/
def clear (s : CallStack) : CallStack := empty s.depth

end CallStack

end Chip8

/-!
The register file: sixteen byte registers, the index register, the program counter and the call
stack. The index and the counter are whole numbers, since a host may set them to any.
-/

namespace Chip8

/-- The byte registers, the index, the program counter and the call stack. -/
structure Registers where
  v : Vector UInt8 16
  index : Int
  pc : Int
  stack : CallStack
  deriving DecidableEq

namespace Registers

/-- The number of the register that a jump adds to its address in most dialects. -/
def first : Fin 16 := 0

/-- The number of the register that flags are written to. -/
def flag : Fin 16 := 15

/-- The registers at power-on, with a stack of the given depth. -/
def initial (stack : CallStack) : Registers :=
  ⟨Vector.replicate 16 0, 0, programStart, stack.clear⟩

/-- All zero but the program counter; the stack keeps its depth. -/
def reset (r : Registers) (pc : Int) : Registers :=
  ⟨Vector.replicate 16 0, 0, pc, r.stack.clear⟩

def get (r : Registers) (x : Fin 16) : UInt8 := r.v[x]

def set (r : Registers) (x : Fin 16) (value : UInt8) : Registers :=
  { r with v := r.v.set x value }

/-- The value of a register that a host names by any whole number. -/
def getAt (r : Registers) (i : Int) : Except Misuse UInt8 :=
  (position 16 i).map fun k => r.v.toArray.getD k 0

/-- Sets a register that a host names to a number that it gives; the number is checked first,
unless the name is out of all bounds. -/
def setAt (r : Registers) (i value : Int) : Except Misuse Registers :=
  match position 16 i with
  | .error .farIndex => .error .farIndex
  | place =>
    if value < 0 ∨ 255 < value then .error .registerValue
    else place.map fun k => { r with v := r.v.setIfInBounds k (UInt8.ofInt value) }

/-- Work on the call stack of a register file. -/
def inStack {ε α : Type} (work : CallStack.Work ε α) : EStateM ε Registers α := fun r =>
  match work r.stack with
  | .ok a stack => .ok a { r with stack }
  | .error e stack => .error e { r with stack }

def push (r : Registers) (address : Int) : Except Refusal Registers :=
  (settled (inStack (CallStack.pushing address)) r).map (·.2)

def pop (r : Registers) : Except Cause (UInt16 × Registers) :=
  settled (inStack CallStack.popping) r

end Registers

end Chip8

namespace Chip8

/-- The two countdown timers. -/
structure Timers where
  delay : UInt8
  sound : UInt8
  deriving DecidableEq, Repr

namespace Timers

def zero : Timers := ⟨0, 0⟩

/-- The byte nearest to a whole number. -/
def clamp (value : Int) : UInt8 :=
  if value < 0 then 0 else if 255 < value then 255 else UInt8.ofInt value

def countDown (b : UInt8) : UInt8 :=
  if b = 0 then 0 else b - 1

def tick (t : Timers) : Timers := ⟨countDown t.delay, countDown t.sound⟩

/-- Sets the delay timer to the byte nearest to a number. -/
def setDelay (t : Timers) (value : Int) : Timers := { t with delay := clamp value }

/-- Sets the sound timer to the byte nearest to a number. -/
def setSound (t : Timers) (value : Int) : Timers := { t with sound := clamp value }

def soundActive (t : Timers) : Bool := 0 < t.sound

end Timers

end Chip8
