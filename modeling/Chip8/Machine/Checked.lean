import Chip8.Machine.Execute

set_option autoImplicit false
set_option relaxedAutoImplicit false

/-!
Instructions with nothing taken for granted. Every number is a whole number and is cut to a width
only where the instruction says so; registers, slots, keys and pixels are looked up by their place,
which may not exist, and take only what fits them. `perform` does without these checks.
-/

namespace Chip8

open Instruction.Table (masked)

/-- What can come of an instruction instead of its effect. Only reports are caught by a step. -/
inductive Mishap (ε : Type) where
  | fault (report : ε)
  | misuse (reason : Misuse)
  /-- A block would have left another number of registers than sixteen. -/
  | resized

def Mishap.ofRefusal : Refusal → Mishap Cause
  | .fault cause => .fault cause
  | .misuse reason => .misuse reason

/-- Goes on with what was granted, if it was. -/
def grant {ε ε' σ α : Type} (kind : ε → ε') : Except ε α → EStateM ε' σ α
  | .ok a => pure a
  | .error e => throw (kind e)

/-- The byte at a place of memory. -/
def Memory.cellAt (m : Memory) (i : Int) : Except Misuse UInt8 :=
  (position m.size i).map fun k => m.cells.getD k 0

/-- Reads the word at an address, byte by byte. -/
def Memory.readingWord (address : Int) : Work Refusal Nat := do
  (ensure address 2).adaptExcept .fault
  let m ← get
  let high ← grant .misuse (m.cellAt address)
  let low ← grant .misuse (m.cellAt (address + 1))
  return high.toNat <<< 8 ||| low.toNat

/-- The operands of a word as numbers. -/
structure Operands where
  x : Nat
  y : Nat
  n : Nat
  nn : Nat
  nnn : Nat

def Operands.ofWord (word : Nat) : Operands where
  x := (word &&& 0x0F00) >>> 8
  y := (word &&& 0x00F0) >>> 4
  n := word &&& 0x000F
  nn := word &&& 0x00FF
  nnn := word &&& 0x0FFF

namespace Machine

/-- Work on a machine that any mishap cuts short. What was changed before it stays changed. -/
abbrev Attempt (α : Type) : Type := EStateM (Mishap Cause) Machine α

namespace Attempt

def inMemory {α : Type} (work : Memory.Work Refusal α) : Attempt α := fun m =>
  match work m.memory with
  | .ok a memory => .ok a { m with memory }
  | .error e memory => .error (.ofRefusal e) { m with memory }

def inStack {α : Type} (work : CallStack.Work Refusal α) : Attempt α := fun m =>
  match Registers.inStack work m.regs with
  | .ok a regs => .ok a { m with regs }
  | .error e regs => .error (.ofRefusal e) { m with regs }

/-- The number in a register. -/
def register (i : Int) : Attempt Nat := do
  let b ← grant .misuse ((← get).regs.getAt i)
  return b.toNat

/-- Puts a number into a register, which takes bytes only. -/
def setRegister (i value : Int) : Attempt Unit := do
  let regs ← grant .misuse ((← get).regs.setAt i value)
  modify ({ · with regs })

def setFlag (flag : Bool) : Attempt Unit := setRegister Registers.flag.val (if flag then 1 else 0)

/-- Replaces the first `count` registers by a block of bytes. -/
def setRegisters (count : Int) (block : List UInt8) : Attempt Unit := do
  let m ← get
  let row := splice m.regs.v.toList 0 count block
  if sixteen : row.length = 16 then
    modify fun m => { m with regs := { m.regs with v := ⟨row.toArray, sixteen⟩ } }
  else throw .resized

/-- Whether a key of the pad is down. -/
def key (i : Int) : Attempt Bool := do
  let m ← get
  let k ← grant .misuse (position 16 i)
  return m.keys.toArray.getD k false

/-- Toggles a pixel; tells whether it was lit. -/
def toggle (cell : Int) : Attempt Bool := do
  let m ← get
  let k ← grant .misuse (position (displayWidth * displayHeight) cell)
  let old := m.display.cells.toArray.getD k false
  let cells := m.display.cells.setIfInBounds k !old
  modify ({ · with display := { m.display with cells } })
  return old

/-- Toggles pixels one after the other; tells whether one was lit when its turn came. -/
def toggleEach (hit : Bool) : List Nat → Attempt Bool
  | [] => return hit
  | cell :: cells => do
    let old ← toggle cell
    toggleEach (hit || old) cells

def skipIf (condition : Bool) : Attempt Unit := do
  if condition then modify past

def setLogic (x value : Nat) : Attempt Unit := do
  setRegister x value
  if (← get).dialect.logicClearsFlag then setRegister Registers.flag.val 0

/-- The number that a shift moves. -/
def shiftSource (o : Operands) : Attempt Nat := do
  if (← get).dialect.shiftReadsY then register o.y else register o.x

/-- Sets a register and then the flag. -/
def setBoth (x value : Nat) (flag : Bool) : Attempt Unit := do
  setRegister x value
  setFlag flag

def passBlock (x : Nat) : Attempt Unit := do
  if (← get).dialect.blockMovesIndex then
    modify fun m => m.indexed (masked 0xFFFF (m.regs.index + x + 1))

def drawSprite (o : Operands) : Attempt Unit := do
  let m ← get
  let rows ← grant .fault (m.memory.readBlock m.regs.index o.n)
  let x ← register o.x
  let y ← register o.y
  let covered := Display.coveredFrom displayWidth displayHeight m.dialect.clipSprites
    (x % displayWidth) (y % displayHeight) 0 (rows.map fun b => (b.toNat : Int))
  let hit ← toggleEach false covered
  modify fun m => { m with display := { m.display with dirty := true } }
  setFlag hit

def awaitKey (x : Nat) : Attempt Unit := do
  modify fun m => if m.waiting then m else { m with waiting := true, pressed := none }
  match (← get).pressed with
  | none => modify fun m => m.jumpTo (m.regs.pc - 2)
  | some key =>
    setRegister x key.val
    modify ({ · with pressed := none, waiting := false })

def addToIndex (x : Nat) : Attempt Unit := do
  let total := (← get).regs.index + (← register x)
  modify (·.indexed (masked 0xFFFF total))
  if (← get).dialect.indexSetsFlag then setFlag (0xFFF < total)

/-- Carries out an operation on a machine whose counter is already past it. -/
def perform (op : Opcode) (o : Operands) : Attempt Unit :=
  match op with
  | .clearScreen => modify fun m => { m with display := m.display.clear }
  | .ret => do
    let address ← inStack (CallStack.popping.adaptExcept .fault)
    modify (·.jumpTo address.toNat)
  | .sys => return
  | .jump => modify (·.jumpTo o.nnn)
  | .call => do
    inStack (CallStack.pushing (← get).regs.pc)
    modify (·.jumpTo o.nnn)
  | .skipIfByte => do skipIf ((← register o.x) = o.nn)
  | .skipUnlessByte => do skipIf ((← register o.x) ≠ o.nn)
  | .skipIfEqual => do skipIf ((← register o.x) = (← register o.y))
  | .setByte => setRegister o.x o.nn
  | .addByte => do setRegister o.x (masked 0xFF ((← register o.x) + o.nn))
  | .copy => do setRegister o.x (← register o.y)
  | .or => do setLogic o.x ((← register o.x) ||| (← register o.y))
  | .and => do setLogic o.x ((← register o.x) &&& (← register o.y))
  | .xor => do setLogic o.x ((← register o.x) ^^^ (← register o.y))
  | .add => do
    let total := (← register o.x) + (← register o.y)
    setBoth o.x (masked 0xFF total) (0xFF < total)
  | .subtract => do
    let x ← register o.x
    let y ← register o.y
    setBoth o.x (masked 0xFF (x - y)) (y ≤ x)
  | .shiftRight => do
    let source ← shiftSource o
    setRegister o.x (source >>> 1 : Nat)
    setRegister Registers.flag.val (source &&& 1 : Nat)
  | .subtractFrom => do
    let x ← register o.x
    let y ← register o.y
    setBoth o.x (masked 0xFF (y - x)) (x ≤ y)
  | .shiftLeft => do
    let source ← shiftSource o
    setRegister o.x (masked 0xFF (source <<< 1 : Nat))
    setRegister Registers.flag.val ((source >>> 7) &&& 1 : Nat)
  | .skipUnlessEqual => do skipIf ((← register o.x) ≠ (← register o.y))
  | .setIndex => modify (·.indexed o.nnn)
  | .jumpOffset => do
    let x := if (← get).dialect.jumpReadsX then o.x else Registers.first.val
    let offset ← register x
    modify (·.jumpTo (o.nnn + offset))
  | .random => do
    let (byte, random) := (← get).random.nextByte
    modify ({ · with random })
    setRegister o.x (byte.toNat &&& o.nn : Nat)
  | .draw => drawSprite o
  | .skipIfKey => do skipIf (← key (masked 0xF (← register o.x)))
  | .skipUnlessKey => do skipIf !(← key (masked 0xF (← register o.x)))
  | .readDelay => do setRegister o.x (← get).timers.delay.toNat
  | .awaitKey => awaitKey o.x
  | .setDelay => do
    let value ← register o.x
    modify fun m => { m with timers := m.timers.setDelay value }
  | .setSound => do
    let value ← register o.x
    modify fun m => { m with timers := m.timers.setSound value }
  | .addIndex => addToIndex o.x
  | .glyph => do
    let digit := masked 0xF (← register o.x)
    modify (·.indexed (glyphStart + digit * glyphHeight))
  | .decimal => do
    let value ← register o.x
    inMemory (Memory.writingBlock (← get).regs.index
      [(value / 100 : Nat), (value / 10 % 10 : Nat), (value % 10 : Nat)])
  | .store => do
    let m ← get
    inMemory (Memory.writingBlock m.regs.index
      ((m.regs.v.toList.take (o.x + 1)).map fun b => (b.toNat : Int)))
    passBlock o.x
  | .load => do
    let m ← get
    let block ← grant .fault (m.memory.readBlock m.regs.index (o.x + 1))
    setRegisters (o.x + 1) block
    passBlock o.x
  | .unknown => do
    if (← get).policy = .halt then throw (.fault .illegalInstruction)

end Attempt

/-- What a step makes of a mishap. A report stops the machine at the instruction to blame; anything
else leaves it as it is then. -/
def caught (left : Machine) (pc : Int) (word : Option Int) :
    Mishap Cause → Machine × Except (Mishap Fault) Instruction
  | .fault cause =>
    let fault : Fault := ⟨cause, some pc, word⟩
    ({ left.jumpTo pc with halted := true, fault := some fault }, .error (.fault fault))
  | .misuse reason => (left, .error (.misuse reason))
  | .resized => (left, .error .resized)

/-- Runs the instruction at the program counter as `step` does, with nothing taken for granted. -/
def checkedStep (m : Machine) : Machine × Except (Mishap Fault) Instruction :=
  match Attempt.inMemory (Memory.readingWord m.regs.pc) m with
  | .error mishap left => left.caught m.regs.pc none mishap
  | .ok word fetched =>
    let i := Instruction.decode word
    match Attempt.perform i.opcode (.ofWord i.word.toNat) fetched.past with
    | .error mishap left => left.caught m.regs.pc (some (word : Int)) mishap
    | .ok _ done => (done.goOn, .ok i)

end Machine

end Chip8
