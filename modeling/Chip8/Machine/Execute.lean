import Chip8.Machine.Basic

/-!
Executing instructions. An instruction changes the machine piece by piece, and a cause that stops it
leaves the changes made so far; a step then only puts the program counter back. That a stopped step
still leaves everything else as it was is due to the order of checks and changes in `perform`.
-/

set_option autoImplicit false
set_option relaxedAutoImplicit false

namespace Chip8.Machine

def jumpTo (m : Machine) (pc : Int) : Machine := { m with regs := { m.regs with pc } }

def indexed (m : Machine) (index : Int) : Machine := { m with regs := { m.regs with index } }

def v (m : Machine) (x : Fin 16) : UInt8 := m.regs.get x

def setV (m : Machine) (x : Fin 16) (value : UInt8) : Machine :=
  { m with regs := m.regs.set x value }

def setFlag (m : Machine) (flag : Bool) : Machine :=
  m.setV Registers.flag (if flag then 1 else 0)

/-- The machine with its counter moved past a word. -/
def past (m : Machine) : Machine := m.jumpTo (m.regs.pc + 2)

/-- Skips the next instruction if a condition holds. -/
def skipIf (m : Machine) (condition : Bool) : Machine := if condition then m.past else m

/-- The result of a bitwise operation; some dialects clear the flag after it. -/
def setLogic (m : Machine) (x : Fin 16) (value : UInt8) : Machine :=
  let m := m.setV x value
  if m.dialect.logicClearsFlag then m.setFlag false else m

/-- The register that a shift reads. -/
def shiftSource (m : Machine) (i : Instruction) : UInt8 :=
  if m.dialect.shiftReadsY then m.v i.y else m.v i.x

/-- Moves the index past a block of registers up to `x`, in the dialects that do. -/
def passBlock (m : Machine) (x : Fin 16) : Machine :=
  if m.dialect.blockMovesIndex then m.indexed ((m.regs.index + x.val + 1) % 65536) else m

/-- The three decimal digits of a byte. -/
def decimalDigits (b : UInt8) : List UInt8 := [b / 100, b / 10 % 10, b % 10]

/-- The machine with the first registers replaced by a block of bytes. -/
def setBlock (m : Machine) (block : List UInt8) : Machine :=
  { m with
    regs := { m.regs with v := Vector.ofFn fun k => block.getD k.val (m.regs.get k) } }

/-- Waits for a key: an instruction that does not wait yet starts to, and goes on only once a key
has gone down since. -/
def awaitKey (m : Machine) (x : Fin 16) : Machine :=
  let m := if m.waiting then m else { m with waiting := true, pressed := none }
  match m.pressed with
  | none => m.jumpTo (m.regs.pc - 2)
  | some key =>
    let m := m.setV x (UInt8.ofNat key.val)
    { m with pressed := none, waiting := false }

/-- Changes to a machine, made one after the other. A cause cuts them short, and those made before
it stay made. -/
abbrev Work (α : Type) : Type := EStateM Cause Machine α

/-- Asks a part of the machine for something that it may refuse. -/
def ask {α : Type} (request : Machine → Except Cause α) : Work α := fun m =>
  match request m with
  | .ok a => .ok a m
  | .error cause => .error cause m

/-- Draws a sprite of `n` rows from the index on; the flag tells whether it put out a pixel. -/
def drawSprite (i : Instruction) : Work Unit := do
  let rows ← ask fun m => m.memory.readBlock m.regs.index i.n
  let m ← get
  let (display, hit) := m.display.draw (m.v i.x).toNat (m.v i.y).toNat
    (rows.map fun b => (b.toNat : Int)) m.dialect.clipSprites
  modify ({ · with display })
  modify (·.setFlag hit)

/-- Moves the index up by a register; some dialects then tell whether it left the 12-bit range. -/
def addToIndex (m : Machine) (x : Fin 16) : Machine :=
  let total := m.regs.index + (m.v x).toNat
  let m := m.indexed (total % 65536)
  if m.dialect.indexSetsFlag then m.setFlag (0xFFF < total) else m

/-- Carries out an instruction on a machine whose counter is already past it. -/
def perform (i : Instruction) : Work Unit :=
  match i.opcode with
  | .clearScreen => modify fun m => { m with display := m.display.clear }
  | .ret => do
    let (address, regs) ← ask (·.regs.pop)
    modify ({ · with regs })
    modify (·.jumpTo address.toNat)
  | .sys => return
  | .jump => modify (·.jumpTo i.nnn)
  | .call => do
    let stack ← ask fun m => m.regs.stack.pushAddress (UInt16.ofInt m.regs.pc)
    modify fun m => { m with regs := { m.regs with stack } }
    modify (·.jumpTo i.nnn)
  | .skipIfByte => modify fun m => m.skipIf (m.v i.x = i.nn)
  | .skipUnlessByte => modify fun m => m.skipIf (m.v i.x ≠ i.nn)
  | .skipIfEqual => modify fun m => m.skipIf (m.v i.x = m.v i.y)
  | .setByte => modify (·.setV i.x i.nn)
  | .addByte => modify fun m => m.setV i.x (m.v i.x + i.nn)
  | .copy => modify fun m => m.setV i.x (m.v i.y)
  | .or => modify fun m => m.setLogic i.x (m.v i.x ||| m.v i.y)
  | .and => modify fun m => m.setLogic i.x (m.v i.x &&& m.v i.y)
  | .xor => modify fun m => m.setLogic i.x (m.v i.x ^^^ m.v i.y)
  | .add => modify fun m =>
    (m.setV i.x (m.v i.x + m.v i.y)).setFlag (255 < (m.v i.x).toNat + (m.v i.y).toNat)
  | .subtract => modify fun m =>
    (m.setV i.x (m.v i.x - m.v i.y)).setFlag (m.v i.y ≤ m.v i.x)
  | .shiftRight => modify fun m =>
    (m.setV i.x (m.shiftSource i >>> 1)).setFlag (m.shiftSource i &&& 1 ≠ 0)
  | .subtractFrom => modify fun m =>
    (m.setV i.x (m.v i.y - m.v i.x)).setFlag (m.v i.x ≤ m.v i.y)
  | .shiftLeft => modify fun m =>
    (m.setV i.x (m.shiftSource i <<< 1)).setFlag (m.shiftSource i >>> 7 ≠ 0)
  | .skipUnlessEqual => modify fun m => m.skipIf (m.v i.x ≠ m.v i.y)
  | .setIndex => modify (·.indexed i.nnn)
  | .jumpOffset => modify fun m =>
    m.jumpTo (i.nnn + (if m.dialect.jumpReadsX then m.v i.x else m.v Registers.first).toNat)
  | .random => do
    let (byte, random) := (← get).random.nextByte
    modify ({ · with random })
    modify (·.setV i.x (byte &&& i.nn))
  | .draw => drawSprite i
  | .skipIfKey => modify fun m => m.skipIf m.keys[(m.v i.x).toNat % 16]
  | .skipUnlessKey => modify fun m => m.skipIf !m.keys[(m.v i.x).toNat % 16]
  | .readDelay => modify fun m => m.setV i.x m.timers.delay
  | .awaitKey => modify (·.awaitKey i.x)
  | .setDelay => modify fun m => { m with timers := m.timers.setDelay (m.v i.x).toNat }
  | .setSound => modify fun m => { m with timers := m.timers.setSound (m.v i.x).toNat }
  | .addIndex => modify (·.addToIndex i.x)
  | .glyph => modify fun m => m.indexed (glyphStart + (m.v i.x).toNat % 16 * glyphHeight)
  | .decimal => do
    let memory ← ask fun m => m.memory.store m.regs.index (decimalDigits (m.v i.x))
    modify ({ · with memory })
  | .store => do
    let memory ← ask fun m => m.memory.store m.regs.index (m.regs.v.toList.take (i.x.val + 1))
    modify ({ · with memory })
    modify (·.passBlock i.x)
  | .load => do
    let block ← ask fun m => m.memory.readBlock m.regs.index (i.x.val + 1)
    modify (·.setBlock block)
    modify (·.passBlock i.x)
  | .unknown => do
    if (← get).policy = .halt then throw .illegalInstruction

def fetch (m : Machine) : Except Cause UInt16 := m.memory.readWord m.regs.pc

/-- The machine stopped by a cause at the program counter, with the word that it had fetched. -/
def stop (m : Machine) (cause : Cause) (word : Option UInt16) :
    Machine × Except Fault Instruction :=
  let fault : Fault := ⟨cause, some m.regs.pc, word.map fun w => (w.toNat : Int)⟩
  ({ m with halted := true, fault := some fault }, .error fault)

/-- The machine once an instruction has been carried out. -/
def goOn (m : Machine) : Machine :=
  { m with halted := false, fault := none, cycles := m.cycles + 1 }

/-- Runs the instruction at the program counter. A machine that is stopped puts its counter back on
the instruction to blame; one that goes on is no longer halted and has counted a cycle. -/
def step (m : Machine) : Machine × Except Fault Instruction :=
  match m.fetch with
  | .error cause => m.stop cause none
  | .ok word =>
    let i := Instruction.decode word.toNat
    match (perform i).run m.past with
    | .error cause left => (left.jumpTo m.regs.pc).stop cause (some word)
    | .ok _ done => (done.goOn, .ok i)

end Chip8.Machine
