import Chip8.Fault
import Chip8.Journal
import Chip8.Machine.Execute
import Chip8.Machine.Memory

set_option autoImplicit false
set_option relaxedAutoImplicit false

namespace Chip8.Cartridge

/-- The last part of a path. -/
def baseName (path : String) : String :=
  String.ofList (path.toList.reverse.takeWhile (· != '/')).reverse

/-- The program in a file of the given path and content. -/
def read (path : String) (content : List UInt8) : Except Cause (List UInt8) :=
  if content.length > programRoom then
    .error (.imageTooLong (baseName path) programStart content.length programRoom)
  else .ok content

def openNote (path : String) : Note := ⟨.info, .cartridge, "Loading ROM: " ++ path⟩

def readNotes (path : String) (content : List UInt8) : List Note :=
  if content.isEmpty then [⟨.warning, .cartridge, "ROM " ++ path ++ " is empty"⟩] else []

end Chip8.Cartridge

/-!
A machine together with the journal that its work is recorded in. The records of an operation
depend on the state before it alone, so the machine itself knows nothing of them.
-/

namespace Chip8

open Text.Hexadecimal (padded)

def Machine.stepNotes (m : Machine) : List Note :=
  match m.fetch with
  | .error _ => []
  | .ok word =>
    let i := Instruction.decode word.toNat
    let listing : Note := ⟨.debug, .processor, padded 3 m.regs.pc ++ ": " ++ i.render⟩
    match i.opcode, m.policy with
    | .sys, _ => [listing, ⟨.debug, .processor, "SYS call to " ++ padded 3 i.nnn ++ " ignored"⟩]
    | .unknown, .skip =>
      [listing, ⟨.warning, .processor,
        "Skipping unknown opcode " ++ padded 4 i.word.toNat ++ " at " ++ padded 3 m.regs.pc⟩]
    | _, _ => [listing]

def Memory.placeNote (size : Nat) (offset : Int) : Note :=
  ⟨.info, .memory,
    "Loaded " ++ toString size ++ " program bytes at 0x" ++ padded 3 offset⟩

/-- A machine and its journal. -/
structure Watched where
  machine : Machine
  journal : Journal

namespace Watched

def note (w : Watched) (notes : List Note) : Watched :=
  { w with journal := w.journal.addAll notes }

def update (w : Watched) (machine : Machine) : Watched := { w with machine }

def step (w : Watched) : Watched × Except Fault Instruction :=
  let journal := w.journal.addAll w.machine.stepNotes
  let (machine, result) := w.machine.step
  (⟨machine, journal⟩, result)

/-- Runs a number of instructions, up to the first fault. -/
def run (w : Watched) : Nat → Watched × Option Fault
  | 0 => (w, none)
  | n + 1 =>
    match w.step with
    | (w, .error fault) => (w, some fault)
    | (w, .ok _) => w.run n

/-- A line on an instruction that has run: the listing, then the registers after it. -/
def traceLine (m : Machine) (i : Instruction) : String :=
  i.render ++ " pc=" ++ padded 3 m.regs.pc ++ " i=" ++ padded 3 m.regs.index ++ " v=" ++
    Text.Hexadecimal.bytes m.regs.v.toList ++ " sp=" ++ toString m.regs.stack.sp

/-- Runs a number of instructions, up to the first fault, and tells of each. -/
def trace (w : Watched) : Nat → Watched × List String × Option Fault
  | 0 => (w, [], none)
  | n + 1 =>
    match w.step with
    | (w, .error fault) => (w, [], some fault)
    | (w, .ok i) =>
      let line := traceLine w.machine i
      let (w, lines, fault) := w.trace n
      (w, line :: lines, fault)

def load (w : Watched) (program : List Int) : Watched × Option Refusal :=
  let (machine, refusal) := w.machine.loadNumbers program
  let w := w.update machine
  if refusal.isNone then (w.note [Memory.placeNote program.length programStart], none)
  else (w, refusal)

end Watched

end Chip8
