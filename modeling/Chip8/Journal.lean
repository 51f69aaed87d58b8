/-!
The journal: what the parts of the program report as they work. A record has a level, and only
records at or above the journal's threshold are kept.
-/

set_option autoImplicit false
set_option relaxedAutoImplicit false

namespace Chip8

/-- How much a record matters. -/
inductive Level where
  | debug
  | info
  | warning
  | error
  deriving DecidableEq, Repr

namespace Level

def all : List Level := [.debug, .info, .warning, .error]

def rank : Level → Nat
  | debug => 0
  | info => 1
  | warning => 2
  | error => 3

def name : Level → String
  | debug => "DEBUG"
  | info => "INFO"
  | warning => "WARNING"
  | error => "ERROR"

def ofName? (name : String) : Option Level := all.find? fun l => l.name = name

end Level

/-- The part of the program that makes a record. -/
inductive Source where
  | processor
  | memory
  | pacer
  | cartridge
  | commandLine
  | window
  deriving DecidableEq, Repr

def Source.name : Source → String
  | .processor => "chip8vm.cpu"
  | .memory => "chip8vm.memory"
  | .pacer => "chip8vm.scheduler"
  | .cartridge => "chip8vm.rom"
  | .commandLine => "chip8vm.cli"
  | .window => "chip8vm.frontend"

/-- A record. -/
structure Note where
  level : Level
  source : Source
  text : String
  deriving DecidableEq, Repr

def Note.render (n : Note) : String :=
  n.level.name ++ " " ++ n.source.name ++ ": " ++ n.text

/-- The threshold and the records kept, the newest first. -/
structure Journal where
  threshold : Level
  kept : List Note
  deriving DecidableEq, Repr

namespace Journal

def empty (threshold : Level) : Journal := ⟨threshold, []⟩

def keeps (j : Journal) (level : Level) : Bool := j.threshold.rank ≤ level.rank

def add (j : Journal) (n : Note) : Journal :=
  if j.keeps n.level then { j with kept := n :: j.kept } else j

def addAll (j : Journal) (notes : List Note) : Journal := notes.foldl add j

def notes (j : Journal) : List Note := j.kept.reverse

/-- The journal after its records have been handed over. -/
def drained (j : Journal) : Journal := { j with kept := [] }

end Journal

end Chip8
