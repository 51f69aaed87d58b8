import Chip8.Text

set_option autoImplicit false
set_option relaxedAutoImplicit false

namespace Chip8

/-- A choice among the readings of the instructions that interpreters disagree on. -/
structure Dialect where
  /-- Pixels past an edge are dropped instead of wrapped around. -/
  clipSprites : Bool
  /-- `8XY1`, `8XY2` and `8XY3` clear the flag. -/
  logicClearsFlag : Bool
  /-- `8XY6` and `8XYE` shift the second register into the first. -/
  shiftReadsY : Bool
  /-- `BXNN` jumps past `XNN` by register `X` instead of register 0. -/
  jumpReadsX : Bool
  /-- `FX55` and `FX65` leave the index past the block. -/
  blockMovesIndex : Bool
  /-- `FX1E` sets the flag when the index leaves the 12-bit range. -/
  indexSetsFlag : Bool
  deriving DecidableEq, Repr

namespace Dialect

def modern : Dialect := ⟨false, false, false, false, false, true⟩

def cosmacVip : Dialect := ⟨true, true, true, false, true, false⟩

/-- The dialects that have a name. -/
def presets : List (String × Dialect) := [("modern", modern), ("cosmac-vip", cosmacVip)]

end Dialect

/-- What becomes of a word that matches no instruction. -/
inductive UnknownPolicy where
  | halt
  | skip
  deriving DecidableEq, Repr

def UnknownPolicy.name : UnknownPolicy → String
  | .halt => "halt"
  | .skip => "skip"

/-- The policies, in the order in which they are offered. -/
def UnknownPolicy.all : List UnknownPolicy := [.halt, .skip]

def UnknownPolicy.ofName? (name : String) : Option UnknownPolicy :=
  all.find? fun p => p.name = name

end Chip8

namespace Chip8

/-- What an instruction does. -/
inductive Opcode where
  | clearScreen
  | ret
  | sys
  | jump
  | call
  | skipIfByte
  | skipUnlessByte
  | skipIfEqual
  | setByte
  | addByte
  | copy
  | or
  | and
  | xor
  | add
  | subtract
  | shiftRight
  | subtractFrom
  | shiftLeft
  | skipUnlessEqual
  | setIndex
  | jumpOffset
  | random
  | draw
  | skipIfKey
  | skipUnlessKey
  | readDelay
  | awaitKey
  | setDelay
  | setSound
  | addIndex
  | glyph
  | decimal
  | store
  | load
  | unknown
  deriving DecidableEq, Repr

namespace Opcode

def mnemonic : Opcode → String
  | clearScreen => "CLS"
  | ret => "RET"
  | sys => "SYS"
  | jump => "JP"
  | call => "CALL"
  | skipIfByte => "SE_VX_NN"
  | skipUnlessByte => "SNE_VX_NN"
  | skipIfEqual => "SE_VX_VY"
  | setByte => "LD_VX_NN"
  | addByte => "ADD_VX_NN"
  | copy => "LD_VX_VY"
  | or => "OR"
  | and => "AND"
  | xor => "XOR"
  | add => "ADD_VX_VY"
  | subtract => "SUB"
  | shiftRight => "SHR"
  | subtractFrom => "SUBN"
  | shiftLeft => "SHL"
  | skipUnlessEqual => "SNE_VX_VY"
  | setIndex => "LD_I"
  | jumpOffset => "JP_V0"
  | random => "RND"
  | draw => "DRW"
  | skipIfKey => "SKP"
  | skipUnlessKey => "SKNP"
  | readDelay => "LD_VX_DT"
  | awaitKey => "LD_VX_K"
  | setDelay => "LD_DT_VX"
  | setSound => "LD_ST_VX"
  | addIndex => "ADD_I_VX"
  | glyph => "LD_F_VX"
  | decimal => "LD_B_VX"
  | store => "LD_I_VX"
  | load => "LD_VX_I"
  | unknown => "UNKNOWN"

/-- The pattern of the words that stand for an operation. -/
def pattern : Opcode → String
  | clearScreen => "00E0"
  | ret => "00EE"
  | sys => "0NNN"
  | jump => "1NNN"
  | call => "2NNN"
  | skipIfByte => "3XNN"
  | skipUnlessByte => "4XNN"
  | skipIfEqual => "5XY0"
  | setByte => "6XNN"
  | addByte => "7XNN"
  | copy => "8XY0"
  | or => "8XY1"
  | and => "8XY2"
  | xor => "8XY3"
  | add => "8XY4"
  | subtract => "8XY5"
  | shiftRight => "8XY6"
  | subtractFrom => "8XY7"
  | shiftLeft => "8XYE"
  | skipUnlessEqual => "9XY0"
  | setIndex => "ANNN"
  | jumpOffset => "BNNN"
  | random => "CXNN"
  | draw => "DXYN"
  | skipIfKey => "EX9E"
  | skipUnlessKey => "EXA1"
  | readDelay => "FX07"
  | awaitKey => "FX0A"
  | setDelay => "FX15"
  | setSound => "FX18"
  | addIndex => "FX1E"
  | glyph => "FX29"
  | decimal => "FX33"
  | store => "FX55"
  | load => "FX65"
  | unknown => "????"

end Opcode

end Chip8

/-!
Choosing the operation of a word by a table of masks. The table is tried from the top, so its two
full-width entries stand above the entry that contains them.
-/

namespace Chip8.Instruction.Table

/-- The words whose bits under a mask are exactly `bits`. -/
structure Entry where
  mask : Nat
  bits : Nat
  opcode : Opcode
  deriving DecidableEq, Repr

/-- Every entry, the most specific first. -/
def entries : List Entry :=
  [ ⟨0xFFFF, 0x00E0, .clearScreen⟩, ⟨0xFFFF, 0x00EE, .ret⟩, ⟨0xF000, 0x0000, .sys⟩,
    ⟨0xF000, 0x1000, .jump⟩, ⟨0xF000, 0x2000, .call⟩,
    ⟨0xF000, 0x3000, .skipIfByte⟩, ⟨0xF000, 0x4000, .skipUnlessByte⟩,
    ⟨0xF00F, 0x5000, .skipIfEqual⟩, ⟨0xF000, 0x6000, .setByte⟩, ⟨0xF000, 0x7000, .addByte⟩,
    ⟨0xF00F, 0x8000, .copy⟩, ⟨0xF00F, 0x8001, .or⟩, ⟨0xF00F, 0x8002, .and⟩,
    ⟨0xF00F, 0x8003, .xor⟩, ⟨0xF00F, 0x8004, .add⟩, ⟨0xF00F, 0x8005, .subtract⟩,
    ⟨0xF00F, 0x8006, .shiftRight⟩, ⟨0xF00F, 0x8007, .subtractFrom⟩, ⟨0xF00F, 0x800E, .shiftLeft⟩,
    ⟨0xF00F, 0x9000, .skipUnlessEqual⟩, ⟨0xF000, 0xA000, .setIndex⟩, ⟨0xF000, 0xB000, .jumpOffset⟩,
    ⟨0xF000, 0xC000, .random⟩, ⟨0xF000, 0xD000, .draw⟩,
    ⟨0xF0FF, 0xE09E, .skipIfKey⟩, ⟨0xF0FF, 0xE0A1, .skipUnlessKey⟩,
    ⟨0xF0FF, 0xF007, .readDelay⟩, ⟨0xF0FF, 0xF00A, .awaitKey⟩, ⟨0xF0FF, 0xF015, .setDelay⟩,
    ⟨0xF0FF, 0xF018, .setSound⟩, ⟨0xF0FF, 0xF01E, .addIndex⟩, ⟨0xF0FF, 0xF029, .glyph⟩,
    ⟨0xF0FF, 0xF033, .decimal⟩, ⟨0xF0FF, 0xF055, .store⟩, ⟨0xF0FF, 0xF065, .load⟩ ]

/-- The bits of a whole number under a mask, a negative number read as endless two's complement:
its bits are those that its distance below `-1` lacks. -/
def masked (mask : Nat) : Int → Nat
  | .ofNat n => n &&& mask
  | .negSucc n => mask ^^^ (n &&& mask)

def Entry.covers (e : Entry) (w : Int) : Bool :=
  masked e.mask w == e.bits

/-- The operation that a table gives a number: that of the first entry which covers it. -/
def lookup (table : List Entry) (w : Int) : Opcode :=
  match table with
  | [] => .unknown
  | e :: rest => if e.covers w then e.opcode else lookup rest w

end Chip8.Instruction.Table

namespace Chip8

/-- The operation of a number, which need not be cut to 16 bits first. -/
def Opcode.ofWord (w : Int) : Opcode :=
  Instruction.Table.lookup Instruction.Table.entries w

/-- A decoded word. -/
structure Instruction where
  word : UInt16
  opcode : Opcode
  deriving DecidableEq, Repr

namespace Instruction

/-- The instruction of the low 16 bits of a number. -/
def decode (w : Int) : Instruction :=
  let word := UInt16.ofInt w
  ⟨word, Opcode.ofWord word.toNat⟩

def kind (i : Instruction) : Nat := i.word.toNat / 4096

def x (i : Instruction) : Fin 16 := ⟨i.word.toNat / 256 % 16, Nat.mod_lt _ (by decide)⟩

def y (i : Instruction) : Fin 16 := ⟨i.word.toNat / 16 % 16, Nat.mod_lt _ (by decide)⟩

def n (i : Instruction) : Nat := i.word.toNat % 16

def nn (i : Instruction) : UInt8 := i.word.toUInt8

def nnn (i : Instruction) : Nat := i.word.toNat % 4096

def known (i : Instruction) : Bool := i.opcode ≠ .unknown

/-- An instruction in a listing: the word, then the mnemonic. -/
def render (i : Instruction) : String :=
  Text.Hexadecimal.padded 4 i.word.toNat ++ " " ++ i.opcode.mnemonic

end Instruction

end Chip8
