import Chip8.Fault

set_option autoImplicit false
set_option relaxedAutoImplicit false

namespace Chip8

/-- The number of bytes of a machine's memory. -/
def memorySize : Nat := 4096

/-- Where programs are placed and start; everything below is reserved. -/
def programStart : Nat := 0x200

/-- The most bytes that a program can have. -/
def programRoom : Nat := memorySize - programStart

def glyphStart : Nat := 0

def glyphHeight : Nat := 5

/-- The glyphs of the digits from 0 to F, one row a byte. -/
def glyphs : List UInt8 :=
  [ 0xF0, 0x90, 0x90, 0x90, 0xF0,
    0x20, 0x60, 0x20, 0x20, 0x70,
    0xF0, 0x10, 0xF0, 0x80, 0xF0,
    0xF0, 0x10, 0xF0, 0x10, 0xF0,
    0x90, 0x90, 0xF0, 0x10, 0x10,
    0xF0, 0x80, 0xF0, 0x10, 0xF0,
    0xF0, 0x80, 0xF0, 0x90, 0xF0,
    0xF0, 0x10, 0x20, 0x40, 0x40,
    0xF0, 0x90, 0xF0, 0x90, 0xF0,
    0xF0, 0x90, 0xF0, 0x10, 0xF0,
    0xF0, 0x90, 0xF0, 0x90, 0x90,
    0xE0, 0x90, 0xE0, 0x90, 0xE0,
    0xF0, 0x80, 0x80, 0x80, 0xF0,
    0xE0, 0x90, 0x90, 0x90, 0xE0,
    0xF0, 0x80, 0xF0, 0x80, 0xF0,
    0xF0, 0x80, 0xF0, 0x80, 0x80 ]

def displayWidth : Nat := 64

def displayHeight : Nat := 32

end Chip8

/-! Rows of cells as a host may name their places: counted from the front or, when negative, from
the end. A single cell must exist; the bounds of a run of cells are moved to the ends of the row. -/

namespace Chip8

/-- The place of position `i` in a row of `size` cells. -/
def position (size : Nat) (i : Int) : Except Misuse Nat :=
  if i < -0x8000000000000000 ∨ 0x8000000000000000 ≤ i then .error .farIndex
  else
    let j := if i < 0 then i + size else i
    if j < 0 ∨ (size : Int) ≤ j then .error .noSuchCell else .ok j.toNat

/-- Where a bound of a run falls in a row of `size` cells. -/
def edge (size : Nat) (i : Int) : Nat := min (if i < 0 then i + size else i).toNat size

/-- A row with the run from `start` up to `stop` replaced. Nothing keeps the row at its length: it
grows or shrinks with what the run is replaced by. -/
def splice {α : Type} (row : List α) (start stop : Int) (cells : List α) : List α :=
  let first := edge row.length start
  row.take first ++ cells ++ row.drop (max first (edge row.length stop))

/-- Cuts work short unless a condition holds. -/
def demand {ε σ : Type} (condition : Prop) [Decidable condition] (reason : ε) :
    EStateM ε σ Unit :=
  if condition then pure () else throw reason

section Work

variable {ε ε' σ α β : Type} {s s' : σ} {a : α} {e : ε}

theorem demand_of {condition : Prop} [Decidable condition] (met : condition) (e : ε) (s : σ) :
    demand condition e s = .ok () s := by
  rw [demand, if_pos met]
  rfl

theorem demand_of_not {condition : Prop} [Decidable condition] (unmet : ¬ condition) (e : ε)
    (s : σ) : demand condition e s = .error e s := by
  rw [demand, if_neg unmet]
  rfl

theorem bind_of_ok {work : EStateM ε σ α} (done : work s = .ok a s') (next : α → EStateM ε σ β) :
    (work >>= next) s = next a s' := by
  change EStateM.bind work next s = _
  rw [EStateM.bind, done]

theorem bind_of_error {work : EStateM ε σ α} (cut : work s = .error e s')
    (next : α → EStateM ε σ β) : (work >>= next) s = .error e s' := by
  change EStateM.bind work next s = _
  rw [EStateM.bind, cut]

theorem adapt_of_ok {work : EStateM ε σ α} (done : work s = .ok a s') (f : ε → ε') :
    work.adaptExcept f s = .ok a s' := by
  rw [EStateM.adaptExcept, done]

theorem adapt_of_error {work : EStateM ε σ α} (cut : work s = .error e s') (f : ε → ε') :
    work.adaptExcept f s = .error (f e) s' := by
  rw [EStateM.adaptExcept, cut]

end Work

/-- What work on a state comes to: a result and the state that it leaves, or the reason that cut it
short. The state that was left then is forgotten. -/
def settled {ε σ α : Type} (work : EStateM ε σ α) (s : σ) : Except ε (α × σ) :=
  match work s with
  | .ok a s => .ok (a, s)
  | .error e _ => .error e

/-- The state that work leaves, cut short or not, beside what it comes to. -/
def leaving {ε σ α β : Type} (reply : α → β) (s : σ) (work : EStateM ε σ α) : σ × Except ε β :=
  match work s with
  | .ok a left => (left, .ok (reply a))
  | .error e left => (left, .error e)

end Chip8

namespace Chip8

/-- A row of bytes addressed from zero. -/
structure Memory where
  cells : Array UInt8
  deriving DecidableEq

namespace Memory

def size (m : Memory) : Nat := m.cells.size

/-- Memory of a given size with every byte zero. -/
def zeroed (size : Nat) : Memory := ⟨Array.replicate size 0⟩

/-- Memory of a size that may be asked for as any whole number. -/
def ofSize (size : Int) : Except Misuse Memory :=
  if size < 0 then .error .negativeSize else .ok (zeroed size.toNat)

/-- The byte at an address, where there is one. -/
def get? (m : Memory) (address : Int) : Option UInt8 :=
  if address < 0 then none else m.cells[address.toNat]?

/-- Whether `length` bytes at `address` lie within memory. -/
def Within (m : Memory) (address length : Int) : Prop :=
  0 ≤ address ∧ 0 ≤ length ∧ address + length ≤ m.size

instance (m : Memory) (address length : Int) : Decidable (m.Within address length) :=
  inferInstanceAs (Decidable (_ ∧ _))

/-- Accepts exactly the accesses that lie within memory. -/
def check (m : Memory) (address length : Int) : Except Cause Unit :=
  if m.Within address length then .ok () else .error (.outOfBounds address length)

def read (m : Memory) (address : Int) : Except Cause UInt8 := do
  m.check address 1
  return m.cells.getD address.toNat 0

/-- The two bytes at an address as a word, the higher byte first. -/
def readWord (m : Memory) (address : Int) : Except Cause UInt16 := do
  m.check address 2
  let high := m.cells.getD address.toNat 0
  let low := m.cells.getD (address.toNat + 1) 0
  return UInt16.ofNat (high.toNat * 256 + low.toNat)

def readBlock (m : Memory) (address length : Int) : Except Cause (List UInt8) := do
  m.check address length
  return (m.cells.extract address.toNat (address.toNat + length.toNat)).toList

/-- Work on a memory. A refusal cuts it short, and what was changed before it stays changed. -/
abbrev Work (ε α : Type) : Type := EStateM ε Memory α

/-- Cuts work short unless `length` bytes at `address` lie within memory. -/
def ensure (address length : Int) : Work Cause Unit := do
  let m ← get
  demand (m.Within address length) (.outOfBounds address length)

/-- Memory with the bytes from an address on replaced by as many others. -/
def withBlock (m : Memory) (address : Int) (bytes : List UInt8) : Memory :=
  ⟨(splice m.cells.toList address (address + bytes.length) bytes).toArray⟩

/-- Puts a block of bytes at an address. -/
def storing (address : Int) (bytes : List UInt8) : Work Cause Unit := do
  ensure address bytes.length
  modify (·.withBlock address bytes)

/-- Puts the low eight bits of a number at an address. -/
def writing (address value : Int) : Work Cause Unit := storing address [UInt8.ofInt value]

/-- The bytes that a list of numbers stands for, if each is one. -/
def bytesOf? : List Int → Option (List UInt8)
  | [] => some []
  | v :: vs =>
    if 0 ≤ v ∧ v < 256 then (bytesOf? vs).map (UInt8.ofInt v :: ·) else none

/-- Puts a block of numbers at an address; all must be bytes, whatever the address. -/
def writingBlock (address : Int) (values : List Int) : Work Refusal Unit :=
  match bytesOf? values with
  | none => throw (.misuse .notBytes)
  | some bytes => (storing address bytes).adaptExcept .fault

/-- Places a program: its end is checked against the size first, then the block itself. -/
def placing (program : List UInt8) (offset : Int) : Work Cause Unit := do
  let m ← get
  demand (offset + program.length ≤ m.size)
    (.programTooLong offset program.length (m.size - offset))
  storing offset program

def loadingProgram (program : List Int) (offset : Int) : Work Refusal Unit :=
  match bytesOf? program with
  | none => throw (.misuse .notBytes)
  | some bytes => (placing bytes offset).adaptExcept .fault

def store (m : Memory) (address : Int) (bytes : List UInt8) : Except Cause Memory :=
  (settled (storing address bytes) m).map (·.2)

def write (m : Memory) (address value : Int) : Except Cause Memory :=
  (settled (writing address value) m).map (·.2)

def writeBlock (m : Memory) (address : Int) (values : List Int) : Except Refusal Memory :=
  (settled (writingBlock address values) m).map (·.2)

/-- Memory of the same size with every byte zero. -/
def clear (m : Memory) : Memory := zeroed m.size

def place (m : Memory) (program : List UInt8) (offset : Int) : Except Cause Memory :=
  (settled (placing program offset) m).map (·.2)

def loadProgram (m : Memory) (program : List Int) (offset : Int) : Except Refusal Memory :=
  (settled (loadingProgram program offset) m).map (·.2)

end Memory

end Chip8
