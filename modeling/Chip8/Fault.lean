import Chip8.Text

/-!
What can go wrong: `Cause` and `Fault` are reports of the machine itself, `Misuse` is an argument
that no operation of a part of the machine accepts. The wording of each stands in one place.
-/

set_option autoImplicit false
set_option relaxedAutoImplicit false

namespace Chip8

open Text.Hexadecimal (padded)

/-- The families of machine reports. -/
inductive Fault.Kind where
  | general
  | illegalInstruction
  | stackOverflow
  | stackUnderflow
  | outOfBounds
  deriving DecidableEq, Repr

/-- The name of a family, which is also its text when a report says nothing else. -/
def Fault.Kind.name : Fault.Kind → String
  | .general => "Chip8Error"
  | .illegalInstruction => "DecodeError"
  | .stackOverflow => "StackOverflow"
  | .stackUnderflow => "StackUnderflow"
  | .outOfBounds => "MemoryOutOfBounds"

/-- Why the machine refuses to go on. -/
inductive Cause where
  /-- The word matches no instruction. -/
  | illegalInstruction
  /-- A call with every slot of a stack of this depth in use. -/
  | stackOverflow (depth : Nat)
  /-- A return with no call to return from. -/
  | stackUnderflow
  /-- An access to `length` bytes at `address` that does not lie within memory. -/
  | outOfBounds (address length : Int)
  /-- A program of `size` bytes for `offset`, where only `room` bytes are left. -/
  | programTooLong (offset : Int) (size : Nat) (room : Int)
  /-- A program file of `size` bytes meant for `offset`, where `room` bytes are left. -/
  | imageTooLong (name : String) (offset : Int) (size room : Nat)
  deriving DecidableEq, Repr

def Cause.kind : Cause → Fault.Kind
  | .illegalInstruction => .illegalInstruction
  | .stackOverflow _ => .stackOverflow
  | .stackUnderflow => .stackUnderflow
  | .outOfBounds _ _ => .outOfBounds
  | .programTooLong _ _ _ => .outOfBounds
  | .imageTooLong _ _ _ _ => .outOfBounds

/-- The text for an access outside memory: its first address and, past one byte, its last. -/
def boundsText (address length : Int) : String :=
  if length > 1 then
    "Memory access out of bounds: 0x" ++ padded 3 address ++ "..0x" ++
      padded 3 (address + length - 1)
  else
    "Memory access out of bounds: 0x" ++ padded 3 address

def Cause.text : Cause → String
  | .illegalInstruction => "Illegal instruction"
  | .stackOverflow depth => "Stack overflow (depth " ++ toString depth ++ ")"
  | .stackUnderflow => "Return with empty stack"
  | .outOfBounds address length => boundsText address length
  | .programTooLong _ size room =>
    "Program of " ++ toString size ++ " bytes does not fit (max " ++ toString room ++ ")"
  | .imageTooLong name _ size room =>
    "ROM " ++ name ++ " is " ++ toString size ++ " bytes, max is " ++ toString room

/-- The address and length of the access, for the causes that concern memory. -/
def Cause.extent : Cause → Option (Int × Int)
  | .outOfBounds address length => some (address, length)
  | .programTooLong offset size _ => some (offset, size)
  | .imageTooLong _ offset size _ => some (offset, size)
  | _ => none

/-- A cause and, once an instruction is to blame, where it stood and which word it was. -/
structure Fault where
  cause : Cause
  pc : Option Int
  word : Option Int
  deriving DecidableEq, Repr

/-- A fault that no instruction is to blame for. -/
def Cause.toFault (c : Cause) : Fault := ⟨c, none, none⟩

/-- A report as a reader sees it. -/
structure Report where
  kind : Fault.Kind
  text : String
  pc : Option Int
  word : Option Int
  extent : Option (Int × Int)
  deriving DecidableEq, Repr

/-- The text of a report: what it says, or else its family; then the place, then the word. -/
def Report.message (r : Report) : String :=
  let head := if r.text = "" then r.kind.name else r.text
  match r.pc with
  | none => head
  | some pc =>
    let place := head ++ " at PC=0x" ++ padded 3 pc
    match r.word with
    | none => place
    | some word => place ++ " (opcode 0x" ++ padded 4 word ++ ")"

def Fault.report (f : Fault) : Report :=
  ⟨f.cause.kind, f.cause.text, f.pc, f.word, f.cause.extent⟩

def Fault.message (f : Fault) : String := f.report.message

/-- A report about memory; with no text of its own it names the addresses. -/
def Report.outOfBounds (address length : Int) (text : String) (pc word : Option Int) : Report :=
  ⟨.outOfBounds, if text = "" then boundsText address length else text, pc, word,
    some (address, length)⟩

/-- How a refused argument is classed. -/
inductive Misuse.Family where
  | value
  | index
  | type
  | overflow
  | division
  | attribute
  deriving DecidableEq, Repr

/-- An argument that a part of the machine cannot take. -/
inductive Misuse where
  /-- A block that holds a number which is no byte. -/
  | notBytes
  /-- A register value which is no byte. -/
  | registerValue
  /-- A register or pixel that does not exist. -/
  | noSuchCell
  /-- A position too far out for any sequence. -/
  | farIndex
  /-- A return address that no 16-bit slot holds. -/
  | wideAddress
  /-- A store of negative size. -/
  | negativeSize
  /-- A call stack of negative depth. -/
  | negativeDepth
  /-- A call stack deeper than any address space. -/
  | hugeDepth
  /-- A call stack deeper than its bytes can be counted. -/
  | uncountableDepth
  /-- A depth that is no whole number. -/
  | notADepth
  /-- A seed that is no number and no text. -/
  | notASeed
  /-- A text with halves of pairs where it is to be written as bytes: the code of the first, its
  place, and how many of them stand there. -/
  | loneHalves (code start count : Nat)
  /-- A key outside the pad. -/
  | noSuchKey (key : Int)
  /-- Drawing on a display without columns or rows. -/
  | flatDisplay
  /-- A picture scaled by a negative number. -/
  | negativeScale
  /-- A picture scaled by a number that is not whole. -/
  | fractionalScale
  /-- Time that runs backwards. -/
  | negativeTime
  /-- A rate that is zero or less. -/
  | nonPositiveRate
  /-- A rate that is no number. -/
  | notARate
  /-- A whole number too large for a floating-point one. -/
  | wideNumber
  /-- A count per second over no time. -/
  | noTime
  deriving DecidableEq, Repr

def Misuse.family : Misuse → Misuse.Family
  | .notBytes | .registerValue | .negativeSize | .negativeDepth | .hugeDepth
  | .uncountableDepth | .loneHalves _ _ _ | .noSuchKey _ | .negativeScale | .negativeTime
  | .nonPositiveRate => .value
  | .noSuchCell | .farIndex => .index
  | .notADepth | .notASeed | .fractionalScale | .notARate => .type
  | .wideAddress | .wideNumber => .overflow
  | .flatDisplay | .noTime => .division

def Misuse.message : Misuse → String
  | .notBytes => "bytes must be in range(0, 256)"
  | .registerValue => "byte must be in range(0, 256)"
  | .noSuchCell => "bytearray index out of range"
  | .farIndex => "cannot fit 'int' into an index-sized integer"
  | .wideAddress => "a return address must fit in 16 bits"
  | .negativeSize => "negative count"
  | .negativeDepth => "negative dimensions are not allowed"
  | .hugeDepth => "Maximum allowed dimension exceeded"
  | .uncountableDepth =>
    "array is too big; `arr.size * arr.dtype.itemsize` is larger than the maximum possible size."
  | .notADepth => "a depth must be a whole number"
  | .notASeed => "a seed must be a number or a text"
  | .loneHalves code start count =>
    let place :=
      if count = 1 then
        "character '\\u" ++ String.ofList (Text.Quoted.code 4 code) ++ "' in position " ++
          toString start
      else "characters in position " ++ toString start ++ "-" ++ toString (start + count - 1)
    "'utf-8' codec can't encode " ++ place ++ ": surrogates not allowed"
  | .noSuchKey key => "Key index out of range: " ++ toString key
  | .flatDisplay => "integer modulo by zero"
  | .negativeScale => "repeats may not contain negative values."
  | .fractionalScale => "a scale must be a whole number"
  | .negativeTime => "elapsed time cannot be negative"
  | .nonPositiveRate => "cpu_hz and timer_hz must be positive"
  | .notARate => "a number is required"
  | .wideNumber => "int too large to convert to float"
  | .noTime => "float division by zero"

/-- A fault of the machine or a refused argument. -/
inductive Refusal where
  | fault (cause : Cause)
  | misuse (reason : Misuse)
  deriving DecidableEq, Repr

end Chip8
