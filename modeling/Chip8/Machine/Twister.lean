/-!
The random stream: the 32-bit Mersenne Twister, seeded by a list of words. A seed is a whole
number of any size, of which the absolute value counts.
-/

set_option autoImplicit false
set_option relaxedAutoImplicit false

namespace Chip8

/-- A block of state words and how many of them have been given out. -/
structure Twister where
  words : Array UInt32
  used : Nat
  deriving DecidableEq

namespace Twister

def blockSize : Nat := 624

/-- A block that a single word spreads over. -/
def spread (seed : UInt32) : Array UInt32 :=
  (List.range (blockSize - 1)).foldl
    (fun (block : Array UInt32) k =>
      let last := block.getD k 0
      block.push ((last ^^^ (last >>> 30)) * 1812433253 + UInt32.ofNat (k + 1)))
    #[seed]

/-- The word before place `i`, stirred and scaled. -/
def stir (block : Array UInt32) (i : Nat) (factor : UInt32) : UInt32 :=
  let last := block.getD (i - 1) 0
  (last ^^^ (last >>> 30)) * factor

/-- The place after `i`; past the end, the last word is copied to the front first. -/
def follow (block : Array UInt32) (i : Nat) : Array UInt32 × Nat :=
  if i + 1 ≥ blockSize then (block.setIfInBounds 0 (block.getD (blockSize - 1) 0), 1)
  else (block, i + 1)

/-- Works a key into a block for a number of rounds, from block place `i` and key place `j` on. -/
def absorb (key : Array UInt32) : Nat → Nat → Nat → Array UInt32 → Array UInt32 × Nat
  | 0, i, _, block => (block, i)
  | rounds + 1, i, j, block =>
    let word := (block.getD i 0 ^^^ stir block i 1664525) + key.getD j 0 + UInt32.ofNat j
    let (block, i) := follow (block.setIfInBounds i word) i
    absorb key rounds i (if j + 1 ≥ key.size then 0 else j + 1) block

/-- Works the places of a block into it for a number of rounds, from place `i` on. -/
def settle : Nat → Nat → Array UInt32 → Array UInt32
  | 0, _, block => block
  | rounds + 1, i, block =>
    let word := (block.getD i 0 ^^^ stir block i 1566083941) - UInt32.ofNat i
    let (block, i) := follow (block.setIfInBounds i word) i
    settle rounds i block

def ofKey (key : Array UInt32) : Twister :=
  let (block, i) := absorb key (max blockSize key.size) 1 0 (spread 19650218)
  ⟨(settle (blockSize - 1) i block).setIfInBounds 0 0x80000000, blockSize⟩

/-- The 32-bit digits of a natural number, the least significant first. -/
def digits (n : Nat) : List UInt32 :=
  if h : n < 0x100000000 then [UInt32.ofNat n]
  else UInt32.ofNat n :: digits (n / 0x100000000)
termination_by n
decreasing_by exact Nat.div_lt_self (by omega) (by decide)

def ofSeed (seed : Int) : Twister := ofKey (digits seed.natAbs).toArray

/-- The word that replaces place `k` of a block. -/
def twistWord (block : Array UInt32) (k : Nat) : UInt32 :=
  let mixed := (block.getD k 0 &&& 0x80000000) |||
    (block.getD ((k + 1) % blockSize) 0 &&& 0x7FFFFFFF)
  let shifted := block.getD ((k + 397) % blockSize) 0 ^^^ (mixed >>> 1)
  if mixed &&& 1 = 0 then shifted else shifted ^^^ 0x9908B0DF

/-- The block after a block, made word by word in place. -/
def twist (block : Array UInt32) : Array UInt32 :=
  (List.range blockSize).foldl (fun b k => b.setIfInBounds k (twistWord b k)) block

/-- Scrambles a state word on its way out. -/
def temper (w : UInt32) : UInt32 :=
  let w := w ^^^ (w >>> 11)
  let w := w ^^^ ((w <<< 7) &&& 0x9D2C5680)
  let w := w ^^^ ((w <<< 15) &&& 0xEFC60000)
  w ^^^ (w >>> 18)

def next (t : Twister) : UInt32 × Twister :=
  let t := if t.used ≥ blockSize then ⟨twist t.words, 0⟩ else t
  (temper (t.words.getD t.used 0), ⟨t.words, t.used + 1⟩)

/-- The next byte of the stream: the high eight bits of the next word. -/
def nextByte (t : Twister) : UInt8 × Twister :=
  let (w, t) := t.next
  ((w >>> 24).toUInt8, t)

end Twister

end Chip8
