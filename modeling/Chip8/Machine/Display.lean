import Chip8.Machine.Memory

/-!
The monochrome display: `width * height` pixels in row-major order. A sprite is a list of rows of
eight pixels that are toggled; the start always wraps around, and pixels past an edge wrap around
too or are dropped.
-/

set_option autoImplicit false
set_option relaxedAutoImplicit false

namespace Chip8

/-- The pixels of a display and whether they may have changed since they were last shown. -/
structure Display (width height : Nat) where
  cells : Vector Bool (width * height)
  dirty : Bool
  deriving DecidableEq

namespace Display

variable {width height : Nat}

/-- A display with every pixel unlit that was not shown yet. -/
def blank (width height : Nat) : Display width height :=
  ⟨Vector.replicate (width * height) false, true⟩

def clear (_d : Display width height) : Display width height := blank width height

/-- Whether the pixel at a column and row is lit; outside the display nothing is. -/
def lit (d : Display width height) (x y : Nat) : Bool :=
  x < width && y < height && d.cells.toArray.getD (y * width + x) false

/-- The cell that a host names by `x + y * width`, negative names counted from the end. -/
def cellAt (d : Display width height) (x y : Int) : Except Misuse Bool :=
  (position (width * height) (x + y * width)).map fun k => d.cells.toArray.getD k false

/-- Bit `k` of a whole number, negative numbers as endless two's complement. -/
def bit (n : Int) (k : Nat) : Bool := (n >>> k) % 2 = 1

/-- The offsets of the lit pixels of a sprite row: its low eight bits, the highest leftmost. -/
def litOffsets (row : Int) : List Nat :=
  (List.range 8).filter fun b => bit row (7 - b)

/-- Where the place `offset` past `start` lies on an axis of `length` places. -/
def land (clip : Bool) (length start offset : Nat) : Option Nat :=
  if start + offset < length then some (start + offset)
  else if clip then none
  else some ((start + offset) % length)

/-- The cells that one sprite row covers, on display row `y` from column `x` on. -/
def coveredRow (width : Nat) (clip : Bool) (x y : Nat) (row : Int) : List Nat :=
  (litOffsets row).filterMap fun b => (land clip width x b).map (y * width + ·)

/-- The cells that sprite rows cover, as often as they cover them, rows counted from `offset`. -/
def coveredFrom (width height : Nat) (clip : Bool) (x y : Nat) :
    Nat → List Int → List Nat
  | _, [] => []
  | offset, row :: rows =>
    (match land clip height y offset with
      | some py => coveredRow width clip x py row
      | none => []) ++ coveredFrom width height clip x y (offset + 1) rows

/-- Toggles cells one after the other; the flag tells whether one was lit when its turn came. -/
def toggleAll {n : Nat} (cells : Vector Bool n) (hit : Bool) : List Nat → Vector Bool n × Bool
  | [] => (cells, hit)
  | k :: ks =>
    if h : k < n then
      let old := cells[k]
      toggleAll (cells.set k !old) (hit || old) ks
    else
      toggleAll cells hit ks

/-- Toggles the pixels of a sprite at a place that wraps around; tells whether it put out any. -/
def draw (d : Display width height) (x y : Int) (rows : List Int) (clip : Bool) :
    Display width height × Bool :=
  let covered := coveredFrom width height clip (x % width).toNat (y % height).toNat 0 rows
  let (cells, hit) := toggleAll d.cells false covered
  (⟨cells, true⟩, hit)

/-- Draws on a display of any size; one without columns or rows has no place to draw at. -/
def tryDraw (d : Display width height) (x y : Int) (rows : List Int) (clip : Bool) :
    Except Misuse (Display width height × Bool) :=
  if width = 0 ∨ height = 0 then .error .flatDisplay else .ok (d.draw x y rows clip)

def rows (d : Display width height) : List (List Bool) :=
  (List.range height).map fun y => (List.range width).map fun x => d.lit x y

def mark (isLit : Bool) : Char := if isLit then '#' else '.'

/-- The display as text, a line for each row. -/
def render (d : Display width height) : String :=
  "\n".intercalate (d.rows.map fun row => String.ofList (row.map mark))

def litCount (d : Display width height) : Nat :=
  d.rows.flatten.countP id

end Display

end Chip8
