import Mathlib.Data.List.Basic
import Mathlib.Tactic.Common
import Chip8.Machine.Display

set_option autoImplicit false
set_option relaxedAutoImplicit false

namespace Chip8.Display

theorem land_lt {clip : Bool} {length start offset place : Nat} (positive : 0 < length)
    (landed : land clip length start offset = some place) : place < length := by
  unfold land at landed
  split at landed
  · rename_i fits
    cases landed
    exact fits
  · split at landed
    · cases landed
    · cases landed
      exact Nat.mod_lt _ positive

theorem cell_lt {width height column line : Nat} (inside : column < width)
    (inside' : line < height) : line * width + column < width * height :=
  calc line * width + column < line * width + width := Nat.add_lt_add_left inside _
    _ = (line + 1) * width := (Nat.succ_mul line width).symm
    _ ≤ height * width := Nat.mul_le_mul_right width inside'
    _ = width * height := Nat.mul_comm height width

private theorem coveredRow_lt {width height x y cell : Nat} {clip : Bool} {row : Int}
    (positive : 0 < width) (inside : y < height)
    (covered : cell ∈ coveredRow width clip x y row) : cell < width * height := by
  obtain ⟨b, -, landed⟩ := List.mem_filterMap.mp covered
  obtain ⟨column, place, rfl⟩ := Option.map_eq_some_iff.mp landed
  exact cell_lt (land_lt positive place) inside

/-- A sprite covers cells of the display only, wherever it is drawn and however far it runs. -/
theorem coveredFrom_lt {width height x y offset cell : Nat} {clip : Bool} {rows : List Int}
    (columns : 0 < width) (lines : 0 < height)
    (covered : cell ∈ coveredFrom width height clip x y offset rows) : cell < width * height := by
  induction rows generalizing offset with
  | nil => cases covered
  | cons row rows ih =>
    rw [coveredFrom, List.mem_append] at covered
    rcases covered with here | later
    · split at here
      · rename_i py landed
        exact coveredRow_lt columns (land_lt lines landed) here
      · cases here
    · exact ih later

/-- No lit pixel of a sprite runs past an edge, rows counted from `offset`. -/
def Inside (width height x y offset : Nat) (rows : List Int) : Prop :=
  ∀ q ∈ rows.zipIdx offset, ∀ b ∈ litOffsets q.1, x + b < width ∧ y + q.2 < height

instance (width height x y offset : Nat) (rows : List Int) :
    Decidable (Inside width height x y offset rows) :=
  inferInstanceAs (Decidable (∀ q ∈ rows.zipIdx offset, ∀ b ∈ litOffsets q.1, _))

private theorem land_of_lt {length start offset : Nat} (fits : start + offset < length)
    (clip : Bool) :
    land clip length start offset = some (start + offset) := if_pos fits

private theorem coveredRow_of_lt {width x : Nat} {row : Int}
    (fits : ∀ b ∈ litOffsets row, x + b < width)
    (clip : Bool) (y : Nat) :
    coveredRow width clip x y row = (litOffsets row).map fun b => y * width + (x + b) := by
  rw [coveredRow, List.filterMap_eq_map_iff_forall_eq_some]
  intro b lit
  rw [land_of_lt (fits b lit)]
  rfl

private theorem coveredFrom_of_inside {width height x y offset : Nat} {rows : List Int}
    (inside : Inside width height x y offset rows) (clip : Bool) :
    coveredFrom width height clip x y offset rows =
      (rows.zipIdx offset).flatMap fun q =>
        (litOffsets q.1).map fun b => (y + q.2) * width + (x + b) := by
  induction rows generalizing offset with
  | nil => rfl
  | cons row rows ih =>
    rw [Inside, List.zipIdx_cons, List.forall_mem_cons] at inside
    obtain ⟨first, rest⟩ := inside
    rw [coveredFrom, ih rest, List.zipIdx_cons, List.flatMap_cons]
    congr 1
    -- a row without lit pixels may lie anywhere
    cases lit : litOffsets row with
    | nil =>
      cases land clip height y offset with
      | none => rfl
      | some py => simp [coveredRow, lit]
    | cons b bs =>
      have line : y + offset < height := (first b (by simp [lit])).2
      rw [land_of_lt line, ← lit]
      exact coveredRow_of_lt (fun b lit => (first b lit).1) clip _

theorem draw_of_inside {width height x y : Nat} {rows : List Int}
    (inside : Inside width height (x % width) (y % height) 0 rows) (d : Display width height)
    (clip clip' : Bool) : d.draw x y rows clip = d.draw x y rows clip' := by
  have column : ((x : Int) % width).toNat = x % width := Int.toNat_natCast (x % width)
  have line : ((y : Int) % height).toNat = y % height := Int.toNat_natCast (y % height)
  rw [draw, draw, column, line, coveredFrom_of_inside inside, coveredFrom_of_inside inside]

end Chip8.Display
