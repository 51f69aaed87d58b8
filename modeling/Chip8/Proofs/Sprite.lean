import Mathlib.Algebra.BigOperators.Fin
import Mathlib.Data.Int.Bitwise
import Mathlib.Data.Fintype.BigOperators
import Mathlib.Tactic.Common
import Chip8.Proofs.Display

/-!
What drawing a sprite does to each pixel of a display. A pixel is toggled once for each pixel of the
sprite that lands on it, so its fate depends on how many do; on small displays several can.
-/

set_option autoImplicit false
set_option relaxedAutoImplicit false

namespace Chip8.Display

variable {width height : Nat}

private theorem bit_eq_testBit (n : Int) (k : Nat) : bit n k = n.testBit k := by
  unfold bit
  rw [Int.shiftRight_eq_div_pow]
  cases n with
  | ofNat n =>
    have whole : (Int.ofNat n / ((2 ^ k : Nat) : Int)) % 2 = ((n / 2 ^ k % 2 : Nat) : Int) := rfl
    rw [whole, Int.testBit, Nat.testBit_eq_decide_div_mod_eq]
    norm_cast
  | negSucc n =>
    -- the digits of a negative number are those that its distance below `-1` lacks
    have positive : (0 : Int) < ((2 ^ k : Nat) : Int) := Int.natCast_pos.mpr (Nat.two_pow_pos k)
    have whole : Int.negSucc n / ((2 ^ k : Nat) : Int) = -(((n / 2 ^ k : Nat) : Int) + 1) :=
      Int.negSucc_ediv n positive
    have parity : -(((n / 2 ^ k : Nat) : Int) + 1) % 2 = 1 ↔ ¬ n / 2 ^ k % 2 = 1 := by omega
    rw [whole, Int.testBit, Nat.testBit_eq_decide_div_mod_eq, decide_eq_decide.mpr parity,
      decide_not]

section Toggle

variable {n : Nat}

theorem toggleAll_of_lt {k : Nat} (inside : k < n) (cells : Vector Bool n) (hit : Bool)
    (ks : List Nat) :
    toggleAll cells hit (k :: ks) = toggleAll (cells.set k !cells[k]) (hit || cells[k]) ks := by
  rw [toggleAll, dif_pos inside]

private theorem toggleAll_of_not_lt {k : Nat} (outside : ¬ k < n) (cells : Vector Bool n)
    (hit : Bool)
    (ks : List Nat) : toggleAll cells hit (k :: ks) = toggleAll cells hit ks := by
  rw [toggleAll, dif_neg outside]

/-- A cell is toggled as often as it is listed. -/
theorem getElem_toggleAll (cells : Vector Bool n) (hit : Bool) (ks : List Nat) {p : Nat}
    (inside : p < n) :
    (toggleAll cells hit ks).1[p] = (cells[p] ^^ decide (ks.count p % 2 = 1)) := by
  induction ks generalizing cells hit with
  | nil => simp [toggleAll]
  | cons k ks ih =>
    by_cases fits : k < n
    · rw [toggleAll_of_lt fits, ih, Vector.getElem_set]
      by_cases same : k = p
      · subst same
        have parity : (ks.count k + 1) % 2 = 1 ↔ ¬ ks.count k % 2 = 1 := by omega
        rw [if_pos rfl, List.count_cons_self, decide_eq_decide.mpr parity, decide_not]
        cases cells[k] <;> simp
      · rw [if_neg same, List.count_cons_of_ne same]
    · have apart : k ≠ p := by
        rintro rfl
        exact fits inside
      rw [toggleAll_of_not_lt fits, ih, List.count_cons_of_ne apart]

/-- Whether toggling listed cells one after the other puts out a certain one at some time: it was
lit and is listed, or it is listed again after it has been lit. -/
def PutOut (cells : Vector Bool n) (ks : List Nat) (p : Fin n) : Prop :=
  (1 ≤ ks.count p.val ∧ cells[p] = true) ∨ 2 ≤ ks.count p.val

private theorem putOut_cons_self (cells : Vector Bool n) (ks : List Nat) (k : Fin n) :
    PutOut cells (k.val :: ks) k ↔
      cells[k] = true ∨ PutOut (cells.set k !cells[k]) ks k := by
  unfold PutOut
  rw [List.count_cons_self]
  have toggled : (cells.set k !cells[k])[k] = !cells[k] := Vector.getElem_set_self k.isLt
  rw [toggled]
  cases cells[k] with
  | true =>
    have listed : 1 ≤ ks.count k.val + 1 := Nat.le_add_left 1 _
    simp [listed]
  | false =>
    have again : 2 ≤ ks.count k.val + 1 ↔ 1 ≤ ks.count k.val ∨ 2 ≤ ks.count k.val := by omega
    simp [again]

private theorem putOut_cons_of_ne {k p : Fin n} (apart : k ≠ p) (cells : Vector Bool n) (b : Bool)
    (ks : List Nat) : PutOut cells (k.val :: ks) p ↔ PutOut (cells.set k b) ks p := by
  have distinct : k.val ≠ p.val := fun same => apart (Fin.ext same)
  have kept : (cells.set k b)[p] = cells[p] := Vector.getElem_set_ne k.isLt p.isLt distinct
  unfold PutOut
  rw [List.count_cons_of_ne distinct, kept]

private theorem toggleAll_hit (cells : Vector Bool n) (hit : Bool) (ks : List Nat) :
    (toggleAll cells hit ks).2 = true ↔ hit = true ∨ ∃ p, PutOut cells ks p := by
  induction ks generalizing cells hit with
  | nil => simp [toggleAll, PutOut]
  | cons k ks ih =>
    by_cases fits : k < n
    · rw [toggleAll_of_lt fits, ih, Bool.or_eq_true, or_assoc]
      refine or_congr Iff.rfl ⟨?_, ?_⟩
      · rintro (lit | ⟨p, out⟩)
        · exact ⟨⟨k, fits⟩, (putOut_cons_self cells ks ⟨k, fits⟩).mpr (.inl lit)⟩
        · by_cases same : (⟨k, fits⟩ : Fin n) = p
          · subst same
            exact ⟨_, (putOut_cons_self cells ks ⟨k, fits⟩).mpr (.inr out)⟩
          · exact ⟨p, (putOut_cons_of_ne same cells _ ks).mpr out⟩
      · rintro ⟨p, out⟩
        by_cases same : (⟨k, fits⟩ : Fin n) = p
        · subst same
          exact ((putOut_cons_self cells ks ⟨k, fits⟩).mp out).imp id fun out => ⟨_, out⟩
        · exact .inr ⟨p, (putOut_cons_of_ne same cells _ ks).mp out⟩
    · have apart (p : Fin n) : k ≠ p.val := fun same => fits (same ▸ p.isLt)
      rw [toggleAll_of_not_lt fits, ih]
      simp only [PutOut, List.count_cons_of_ne (apart _)]

end Toggle

section Landing

variable {length start offset place : Nat}

private theorem land_clip_iff (inside : place < length) :
    land true length start offset = some place ↔ place = start + offset := by
  unfold land
  split <;> simp <;> omega

private theorem land_wrap_iff :
    land false length start offset = some place ↔ place = (start + offset) % length := by
  unfold land
  split
  · rename_i fits
    rw [Nat.mod_eq_of_lt fits, Option.some_inj, eq_comm]
  · simp [eq_comm]

end Landing

/-- Whether a set pixel of a sprite, bit `q.2` from the left in row `q.1`, lands on a pixel of the
display when the sprite is drawn at a place. The place wraps around, and so does what runs past an
edge unless it is clipped. -/
def Hits (width height : Nat) (x y : Int) (rows : List Int) (clip : Bool) (column line : Nat)
    (q : Fin rows.length × Fin 8) : Prop :=
  rows[q.1].testBit (7 - q.2) = true ∧
    if clip then
      (column : Int) = x % width + q.2.val ∧ (line : Int) = y % height + q.1.val
    else
      (column : Int) = (x % width + q.2.val) % width ∧
        (line : Int) = (y % height + q.1.val) % height

instance (width height : Nat) (x y : Int) (rows : List Int) (clip : Bool) (column line : Nat) :
    DecidablePred (Hits width height x y rows clip column line) := fun q => by
  unfold Hits
  infer_instance

/-- How many pixels of a sprite land on a pixel of the display. -/
def hits (width height : Nat) (x y : Int) (rows : List Int) (clip : Bool) (column line : Nat) :
    Nat :=
  (Finset.univ.filter (Hits width height x y rows clip column line)).card

section Counting

variable {column line : Nat}

private theorem cell_eq_iff {c c' l l' : Nat} (inside : c < width) (inside' : c' < width) :
    l * width + c = l' * width + c' ↔ l = l' ∧ c = c' := by
  constructor
  · intro same
    have lines : (l * width + c) / width = (l' * width + c') / width := by rw [same]
    have columns : (l * width + c) % width = (l' * width + c') % width := by rw [same]
    rw [Nat.mul_comm l, Nat.mul_comm l', Nat.mul_add_div (by omega), Nat.mul_add_div (by omega),
      Nat.div_eq_of_lt inside, Nat.div_eq_of_lt inside'] at lines
    rw [Nat.mul_comm l, Nat.mul_comm l', Nat.mul_add_mod, Nat.mul_add_mod,
      Nat.mod_eq_of_lt inside, Nat.mod_eq_of_lt inside'] at columns
    exact ⟨lines, columns⟩
  · rintro ⟨rfl, rfl⟩
    rfl

private theorem countP_range (p : Nat → Bool) (n : Nat) :
    (List.range n).countP p = ∑ b : Fin n, if p b then 1 else 0 := by
  induction n with
  | zero => rfl
  | succ n ih =>
    rw [List.range_succ, List.countP_append, ih, Fin.sum_univ_castSucc]
    simp [List.countP_cons]

private theorem count_coveredRow (inside : column < width) (clip : Bool) (x y : Nat) (row : Int) :
    (coveredRow width clip x y row).count (line * width + column) =
      ∑ b : Fin 8,
        if bit row (7 - b) = true ∧ land clip width x b = some column ∧ y = line then 1 else 0 := by
  unfold coveredRow litOffsets
  rw [List.count_filterMap, List.countP_filter, countP_range]
  refine Finset.sum_congr rfl fun b _ => ?_
  congr 1
  rw [Bool.and_eq_true, beq_iff_eq, and_comm, eq_iff_iff]
  refine and_congr Iff.rfl ?_
  rw [Option.map_eq_some_iff]
  constructor
  · rintro ⟨c, landed, same⟩
    have bound : c < width := land_lt (by omega) landed
    obtain ⟨rfl, rfl⟩ := (cell_eq_iff bound inside).mp same
    exact ⟨landed, rfl⟩
  · rintro ⟨landed, rfl⟩
    exact ⟨column, landed, rfl⟩

private theorem count_coveredFrom (inside : column < width) (clip : Bool) (x y offset : Nat)
    (rows : List Int) :
    (coveredFrom width height clip x y offset rows).count (line * width + column) =
      ∑ r : Fin rows.length, ∑ b : Fin 8,
        if bit rows[r] (7 - b) = true ∧ land clip width x b = some column ∧
          land clip height y (offset + r) = some line then 1 else 0 := by
  induction rows generalizing offset with
  | nil => simp [coveredFrom]
  | cons row rows ih =>
    rw [coveredFrom, List.count_append, ih]
    refine Eq.trans ?_ (Fin.sum_univ_succ (n := rows.length) _).symm
    congr 1
    · cases landed : land clip height y offset with
      | none => simp [landed]
      | some l =>
        rw [count_coveredRow inside]
        simp [landed]
    · refine Finset.sum_congr rfl fun r _ => Finset.sum_congr rfl fun b _ => ?_
      have further : offset + 1 + r.val = offset + r.succ.val := by
        rw [Fin.val_succ]
        omega
      rw [further]
      rfl

private theorem toNat_emod {length : Nat} (positive : 0 < length) (a : Int) :
    ((a % length).toNat : Int) = a % length :=
  Int.toNat_of_nonneg (Int.emod_nonneg a (by omega))

private theorem hits_iff (columns : 0 < width) (lines : 0 < height) (inside : column < width)
    (inside' : line < height) (x y : Int) (rows : List Int) (clip : Bool)
    (q : Fin rows.length × Fin 8) :
    Hits width height x y rows clip column line q ↔
      bit rows[q.1] (7 - q.2) = true ∧
        land clip width (x % width).toNat q.2 = some column ∧
        land clip height (y % height).toNat (0 + q.1) = some line := by
  unfold Hits
  rw [bit_eq_testBit, Nat.zero_add]
  refine and_congr Iff.rfl ?_
  have column_start := toNat_emod columns x
  have line_start := toNat_emod lines y
  cases clip with
  | true =>
    rw [land_clip_iff inside, land_clip_iff inside', if_pos rfl]
    omega
  | false =>
    rw [land_wrap_iff, land_wrap_iff, if_neg Bool.false_ne_true, ← column_start,
      ← line_start]
    norm_cast

/-- A sprite covers a cell as often as its pixels land there. -/
theorem count_covered (columns : 0 < width) (lines : 0 < height) (inside : column < width)
    (inside' : line < height) (x y : Int) (rows : List Int) (clip : Bool) :
    (coveredFrom width height clip (x % width).toNat (y % height).toNat 0 rows).count
        (line * width + column) =
      hits width height x y rows clip column line := by
  rw [count_coveredFrom inside, hits, Finset.card_filter, Fintype.sum_prod_type]
  refine Finset.sum_congr rfl fun r _ => Finset.sum_congr rfl fun b _ => ?_
  exact if_congr (hits_iff columns lines inside inside' x y rows clip (r, b)).symm rfl rfl

end Counting

section Draw

variable {column line : Nat} (columns : 0 < width) (lines : 0 < height) (d : Display width height)
  (x y : Int) (rows : List Int) (clip : Bool)

private theorem lit_eq_get (inside : column < width) (inside' : line < height) :
    d.lit column line = d.cells.get ⟨line * width + column, cell_lt inside inside'⟩ := by
  have bound : line * width + column < d.cells.toArray.size :=
    (cell_lt inside inside').trans_eq d.cells.size_toArray.symm
  rw [lit, decide_eq_true inside, decide_eq_true inside', Bool.true_and, Bool.true_and,
    Array.getD_eq_getD_getElem?, Array.getElem?_eq_getElem bound]
  rfl

include columns lines

/-- A pixel changes exactly if an odd number of the sprite's pixels land on it. -/
theorem lit_draw (inside : column < width) (inside' : line < height) :
    (d.draw x y rows clip).1.lit column line =
      (d.lit column line ^^ decide (hits width height x y rows clip column line % 2 = 1)) := by
  rw [lit_eq_get _ inside inside', lit_eq_get d inside inside',
    ← count_covered columns lines inside inside']
  exact getElem_toggleAll _ _ _ _

theorem draw_hit_iff :
    (d.draw x y rows clip).2 = true ↔ ∃ column < width, ∃ line < height,
      (1 ≤ hits width height x y rows clip column line ∧ d.lit column line = true) ∨
        2 ≤ hits width height x y rows clip column line := by
  refine (toggleAll_hit d.cells false _).trans ?_
  rw [or_iff_right Bool.false_ne_true]
  constructor
  · rintro ⟨⟨p, bound⟩, out⟩
    have inside : p % width < width := Nat.mod_lt _ columns
    have inside' : p / width < height := Nat.div_lt_of_lt_mul bound
    refine ⟨p % width, inside, p / width, inside', ?_⟩
    have cell : p / width * width + p % width = p := Nat.div_add_mod' p width
    rw [← count_covered columns lines inside inside', lit_eq_get d inside inside']
    simp only [cell]
    exact out
  · rintro ⟨column, inside, line, inside', out⟩
    refine ⟨⟨line * width + column, cell_lt inside inside'⟩, ?_⟩
    rw [← count_covered columns lines inside inside', lit_eq_get d inside inside'] at out
    exact out

/-- Drawing a sprite toggles each pixel as often as the sprite's pixels land on it, and tells
whether one of them found a pixel lit: one that was lit before, or that another had lit. -/
theorem drawn_by_hits :
    ∃ after hit, d.tryDraw x y rows clip = .ok (after, hit) ∧
      (∀ column < width, ∀ line < height,
        after.lit column line =
          (d.lit column line ^^ decide (hits width height x y rows clip column line % 2 = 1))) ∧
      (hit = true ↔ ∃ column < width, ∃ line < height,
        (1 ≤ hits width height x y rows clip column line ∧ d.lit column line = true) ∨
          2 ≤ hits width height x y rows clip column line) ∧
      after.dirty = true ∧ after.cells.toArray.size = width * height := by
  have shaped : ¬ (width = 0 ∨ height = 0) := by omega
  refine ⟨(d.draw x y rows clip).1, (d.draw x y rows clip).2, if_neg shaped, ?_, ?_, rfl, ?_⟩
  · intro column inside line inside'
    exact lit_draw columns lines d x y rows clip inside inside'
  · exact draw_hit_iff columns lines d x y rows clip
  · exact Vector.size_toArray _

end Draw

/-- On a display three pixels wide the first and the last of four pixels in a row land in one
place, and the last puts out what the first has lit. -/
theorem wide_row_drawn_by_hits :
    (0 < 3 ∧ 0 < 2) ∧ ∃ after : Display 3 2,
      (blank 3 2).tryDraw (-1) 5 [0xF0] false = .ok (after, true) ∧
        after.lit 2 1 = false ∧ after.lit 0 1 = true ∧ after.lit 0 0 = false := by
  obtain ⟨after, hit, drawn, pixels, told, -, -⟩ :=
    drawn_by_hits (by decide) (by decide) (blank 3 2) (-1) 5 [0xF0] false
  have twice : hits 3 2 (-1) 5 [0xF0] false 2 1 = 2 := by decide
  have once : hits 3 2 (-1) 5 [0xF0] false 0 1 = 1 := by decide
  have never : hits 3 2 (-1) 5 [0xF0] false 0 0 = 0 := by decide
  have out : hit = true := told.mpr ⟨2, by decide, 1, by decide, .inr twice.ge⟩
  refine ⟨⟨by decide, by decide⟩, after, out ▸ drawn, ?_, ?_, ?_⟩
  · rw [pixels 2 (by decide) 1 (by decide), twice]
    decide
  · rw [pixels 0 (by decide) 1 (by decide), once]
    decide
  · rw [pixels 0 (by decide) 0 (by decide), never]
    decide

end Chip8.Display
