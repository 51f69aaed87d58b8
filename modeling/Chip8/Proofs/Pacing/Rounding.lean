import Mathlib.Algebra.Order.Field.Power
import Mathlib.Algebra.Order.Round
import Mathlib.Data.Int.Log
import Mathlib.Data.Rat.Floor
import Mathlib.Tactic.Linarith
import Mathlib.Tactic.NormNum
import Mathlib.Tactic.Positivity
import Mathlib.Tactic.Ring

set_option autoImplicit false
set_option relaxedAutoImplicit false

namespace Chip8

def nearest (q : ℚ) : ℤ :=
  if q - ⌊q⌋ < 1 / 2 ∨ (q - ⌊q⌋ = 1 / 2 ∧ Even ⌊q⌋) then ⌊q⌋ else ⌊q⌋ + 1

private theorem abs_nearest_sub_le (q : ℚ) : |(nearest q : ℚ) - q| ≤ 1 / 2 := by
  have low := Int.floor_le q
  have high := Int.lt_floor_add_one q
  unfold nearest
  split
  · rename_i near
    rw [abs_le]
    constructor <;> rcases near with near | ⟨near, -⟩ <;> linarith
  · rename_i far
    have half : 1 / 2 ≤ q - ⌊q⌋ := le_of_not_gt fun near => far (.inl near)
    push_cast
    rw [abs_le]
    constructor <;> linarith

section Nearest

variable {q : ℚ} {n : ℤ}

private theorem nearest_le (below : q < n + 1 / 2) : nearest q ≤ n := by
  have near := (abs_le.mp (abs_nearest_sub_le q)).2
  have bound : (nearest q : ℚ) < n + 1 := by linarith
  exact Int.lt_add_one_iff.mp (by exact_mod_cast bound)

private theorem le_nearest (above : n - 1 / 2 < q) : n ≤ nearest q := by
  have near := (abs_le.mp (abs_nearest_sub_le q)).1
  have bound : (n : ℚ) < nearest q + 1 := by linarith
  exact Int.lt_add_one_iff.mp (by exact_mod_cast bound)

private theorem nearest_of_even (even : Even n) :
    nearest (n + 1 / 2) = n ∧ nearest (n - 1 / 2) = n := by
  have up : ⌊(n : ℚ) + 1 / 2⌋ = n := by
    rw [Int.floor_eq_iff]
    constructor <;> linarith
  have down : ⌊(n : ℚ) - 1 / 2⌋ = n - 1 := by
    rw [Int.floor_eq_iff]
    push_cast
    constructor <;> linarith
  have odd : ¬ Even (n - 1) := by
    rw [Int.even_sub_one, not_not]
    exact even
  constructor
  · rw [nearest, up, if_pos (.inr ⟨by ring, even⟩)]
  · rw [nearest, down, if_neg ?_, sub_add_cancel]
    push_cast
    rintro (near | ⟨-, even⟩)
    · linarith
    · exact odd even

private theorem nearest_le_of_even (even : Even n) (below : q ≤ n + 1 / 2) : nearest q ≤ n := by
  rcases below.lt_or_eq with below | rfl
  · exact nearest_le below
  · exact (nearest_of_even even).1.le

private theorem le_nearest_of_even (even : Even n) (above : n - 1 / 2 ≤ q) : n ≤ nearest q := by
  rcases above.lt_or_eq with above | rfl
  · exact le_nearest above
  · exact (nearest_of_even even).2.ge

end Nearest

/-- How far apart the numbers of 53 binary digits lie next to a number, on the side of zero at a
power of two. -/
def spacing (x : ℚ) : ℚ := 2 ^ (Int.log 2 |x| - 52)

/-- The nearest number of 53 binary digits, and the even one of two that are equally near. -/
def rounded (x : ℚ) : ℚ := nearest (x / spacing x) * spacing x

private theorem spacing_pos (x : ℚ) : 0 < spacing x := zpow_pos two_pos _

private theorem rounded_zero : rounded 0 = 0 := by
  simp [rounded, nearest]

section Rounded

variable {x : ℚ} {n k : ℤ}

theorem rounded_le_mul (below : x < (n + 1 / 2) * spacing x) : rounded x ≤ n * spacing x := by
  have whole : nearest (x / spacing x) ≤ n := nearest_le ((div_lt_iff₀ (spacing_pos x)).mpr below)
  exact mul_le_mul_of_nonneg_right (by exact_mod_cast whole) (spacing_pos x).le

private theorem mul_le_rounded (above : (n - 1 / 2) * spacing x < x) :
    n * spacing x ≤ rounded x := by
  have whole : n ≤ nearest (x / spacing x) := le_nearest ((lt_div_iff₀ (spacing_pos x)).mpr above)
  exact mul_le_mul_of_nonneg_right (by exact_mod_cast whole) (spacing_pos x).le

private theorem rounded_le_mul_of_even (even : Even n) (below : x ≤ (n + 1 / 2) * spacing x) :
    rounded x ≤ n * spacing x := by
  have whole : nearest (x / spacing x) ≤ n :=
    nearest_le_of_even even ((div_le_iff₀ (spacing_pos x)).mpr below)
  exact mul_le_mul_of_nonneg_right (by exact_mod_cast whole) (spacing_pos x).le

private theorem mul_le_rounded_of_even (even : Even n) (above : (n - 1 / 2) * spacing x ≤ x) :
    n * spacing x ≤ rounded x := by
  have whole : n ≤ nearest (x / spacing x) :=
    le_nearest_of_even even ((le_div_iff₀ (spacing_pos x)).mpr above)
  exact mul_le_mul_of_nonneg_right (by exact_mod_cast whole) (spacing_pos x).le

private theorem abs_rounded_sub_le (x : ℚ) : |rounded x - x| ≤ spacing x / 2 := by
  have pos := spacing_pos x
  have scaled : rounded x - x = (nearest (x / spacing x) - x / spacing x) * spacing x := by
    rw [sub_mul, div_mul_cancel₀ _ pos.ne', rounded]
  rw [scaled, abs_mul, abs_of_pos pos]
  have near := mul_le_mul_of_nonneg_right (abs_nearest_sub_le (x / spacing x)) pos.le
  linarith

theorem rounded_nonneg (nonneg : 0 ≤ x) : 0 ≤ rounded x := by
  have pos := spacing_pos x
  have above : ((0 : ℤ) - 1 / 2) * spacing x < x := by
    push_cast
    linarith
  simpa using mul_le_rounded above

theorem rounded_nonpos (nonpos : x ≤ 0) : rounded x ≤ 0 := by
  have pos := spacing_pos x
  have below : x < ((0 : ℤ) + 1 / 2) * spacing x := by
    push_cast
    linarith
  simpa using rounded_le_mul below

/-! Powers of two. The largest of them that is no larger than a number is `2 ^ 52` spacings. -/

private theorem spacing_mul (x : ℚ) : 2 ^ 52 * spacing x = 2 ^ Int.log 2 |x| := by
  rw [spacing, ← zpow_natCast, ← zpow_add₀ two_ne_zero]
  congr 1
  push_cast
  ring

theorem two_zpow_log_le (other : x ≠ 0) : (2 : ℚ) ^ Int.log 2 |x| ≤ |x| := by
  exact_mod_cast Int.zpow_log_le_self Nat.one_lt_two (abs_pos.mpr other)

theorem lt_two_zpow_log (x : ℚ) : |x| < 2 * (2 : ℚ) ^ Int.log 2 |x| := by
  rw [← zpow_one_add₀ two_ne_zero, add_comm]
  exact_mod_cast Int.lt_zpow_succ_log_self Nat.one_lt_two |x|

private theorem rounded_neg (neg : x < 0) : rounded x < 0 := by
  have pos := spacing_pos x
  have low := two_zpow_log_le neg.ne
  rw [← spacing_mul, abs_of_neg neg] at low
  have below : x < ((-2 ^ 52 : ℤ) + 1 / 2) * spacing x := by
    push_cast
    linarith
  have bound := rounded_le_mul below
  push_cast at bound
  linarith

theorem rounded_nonneg_iff : 0 ≤ rounded x ↔ 0 ≤ x :=
  ⟨fun nonneg => le_of_not_gt fun neg => (rounded_neg neg).not_ge nonneg, rounded_nonneg⟩

private theorem two_zpow_log_le_rounded (pos : 0 < x) : (2 : ℚ) ^ Int.log 2 x ≤ rounded x := by
  have gap := spacing_pos x
  have low := two_zpow_log_le pos.ne'
  rw [← spacing_mul, abs_of_pos pos] at low
  have above : ((2 ^ 52 : ℤ) - 1 / 2) * spacing x < x := by
    push_cast
    linarith
  have bound := mul_le_rounded above
  rw [← abs_of_pos pos, ← spacing_mul, abs_of_pos pos]
  exact_mod_cast bound

theorem rounded_pos (pos : 0 < x) : 0 < rounded x :=
  (zpow_pos two_pos _).trans_le (two_zpow_log_le_rounded pos)

private theorem two_zpow_mono {j k : ℤ} (le : j ≤ k) : (2 : ℚ) ^ j ≤ 2 ^ k :=
  zpow_le_zpow_right₀ one_le_two le

theorem log_lt_of_lt (pos : 0 < x) (below : x < 2 ^ k) : Int.log 2 x < k :=
  (Int.lt_zpow_iff_log_lt Nat.one_lt_two pos).mp (by exact_mod_cast below)

theorem le_log_of_le (pos : 0 < x) (above : 2 ^ k ≤ x) : k ≤ Int.log 2 x :=
  (Int.zpow_le_iff_le_log Nat.one_lt_two pos).mp (by exact_mod_cast above)

/-- What lies at most half a spacing below a power of two is not rounded below it. -/
theorem two_zpow_le_rounded (above : 2 ^ k * (1 - 1 / 2 ^ 54) ≤ x) : 2 ^ k ≤ rounded x := by
  have power : (0 : ℚ) < 2 ^ k := zpow_pos two_pos k
  have pos : 0 < x := by linarith
  rcases le_or_gt k (Int.log 2 x) with le | lt
  · exact (two_zpow_mono le).trans (two_zpow_log_le_rounded pos)
  · -- the next power of two is the one above
    have high := lt_two_zpow_log x
    have unit := spacing_mul x
    rw [abs_of_pos pos] at high unit
    have half : (2 : ℚ) ^ (k - 1) * 2 = 2 ^ k := by
      rw [← zpow_add_one₀ two_ne_zero, sub_add_cancel]
    have close : k - 1 ≤ Int.log 2 x := le_log_of_le pos (by linarith)
    have log : Int.log 2 x = k - 1 := by omega
    rw [log] at unit
    have bound : ((2 ^ 53 : ℤ) - 1 / 2) * spacing x ≤ x := by
      push_cast
      linarith
    have reached := mul_le_rounded_of_even (by decide) bound
    push_cast at reached
    linarith

theorem rounded_le_two_zpow (below : x ≤ 2 ^ k * (1 + 1 / 2 ^ 53)) : rounded x ≤ 2 ^ k := by
  have power : (0 : ℚ) < 2 ^ k := zpow_pos two_pos k
  rcases le_or_gt x 0 with nonpos | pos
  · exact (rounded_nonpos nonpos).trans power.le
  · have unit := spacing_mul x
    have gap := spacing_pos x
    rw [abs_of_pos pos] at unit
    rcases lt_or_ge x (2 ^ k) with lt | ge
    · -- the power of two is a whole number of spacings
      have log := log_lt_of_lt pos lt
      obtain ⟨m, exponent⟩ := Int.eq_ofNat_of_zero_le (a := k - (Int.log 2 x - 52)) (by omega)
      have whole : (2 : ℚ) ^ k = ((2 ^ m : ℤ) : ℚ) * spacing x := by
        push_cast
        rw [spacing, abs_of_pos pos, ← zpow_natCast, ← zpow_add₀ two_ne_zero]
        congr 1
        omega
      rw [whole] at lt ⊢
      exact rounded_le_mul (by linarith)
    · have log : Int.log 2 x = k := by
        refine le_antisymm (Int.lt_add_one_iff.mp (log_lt_of_lt pos ?_)) (le_log_of_le pos ge)
        rw [zpow_add_one₀ two_ne_zero]
        linarith
      rw [log] at unit
      have bound : x ≤ ((2 ^ 52 : ℤ) + 1 / 2) * spacing x := by
        push_cast
        linarith
      have reached := rounded_le_mul_of_even (by decide) bound
      push_cast at reached
      linarith

theorem rounded_two_zpow (k : ℤ) : rounded (2 ^ k) = 2 ^ k := by
  have power : (0 : ℚ) < 2 ^ k := zpow_pos two_pos k
  exact le_antisymm (rounded_le_two_zpow (by linarith)) (two_zpow_le_rounded (by linarith))

/-- What lies further above a power of two than half a spacing is rounded past it. -/
theorem two_zpow_lt_rounded (above : 2 ^ k * (1 + 1 / 2 ^ 53) < x) : 2 ^ k < rounded x := by
  have power : (0 : ℚ) < 2 ^ k := zpow_pos two_pos k
  have pos : 0 < x := by linarith
  have le : k ≤ Int.log 2 x := le_log_of_le pos (by linarith)
  rcases le.lt_or_eq with lt | log
  · have next : (2 : ℚ) ^ (k + 1) ≤ rounded x :=
      (two_zpow_mono lt).trans (two_zpow_log_le_rounded pos)
    rw [zpow_add_one₀ two_ne_zero] at next
    linarith
  · have unit := spacing_mul x
    have gap := spacing_pos x
    rw [abs_of_pos pos, ← log] at unit
    have bound : ((2 ^ 52 + 1 : ℤ) - 1 / 2) * spacing x < x := by
      push_cast
      linarith
    have reached := mul_le_rounded bound
    push_cast at reached
    linarith

private theorem abs_rounded_sub_le_of_lt (nonneg : 0 ≤ x) (below : x < 2 ^ k) :
    |rounded x - x| ≤ 2 ^ k / 2 ^ 54 := by
  rcases nonneg.eq_or_lt with rfl | pos
  · rw [rounded_zero, sub_zero, abs_zero]
    positivity
  · have unit := spacing_mul x
    rw [abs_of_pos pos] at unit
    have next : (2 : ℚ) ^ (Int.log 2 x + 1) ≤ 2 ^ k :=
      two_zpow_mono (Int.add_one_le_iff.mpr (log_lt_of_lt pos below))
    rw [zpow_add_one₀ two_ne_zero] at next
    have moved := abs_rounded_sub_le x
    linarith

private theorem exists_mul_spacing {y : ℚ} (pos : 0 < x) (le : x ≤ rounded y) :
    ∃ m : ℤ, rounded y = m * spacing x := by
  have power : (0 : ℚ) < 2 ^ Int.log 2 x := zpow_pos two_pos _
  have positive : 0 < y := by
    by_contra nonpos
    exact (pos.trans_le le).not_ge (rounded_nonpos (not_lt.mp nonpos))
  rcases le_or_gt (Int.log 2 x) (Int.log 2 y) with up | down
  · -- the spacing next to the number itself is a multiple of the one below
    obtain ⟨k, exponent⟩ := Int.eq_ofNat_of_zero_le (sub_nonneg.mpr up)
    have wider : spacing y = 2 ^ k * spacing x := by
      rw [spacing, spacing, abs_of_pos pos, abs_of_pos positive, ← zpow_natCast,
        ← zpow_add₀ two_ne_zero]
      congr 1
      omega
    refine ⟨nearest (y / spacing y) * 2 ^ k, ?_⟩
    push_cast
    rw [mul_assoc, ← wider, rounded]
  · -- rounding has taken it up to the next power of two
    have low := two_zpow_log_le pos.ne'
    have unit := spacing_mul x
    rw [abs_of_pos pos] at low unit
    have high := lt_two_zpow_log y
    have next := two_zpow_mono (Int.add_one_le_iff.mpr down)
    rw [zpow_add_one₀ two_ne_zero] at next
    rw [abs_of_pos positive] at high
    have below : rounded y ≤ 2 ^ Int.log 2 x := rounded_le_two_zpow (by linarith)
    refine ⟨2 ^ 52, ?_⟩
    push_cast
    linarith

/-- What is more than half of the largest spacing below a number of 53 digits is not rounded away
when it is taken from the number: at least half of it counts. -/
theorem rounded_sub_le {y period : ℚ} (due : period ≤ rounded y) (bounded : rounded y ≤ 2 ^ k)
    (long : 2 ^ k / 2 ^ 54 < period) :
    rounded (rounded y - period) ≤ rounded y - period / 2 := by
  have positive : 0 < period := lt_trans (by positivity) long
  rcases (sub_nonneg.mpr due).eq_or_lt with whole | rest
  · rw [← whole, rounded_zero]
    linarith
  · have moved := (abs_le.mp (abs_rounded_sub_le (rounded y - period))).2
    rcases le_or_gt (spacing (rounded y - period)) period with fine | coarse
    · linarith
    · -- what is left is a smaller multiple of the same spacing
      have gap := spacing_pos (rounded y - period)
      have down := (abs_le.mp
        (abs_rounded_sub_le_of_lt (k := k) rest.le (by linarith))).2
      obtain ⟨m, multiple⟩ := exists_mul_spacing rest (sub_le_self _ positive.le)
      have fewer : (nearest ((rounded y - period) / spacing (rounded y - period)) : ℚ) < m := by
        refine lt_of_mul_lt_mul_right ?_ gap.le
        rw [← multiple]
        change rounded (rounded y - period) < rounded y
        linarith
      have whole : nearest ((rounded y - period) / spacing (rounded y - period)) ≤ m - 1 :=
        Int.le_sub_one_of_lt (by exact_mod_cast fewer)
      have cast : (nearest ((rounded y - period) / spacing (rounded y - period)) : ℚ) ≤ m - 1 := by
        exact_mod_cast whole
      have bound := mul_le_mul_of_nonneg_right cast gap.le
      change rounded (rounded y - period) ≤ _ at bound
      rw [sub_one_mul, ← multiple] at bound
      linarith

end Rounded

example : rounded (1 / 10) = 3602879701896397 / 36028797018963968 := by decide +kernel

end Chip8
