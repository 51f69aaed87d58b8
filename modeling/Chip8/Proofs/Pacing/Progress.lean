import Mathlib.Algebra.Order.Floor.Semiring
import Chip8.Proofs.Failure
import Chip8.Proofs.Pacing.Exact
import Chip8.Proofs.Pacing.Payment
import Chip8.Proofs.Pacing.Rounding
import Chip8.Proofs.Usable

/-!
Whether an advance comes to an end. It relies on each payment making an account smaller, which
rounding can defeat: from a quarter second, a period of `2 ^ -56` seconds or less is rounded away.
Down to there every payment takes at least half a period.
-/

set_option autoImplicit false
set_option relaxedAutoImplicit false

namespace Chip8

variable {σ ε : Type}

namespace Device

def Tireless (d : Device σ ε) (s : σ) : Prop := ∀ calls, (d.course s calls).fault = none

variable {d : Device σ ε} {s : σ}

theorem Tireless.tick (tireless : d.Tireless s) : d.Tireless (d.tick s) :=
  fun calls => tireless (.tick :: calls)

theorem Tireless.step (tireless : d.Tireless s) :
    ∃ s', d.step s = (s', none) ∧ d.Tireless s' := by
  rcases stepped : d.step s with ⟨s', - | fault⟩
  · refine ⟨s', rfl, fun calls => ?_⟩
    have fine := tireless (.step :: calls)
    rw [course_of_step stepped] at fine
    exact fine
  · have fine := tireless [.step]
    rw [course_of_fault stepped] at fine
    cases fine

private theorem tireless_of_preserved {P : σ → Prop} (tick : ∀ s, P s → P (d.tick s))
    (step : ∀ s, P s → ∃ s', d.step s = (s', none) ∧ P s') (holds : P s) : d.Tireless s := by
  intro calls
  induction calls generalizing s with
  | nil => rfl
  | cons call calls ih =>
    cases call with
    | tick => exact ih (tick s holds)
    | step =>
      obtain ⟨s', stepped, holds'⟩ := step s holds
      rw [course_of_step stepped]
      exact ih holds'

end Device

namespace Pacer

section Settling

variable {τ : Type} [OfNat τ 0] [Sub τ] [LE τ] [DecidableLE τ] {Q : Pacer τ → Prop}
  {d : Device σ ε} {p q : Pacer τ} {s : σ} {calls : List Call}

theorem Pays.preserves (tick : ∀ p, Q p → p.due = .tick → Q p.payTick.countTick)
    (step : ∀ p, Q p → p.due = .step → Q p.payStep.countStep) (paid : Pays p calls q)
    (holds : Q p) : Q q := by
  induction paid with
  | nil p => exact holds
  | tick due rest ih => exact ih (tick _ holds due)
  | step due rest ih => exact ih (step _ holds due)

/-- If each payment makes a number smaller, there are at most that many. -/
theorem settle_of_decreasing {size : Pacer τ → ℕ}
    (tick : ∀ p, Q p → p.due = .tick →
      Q p.payTick.countTick ∧ size p.payTick.countTick < size p)
    (step : ∀ p, Q p → p.due = .step →
      Q p.payStep.countStep ∧ size p.payStep.countStep < size p)
    {limit : ℕ} (holds : Q p) (enough : size p < limit) (s : σ) (made : ℕ) :
    ∃ o, settle d limit p s made = some o := by
  induction limit generalizing p s made with
  | zero => exact absurd enough (Nat.not_lt_zero _)
  | succ limit ih =>
    cases due : p.due with
    | nothing => exact ⟨_, settle_of_nothing due limit made⟩
    | tick =>
      obtain ⟨holds', less⟩ := tick p holds due
      rw [settle_of_tick due]
      exact ih holds' (by omega) _ _
    | step =>
      obtain ⟨holds', less⟩ := step p holds due
      rcases stepped : d.step s with ⟨s', - | fault⟩
      · rw [settle_of_step due stepped]
        exact ih holds' (by omega) _ _
      · exact ⟨_, settle_of_fault due stepped limit made⟩

/-- If a payment always leaves something due, there is no end to them. -/
theorem settle_of_always_due (tick : ∀ p, Q p → Q p.payTick.countTick)
    (step : ∀ p, Q p → Q p.payStep.countStep) (due : ∀ p, Q p → p.due ≠ .nothing) (holds : Q p)
    (tireless : d.Tireless s) (limit made : ℕ) : settle d limit p s made = none := by
  induction limit generalizing p s made with
  | zero => rfl
  | succ limit ih =>
    cases next : p.due with
    | nothing => exact absurd next (due p holds)
    | tick =>
      rw [settle_of_tick next]
      exact ih (tick p holds) tireless.tick made
    | step =>
      obtain ⟨s', stepped, tireless'⟩ := tireless.step
      rw [settle_of_step next stepped]
      exact ih (step p holds) tireless' (made + 1)

private theorem settle_of_lost_step (lost : p.stepOwed - p.stepPeriod = p.stepOwed)
    (owed : 0 ≤ p.stepOwed) (tireless : d.Tireless s) (limit made : ℕ) :
    settle d limit p s made = none := by
  refine settle_of_always_due
    (Q := fun p => p.stepOwed - p.stepPeriod = p.stepOwed ∧ 0 ≤ p.stepOwed)
    (fun p holds => holds) (fun p holds => ?_) (fun p holds idle => ?_) ⟨lost, owed⟩ tireless
    limit made
  · have same : p.payStep.countStep.stepOwed = p.stepOwed := holds.1
    rw [same]
    exact holds
  · refine (due_eq_nothing_iff.mp idle).2 ?_
    rw [holds.1]
    exact holds.2

end Settling

end Pacer

/-- A number of seconds that is rounded after every operation. -/
structure Rounded where
  value : ℚ

namespace Rounded

instance : OfNat Rounded 0 := ⟨⟨0⟩⟩
instance : Add Rounded := ⟨fun x y => ⟨rounded (x.value + y.value)⟩⟩
instance : Sub Rounded := ⟨fun x y => ⟨rounded (x.value - y.value)⟩⟩
instance : LE Rounded := ⟨fun x y => x.value ≤ y.value⟩
instance : LT Rounded := ⟨fun x y => x.value < y.value⟩
instance : DecidableLE Rounded := fun x y => inferInstanceAs (Decidable (x.value ≤ y.value))
instance : DecidableLT Rounded := fun x y => inferInstanceAs (Decidable (x.value < y.value))

def period (rate : ℕ) : Rounded := ⟨rounded (1 / rounded rate)⟩

/-- The longest stretch that is made up for unless a host says otherwise. -/
def quarter : Rounded := ⟨1 / 4⟩

def pacer (steps ticks : ℕ) : Pacer Rounded := .start (period steps) (period ticks) quarter

private theorem rate_pos {rate : ℕ} (pos : 0 < rate) : 0 < rounded rate :=
  rounded_pos (by exact_mod_cast pos)

private theorem period_pos {rate : ℕ} (pos : 0 < rate) : 0 < (period rate).value :=
  rounded_pos (one_div_pos.mpr (rate_pos pos))

private theorem rounded_rate_le {rate : ℕ} (below : rate < 2 ^ 56 - 4) :
    rounded rate ≤ 2 ^ 56 - 8 := by
  have rate_le : (rate : ℚ) < 2 ^ 56 - 4 := by
    have bound : rate + 4 < 2 ^ 56 := by omega
    have cast : ((rate + 4 : ℕ) : ℚ) < ((2 ^ 56 : ℕ) : ℚ) := by exact_mod_cast bound
    push_cast at cast
    linarith
  rcases lt_or_ge (rate : ℚ) (2 ^ (55 : ℤ)) with low | high
  · have half : rounded rate ≤ 2 ^ (55 : ℤ) := rounded_le_two_zpow (by linarith)
    norm_num at half ⊢
    linarith
  · have pos : (0 : ℚ) < rate := lt_of_lt_of_le (by norm_num) high
    have log : Int.log 2 |(rate : ℚ)| = 55 := by
      rw [abs_of_pos pos]
      refine le_antisymm (Int.lt_add_one_iff.mp (log_lt_of_lt pos ?_)) (le_log_of_le pos high)
      norm_num at rate_le ⊢
      linarith
    have unit : spacing rate = 8 := by
      rw [spacing, log]
      norm_num
    have below : (rate : ℚ) < ((2 ^ 53 - 1 : ℤ) + 1 / 2) * spacing rate := by
      rw [unit]
      norm_num at rate_le ⊢
      linarith
    have bound := rounded_le_mul below
    rw [unit] at bound
    norm_num at bound ⊢
    exact bound

private theorem period_lt_iff {rate : ℕ} (pos : 0 < rate) :
    1 / 2 ^ 56 < (period rate).value ↔ rate < 2 ^ 56 - 4 := by
  have power : (2 : ℚ) ^ (-56 : ℤ) = 1 / 2 ^ 56 := by norm_num
  have positive := rate_pos pos
  rw [← power]
  constructor
  · intro long
    by_contra above
    have top : (2 : ℚ) ^ (56 : ℤ) ≤ rounded rate := by
      apply two_zpow_le_rounded
      have bound : 2 ^ 56 - 4 ≤ rate := not_lt.mp above
      have cast : ((2 ^ 56 - 4 : ℕ) : ℚ) ≤ rate := by exact_mod_cast bound
      norm_num at cast ⊢
      exact cast
    refine long.not_ge (rounded_le_two_zpow ?_)
    have short : 1 / rounded rate ≤ 1 / 2 ^ (56 : ℤ) := one_div_le_one_div_of_le (by positivity) top
    norm_num at short ⊢
    linarith
  · intro below
    apply two_zpow_lt_rounded
    have bound := rounded_rate_le below
    rw [lt_div_iff₀ positive]
    norm_num at bound ⊢
    linarith

end Rounded

/-- A bound on the accounts of a period, whatever stretch they are given, below which a payment
takes at least half of the period. -/
structure Drains (period bound : ℚ) : Prop where
  pos : 0 < period
  few : bound ≤ 2 ^ 54 * period
  owe : ∀ a e, a < period → e ≤ 1 / 4 → rounded (a + e) ≤ bound
  pay : ∀ y, period ≤ rounded y → rounded y ≤ bound →
    rounded (rounded y - period) ≤ rounded y - period / 2

namespace Drains

variable {period bound y : ℚ}

private theorem of_power {k : ℤ} (long : 2 ^ k / 2 ^ 54 < period)
    (owe : ∀ a e, a < period → e ≤ 1 / 4 → a + e ≤ 2 ^ k * (1 + 1 / 2 ^ 53)) :
    Drains period (2 ^ k) where
  pos := lt_trans (by positivity) long
  few := by linarith
  owe a e before short := rounded_le_two_zpow (owe a e before short)
  pay y due bounded := rounded_sub_le due bounded long

private theorem exist (long : 1 / 2 ^ 56 < period) : ∃ bound, Drains period bound := by
  rcases le_or_gt period (1 / 2 ^ 55) with short | above
  · -- an account is rounded down to a quarter second
    refine ⟨_, of_power (k := -2) ?_ fun a e before stretch => ?_⟩
    · norm_num at long ⊢
      exact long
    · norm_num at short ⊢
      linarith
  rcases le_or_gt period (1 / 4) with short | wide
  · refine ⟨_, of_power (k := -1) ?_ fun a e before stretch => ?_⟩
    · norm_num at above ⊢
      exact above
    · norm_num
      linarith
  · -- the account is less than two periods
    have positive : 0 < period := by linarith
    have low := two_zpow_log_le positive.ne'
    have high := lt_two_zpow_log period
    rw [abs_of_pos positive] at low high
    have power : (2 : ℚ) ^ (Int.log 2 period + 2) = 4 * 2 ^ Int.log 2 period := by
      rw [zpow_add₀ two_ne_zero]
      norm_num
      ring
    have unit : (0 : ℚ) < 2 ^ Int.log 2 period := zpow_pos two_pos _
    refine ⟨_, of_power (k := Int.log 2 period + 2) ?_ fun a e before stretch => ?_⟩
    · rw [power]
      linarith
    · rw [power]
      linarith

def rounds (period a : ℚ) : ℕ := ⌊a / (period / 2)⌋₊

variable (drains : Drains period bound)

include drains

private theorem rounds_le {a : ℚ} (bounded : a ≤ bound) : rounds period a ≤ 2 ^ 55 := by
  have half := half_pos drains.pos
  have few := drains.few
  refine Nat.floor_le_of_le ?_
  rw [div_le_iff₀ half]
  push_cast
  linarith

theorem paid (due : period ≤ rounded y) (bounded : rounded y ≤ bound) :
    0 ≤ rounded (rounded y - period) ∧ rounded (rounded y - period) ≤ bound ∧
      rounds period (rounded (rounded y - period)) < rounds period (rounded y) := by
  have half := half_pos drains.pos
  have less := drains.pay y due bounded
  have nonneg : 0 ≤ rounded (rounded y - period) := rounded_nonneg (sub_nonneg.mpr due)
  refine ⟨nonneg, by linarith, ?_⟩
  have quotient : rounded (rounded y - period) / (period / 2) + 1 ≤ rounded y / (period / 2) := by
    rw [div_add_one half.ne']
    exact div_le_div_of_nonneg_right (by linarith) half.le
  have whole := Nat.floor_mono quotient
  rw [Nat.floor_add_one (div_nonneg nonneg half.le)] at whole
  exact whole

end Drains

namespace Rounded

private theorem nonneg_sub_iff {x y : Rounded} : 0 ≤ x - y ↔ y.value ≤ x.value :=
  rounded_nonneg_iff.trans sub_nonneg

structure OfRates (steps ticks : ℕ) (p : Pacer Rounded) : Prop where
  stepPeriod : p.stepPeriod = period steps
  tickPeriod : p.tickPeriod = period ticks
  longest : p.longest = quarter

structure Idle (steps ticks : ℕ) (p : Pacer Rounded) : Prop extends OfRates steps ticks p where
  stepOwed : 0 ≤ p.stepOwed.value ∧ p.stepOwed.value < (period steps).value
  tickOwed : 0 ≤ p.tickOwed.value ∧ p.tickOwed.value < (period ticks).value

/-- An account of 53 digits within a bound. -/
structure Account (bound a : ℚ) : Prop where
  nonneg : 0 ≤ a
  bounded : a ≤ bound
  digits : ∃ y, a = rounded y

structure Busy (steps ticks : ℕ) (stepBound tickBound : ℚ) (p : Pacer Rounded) : Prop
    extends OfRates steps ticks p where
  stepOwed : Account stepBound p.stepOwed.value
  tickOwed : Account tickBound p.tickOwed.value

theorem Account.pay {period bound a : ℚ} (account : Account bound a)
    (drains : Drains period bound) (due : period ≤ a) :
    Account bound (rounded (a - period)) ∧
      Drains.rounds period (rounded (a - period)) < Drains.rounds period a := by
  obtain ⟨-, bounded, y, rfl⟩ := account
  obtain ⟨nonneg, bounded', fewer⟩ := drains.paid due bounded
  exact ⟨⟨nonneg, bounded', _, rfl⟩, fewer⟩

variable {steps ticks : ℕ} {stepBound tickBound : ℚ} {p q : Pacer Rounded} {d : Device σ ε}
  {s : σ} {elapsed : Rounded}

private theorem idle_start (stepping : 0 < steps) (ticking : 0 < ticks) :
    Idle steps ticks (pacer steps ticks) :=
  ⟨⟨rfl, rfl, rfl⟩, ⟨le_rfl, period_pos stepping⟩, ⟨le_rfl, period_pos ticking⟩⟩

theorem Busy.reset (busy : Busy steps ticks stepBound tickBound p)
    (stepping : 0 < (period steps).value) (ticking : 0 < (period ticks).value) :
    Idle steps ticks p.payStep.reset :=
  ⟨⟨busy.stepPeriod, busy.tickPeriod, busy.longest⟩, ⟨le_rfl, stepping⟩, ⟨le_rfl, ticking⟩⟩

theorem Busy.idle (busy : Busy steps ticks stepBound tickBound p) (due : p.due = .nothing) :
    Idle steps ticks p := by
  obtain ⟨noTick, noStep⟩ := Pacer.due_eq_nothing_iff.mp due
  have stepShort : p.stepOwed.value < p.stepPeriod.value := by
    rw [nonneg_sub_iff] at noStep
    exact not_le.mp noStep
  have tickShort : p.tickOwed.value < p.tickPeriod.value := by
    by_contra enough
    refine noTick ⟨nonneg_sub_iff.mpr (not_lt.mp enough), ?_⟩
    have behind : (p.stepOwed - p.stepPeriod).value ≤ 0 := rounded_nonpos (by linarith)
    have ahead : 0 ≤ (p.tickOwed - p.tickPeriod).value :=
      rounded_nonneg (sub_nonneg.mpr (not_lt.mp enough))
    exact behind.trans ahead
  rw [busy.stepPeriod] at stepShort
  rw [busy.tickPeriod] at tickShort
  exact ⟨busy.toOfRates, ⟨busy.stepOwed.nonneg, stepShort⟩, ⟨busy.tickOwed.nonneg, tickShort⟩⟩

def payments (steps ticks : ℕ) (p : Pacer Rounded) : ℕ :=
  Drains.rounds (period steps).value p.stepOwed.value +
    Drains.rounds (period ticks).value p.tickOwed.value

section Draining

variable (stepDrains : Drains (period steps).value stepBound)
  (tickDrains : Drains (period ticks).value tickBound)

include tickDrains in
theorem Busy.tick (busy : Busy steps ticks stepBound tickBound p) (due : p.due = .tick) :
    Busy steps ticks stepBound tickBound p.payTick.countTick ∧
      payments steps ticks p.payTick.countTick < payments steps ticks p := by
  have owed := nonneg_sub_iff.mp (Pacer.due_eq_tick_iff.mp due).1
  rw [busy.tickPeriod] at owed
  obtain ⟨account, fewer⟩ := busy.tickOwed.pay tickDrains owed
  have left : p.payTick.countTick.tickOwed.value =
      rounded (p.tickOwed.value - (period ticks).value) :=
    congrArg (fun t : Rounded => rounded (p.tickOwed.value - t.value)) busy.tickPeriod
  constructor
  · refine ⟨⟨busy.stepPeriod, busy.tickPeriod, busy.longest⟩, busy.stepOwed, ?_⟩
    rw [left]
    exact account
  · rw [payments, payments, left]
    exact Nat.add_lt_add_left fewer _

include stepDrains in
theorem Busy.step (busy : Busy steps ticks stepBound tickBound p) (due : p.due = .step) :
    Busy steps ticks stepBound tickBound p.payStep.countStep ∧
      payments steps ticks p.payStep.countStep < payments steps ticks p := by
  have owed := nonneg_sub_iff.mp (Pacer.due_eq_step_iff.mp due).2
  rw [busy.stepPeriod] at owed
  obtain ⟨account, fewer⟩ := busy.stepOwed.pay stepDrains owed
  have left : p.payStep.countStep.stepOwed.value =
      rounded (p.stepOwed.value - (period steps).value) :=
    congrArg (fun t : Rounded => rounded (p.stepOwed.value - t.value)) busy.stepPeriod
  constructor
  · refine ⟨⟨busy.stepPeriod, busy.tickPeriod, busy.longest⟩, ?_, busy.tickOwed⟩
    rw [left]
    exact account
  · rw [payments, payments, left]
    exact Nat.add_lt_add_right fewer _

include stepDrains tickDrains

theorem Idle.owe (idle : Idle steps ticks p) (forwards : 0 ≤ elapsed) :
    Busy steps ticks stepBound tickBound (p.owe (p.clamp elapsed)) := by
  have stretch : 0 ≤ (p.clamp elapsed).value ∧ (p.clamp elapsed).value ≤ 1 / 4 := by
    rw [Pacer.clamp, idle.longest]
    split
    · exact ⟨by norm_num [quarter], le_rfl⟩
    · rename_i short
      exact ⟨forwards, not_lt.mp short⟩
  refine ⟨⟨idle.stepPeriod, idle.tickPeriod, idle.longest⟩, ⟨?_, ?_, _, rfl⟩, ⟨?_, ?_, _, rfl⟩⟩
  · exact rounded_nonneg (add_nonneg idle.stepOwed.1 stretch.1)
  · exact stepDrains.owe _ _ idle.stepOwed.2 stretch.2
  · exact rounded_nonneg (add_nonneg idle.tickOwed.1 stretch.1)
  · exact tickDrains.owe _ _ idle.tickOwed.2 stretch.2

private theorem Busy.pays {calls : List Pacer.Call} (busy : Busy steps ticks stepBound tickBound p)
    (paid : Pacer.Pays p calls q) : Busy steps ticks stepBound tickBound q :=
  paid.preserves (fun _ busy due => (busy.tick tickDrains due).1)
    (fun _ busy due => (busy.step stepDrains due).1) busy

private theorem Busy.payments_lt (busy : Busy steps ticks stepBound tickBound p) :
    payments steps ticks p < Pacer.patience := by
  have stepRounds := stepDrains.rounds_le busy.stepOwed.bounded
  have tickRounds := tickDrains.rounds_le busy.tickOwed.bounded
  unfold payments Pacer.patience
  omega

theorem Idle.advance (idle : Idle steps ticks p) (forwards : 0 ≤ elapsed) (d : Device σ ε)
    (s : σ) :
    ∃ o, p.advance d Pacer.patience s elapsed = some o ∧ Idle steps ticks o.pacer := by
  have busy := idle.owe stepDrains tickDrains forwards
  have few := busy.payments_lt stepDrains tickDrains
  unfold Pacer.advance
  split
  · exact ⟨_, rfl, idle⟩
  have notBackwards : ¬ elapsed < 0 := not_lt.mpr (show (0 : ℚ) ≤ elapsed.value from forwards)
  rw [if_neg notBackwards]
  obtain ⟨o, settled⟩ := Pacer.settle_of_decreasing
    (fun p busy due => busy.tick tickDrains due) (fun p busy due => busy.step stepDrains due)
    busy few s 0
  refine ⟨o, settled, ?_⟩
  obtain ⟨calls, -, ended⟩ := Pacer.settle_ended settled
  cases ended with
  | settled paid due course => exact (busy.pays stepDrains tickDrains paid).idle due
  | failed paid due course failed =>
    exact (busy.pays stepDrains tickDrains paid).reset stepDrains.pos tickDrains.pos

theorem Idle.feed (idle : Idle steps ticks p) {samples : List Rounded}
    (forwards : ∀ x ∈ samples, 0 ≤ x) (d : Device σ ε) (s : σ) :
    ∃ r, p.feed d Pacer.patience s samples = some r := by
  induction samples generalizing p s with
  | nil => exact ⟨_, rfl⟩
  | cons elapsed samples ih =>
    rw [List.forall_mem_cons] at forwards
    obtain ⟨o, advanced, idle'⟩ := idle.advance stepDrains tickDrains forwards.1 d s
    obtain ⟨r, fed⟩ := ih idle' forwards.2 o.device
    rw [Pacer.feed, advanced]
    dsimp only
    rw [fed]
    exact ⟨_, rfl⟩

end Draining

/-- Down from a quarter second a period that is short enough is rounded away. -/
theorem quarter_sub {rate : ℕ} (pos : 0 < rate) (fast : ¬ rate < 2 ^ 56 - 4) :
    quarter - period rate = quarter := by
  have short : (period rate).value ≤ 1 / 2 ^ 56 := not_lt.mp (mt (period_lt_iff pos).mp fast)
  have long := period_pos pos
  have value : rounded (1 / 4 - (period rate).value) = 2 ^ (-2 : ℤ) := by
    apply le_antisymm
    · apply rounded_le_two_zpow
      norm_num
      linarith
    · apply two_zpow_le_rounded
      norm_num at short ⊢
      linarith
  have power : (2 : ℚ) ^ (-2 : ℤ) = 1 / 4 := by norm_num
  exact congrArg mk (value.trans power)

private theorem settle_of_lost_tick (lost : p.tickOwed - p.tickPeriod = p.tickOwed)
    (owed : 0 ≤ p.tickOwed) (tireless : d.Tireless s) (limit made : ℕ) :
    p.settle d limit s made = none := by
  refine Pacer.settle_of_always_due
    (Q := fun p => p.tickOwed - p.tickPeriod = p.tickOwed ∧ 0 ≤ p.tickOwed)
    (fun p holds => ?_) (fun p holds => holds) (fun p holds idle => ?_) ⟨lost, owed⟩ tireless
    limit made
  · have same : p.payTick.countTick.tickOwed = p.tickOwed := holds.1
    rw [same]
    exact holds
  · obtain ⟨noTick, noStep⟩ := Pacer.due_eq_nothing_iff.mp idle
    rw [holds.1] at noTick
    have behind : (p.stepOwed - p.stepPeriod).value < 0 := not_le.mp noStep
    exact noTick ⟨holds.2, behind.le.trans holds.2⟩

private theorem owe_quarter (steps ticks : ℕ) :
    (pacer steps ticks).owe quarter =
      { pacer steps ticks with stepOwed := quarter, tickOwed := quarter } := by
  have power : (2 : ℚ) ^ (-2 : ℤ) = 1 / 4 := by norm_num
  have whole : (0 : Rounded) + quarter = quarter := by
    have fixed := rounded_two_zpow (-2)
    rw [power] at fixed
    exact congrArg mk ((congrArg rounded (zero_add (1 / 4 : ℚ))).trans fixed)
  exact congrArg (fun t : Rounded => { pacer steps ticks with stepOwed := t, tickOwed := t }) whole

/-- A period that is rounded away keeps a quarter second from being used up. -/
theorem advance_of_fast (running : d.halted s = false) (tireless : d.Tireless s)
    (stepping : 0 < steps) (ticking : 0 < ticks)
    (fast : ¬ (steps < 2 ^ 56 - 4 ∧ ticks < 2 ^ 56 - 4)) (limit : ℕ) :
    (pacer steps ticks).advance d limit s quarter = none := by
  have nonneg : (0 : ℚ) ≤ quarter.value := by norm_num [quarter]
  have forwards : ¬ quarter < 0 := not_lt.mpr nonneg
  have whole : (pacer steps ticks).clamp quarter = quarter := ite_self quarter
  unfold Pacer.advance
  rw [running, if_neg Bool.false_ne_true, if_neg forwards, whole, owe_quarter]
  rcases not_and_or.mp fast with fast | fast
  · apply Pacer.settle_of_lost_step _ _ tireless
    · exact quarter_sub stepping fast
    · exact nonneg
  · apply settle_of_lost_tick _ _ tireless
    · exact quarter_sub ticking fast
    · exact nonneg

/-- Advances come to an end, whatever stretches of time they are given, if both rates are below
`2 ^ 56 - 4`. Otherwise the first of them does not, if it is given a quarter second. -/
theorem advances_end_below_rate (running : d.halted s = false) (tireless : d.Tireless s)
    (stepping : 0 < steps) (ticking : 0 < ticks) :
    (steps < 2 ^ 56 - 4 ∧ ticks < 2 ^ 56 - 4 →
      ∀ samples : List Rounded, (∀ x ∈ samples, 0 ≤ x) →
        ∃ r, (pacer steps ticks).feed d Pacer.patience s samples = some r) ∧
    (¬ (steps < 2 ^ 56 - 4 ∧ ticks < 2 ^ 56 - 4) →
      ∀ limit, (pacer steps ticks).advance d limit s quarter = none) := by
  refine ⟨?_, advance_of_fast running tireless stepping ticking⟩
  rintro ⟨slow, leisurely⟩ samples forwards
  obtain ⟨stepBound, stepDrains⟩ := Drains.exist ((period_lt_iff stepping).mpr slow)
  obtain ⟨tickBound, tickDrains⟩ := Drains.exist ((period_lt_iff ticking).mpr leisurely)
  exact (idle_start stepping ticking).feed stepDrains tickDrains forwards d s

end Rounded

def spinning : Watched := Pacer.watching [0x12, 0x00]

def AtLoop (w : Watched) : Prop := w.machine.regs.pc = 0x200 ∧ w.machine.Holds 0x1200

theorem AtLoop.step {w : Watched} (loop : AtLoop w) :
    ∃ w', Watched.device.step w = (w', none) ∧ AtLoop w' := by
  obtain ⟨pc, holds⟩ := loop
  have op : (Instruction.decode 0x1200).opcode = .jump := by decide
  have run : (Machine.perform (Instruction.decode 0x1200)).run w.machine.past =
      .ok ⟨⟩ (w.machine.past.jumpTo 0x200) := by
    rw [Machine.perform, op]
    rfl
  have result := Machine.step_of_run (Machine.fetch_eq_ok_iff.mpr holds) run
  refine ⟨⟨(w.machine.past.jumpTo 0x200).goOn, w.journal.addAll w.machine.stepNotes⟩, ?_, rfl, ?_⟩
  · simp only [Watched.device, Watched.step, result]
  · rw [Machine.Holds, pc] at holds
    exact holds

private theorem running_spinning : Watched.device.halted spinning = false := by decide +kernel

private theorem tireless_spinning : Watched.device.Tireless spinning := by
  have start : (spinning.machine.regs.pc = 0x200 ∧
      spinning.machine.memory.get? 0x200 = some 0x12 ∧
        spinning.machine.memory.get? (0x200 + 1) = some 0x00) := by
    decide +kernel
  obtain ⟨pc, high, low⟩ := start
  have loop : AtLoop spinning := by
    refine ⟨pc, 0x12, 0x00, ?_, ?_, rfl⟩
    · rw [pc]
      exact high
    · rw [pc]
      exact low
  exact Device.tireless_of_preserved (P := AtLoop) (fun w loop => loop) (fun w loop => loop.step)
    loop

theorem spinning_ends_at_usual_rates :
    (∀ samples : List Rounded, (∀ x ∈ samples, 0 ≤ x) →
      ∃ r, (Rounded.pacer 500 60).feed Watched.device Pacer.patience spinning samples =
        some r) ∧
    ∀ limit, (Rounded.pacer 500 (2 ^ 56 - 4)).advance Watched.device limit spinning
      Rounded.quarter = none := by
  have running := running_spinning
  have stepping : 0 < 500 := by decide
  have usual : 0 < 60 := by decide
  have fast : 0 < 2 ^ 56 - 4 := by norm_num
  obtain ⟨ends, -⟩ := Rounded.advances_end_below_rate running tireless_spinning stepping usual
  obtain ⟨-, never⟩ := Rounded.advances_end_below_rate running tireless_spinning stepping fast
  exact ⟨ends ⟨by norm_num, by norm_num⟩, never fun slow => absurd slow.2 (lt_irrefl _)⟩

/-- Settings with a billion billion steps in a second. -/
def fastSettings : Settings := { Settings.default with cpuHz := .int 1000000000000000000 }

theorem fast_settings_never_end :
    fastSettings.validate = .ok () ∧
    (∃ p, fastSettings.pacer = .ok p ∧
      ∀ limit, p.advance Watched.device limit spinning 0.25 = none) ∧
    ∀ limit, (Rounded.pacer 1000000000000000000 60).advance Watched.device limit spinning
      Rounded.quarter = none := by
  have running := running_spinning
  refine ⟨rfl, ?_, Rounded.advance_of_fast running tireless_spinning (by norm_num) (by norm_num)
    (by norm_num)⟩
  have stuck : ∃ p ∈ fastSettings.pacer.toOption,
      (p.owe (p.clamp 0.25)).stepOwed - (p.owe (p.clamp 0.25)).stepPeriod =
        (p.owe (p.clamp 0.25)).stepOwed ∧ 0 ≤ (p.owe (p.clamp 0.25)).stepOwed := by
    decide +kernel
  obtain ⟨p, built, lost, owed⟩ := stuck
  refine ⟨p, mem_toOption.mp built, fun limit => ?_⟩
  have forwards : ¬ (0.25 : Float) < 0 := by decide +kernel
  unfold Pacer.advance
  rw [running, if_neg Bool.false_ne_true, if_neg forwards]
  exact Pacer.settle_of_lost_step lost owed tireless_spinning limit 0

end Chip8
