import Mathlib.Data.Rat.Floor
import Mathlib.Tactic.Linarith
import Chip8.Proofs.Pacing.Course

/-!
What a pacer should do, said without its accounts: two cadences of calls, each at the whole
multiples of its period, merged by the time at which they fall due.
-/

set_option autoImplicit false
set_option relaxedAutoImplicit false

namespace Chip8.Pacer

structure Dated where
  call : Call
  due : ℚ
  deriving DecidableEq

/-- Whether a call comes before another: it falls due earlier, or at the same instant as a tick or
before a step. -/
def Dated.before (a b : Dated) : Bool :=
  a.due < b.due || a.due = b.due && (a.call = .tick || b.call = .step)

/-- When the call after the given number of calls of a cadence falls due. The rate is the number of
calls in a unit of time, and the first call falls due after one period. -/
def dueAfter (rate : ℚ) (made : ℕ) : ℚ := ((made + 1 : ℕ) : ℚ) / rate

def callsBy (rate time : ℚ) : ℕ := ⌊time * rate⌋₊

def cadence (call : Call) (rate time : ℚ) (made : ℕ) : List Dated :=
  (List.range' made (callsBy rate time - made)).map fun k => ⟨call, dueAfter rate k⟩

/-- The calls of both cadences, in the order in which they fall due. -/
def agendaFrom (stepRate tickRate time : ℚ) (steps ticks : ℕ) : List Dated :=
  (cadence .tick tickRate time ticks).merge (cadence .step stepRate time steps) Dated.before

def agenda (stepRate tickRate time : ℚ) : List Dated := agendaFrom stepRate tickRate time 0 0

private theorem Dated.before_iff {a b : Dated} :
    a.before b = true ↔ a.due < b.due ∨ a.due = b.due ∧ (a.call = .tick ∨ b.call = .step) := by
  simp [before]

private theorem Dated.before_trans (a b c : Dated) (first : a.before b = true)
    (second : b.before c = true) : a.before c = true := by
  rw [before_iff] at *
  rcases first with earlier | ⟨same, first⟩
  · rcases second with earlier' | ⟨same', -⟩
    · exact .inl (earlier.trans earlier')
    · exact .inl (earlier.trans_eq same')
  · rcases second with earlier' | ⟨same', second⟩
    · exact .inl (same.trans_lt earlier')
    · refine .inr ⟨same.trans same', ?_⟩
      rcases first with tick | step
      · exact .inl tick
      · rcases second with tick' | step'
        · rw [step] at tick'
          cases tick'
        · exact .inr step'

private theorem Dated.before_total (a b : Dated) : (a.before b || b.before a) = true := by
  rw [Bool.or_eq_true, before_iff, before_iff]
  rcases lt_trichotomy a.due b.due with earlier | same | later
  · exact .inl (.inl earlier)
  · cases kind : a.call with
    | tick => exact .inl (.inr ⟨same, .inl rfl⟩)
    | step => exact .inr (.inr ⟨same.symm, .inr rfl⟩)
  · exact .inr (.inl later)

theorem callsBy_zero (rate : ℚ) : callsBy rate 0 = 0 := by rw [callsBy, zero_mul, Nat.floor_zero]

section Cadence

variable {call : Call} {rate time : ℚ} (positive : 0 < rate) {made : ℕ}

include positive

private theorem lt_callsBy_iff (time : ℚ) (k : ℕ) :
    k < callsBy rate time ↔ dueAfter rate k ≤ time := by
  rw [callsBy, dueAfter, ← Nat.succ_le_iff, Nat.le_floor_iff' k.succ_ne_zero, div_le_iff₀ positive]

theorem owed_range (nonneg : 0 ≤ time) :
    0 ≤ time - callsBy rate time / rate ∧ time - callsBy rate time / rate < 1 / rate := by
  have below : (callsBy rate time : ℚ) ≤ time * rate := Nat.floor_le (mul_nonneg nonneg positive.le)
  have above : time * rate < callsBy rate time + 1 := Nat.lt_floor_add_one _
  constructor
  · exact sub_nonneg.mpr ((div_le_iff₀ positive).mpr below)
  · rwa [sub_lt_iff_lt_add', ← add_div, lt_div_iff₀ positive]

theorem callsBy_mono {later : ℚ} (grows : time ≤ later) : callsBy rate time ≤ callsBy rate later :=
  Nat.floor_mono (mul_le_mul_of_nonneg_right grows positive.le)

private theorem dueAfter_lt {j k : ℕ} (earlier : j < k) : dueAfter rate j < dueAfter rate k :=
  div_lt_div_of_pos_right (Nat.cast_lt.mpr (Nat.succ_lt_succ earlier)) positive

private theorem cadence_of_due (call : Call) (due : dueAfter rate made ≤ time) :
    cadence call rate time made =
      ⟨call, dueAfter rate made⟩ :: cadence call rate time (made + 1) := by
  rw [← lt_callsBy_iff positive] at due
  have count : callsBy rate time - made = callsBy rate time - (made + 1) + 1 := by omega
  rw [cadence, count, List.range'_succ, List.map_cons, cadence]

private theorem cadence_of_lt (call : Call) (undue : time < dueAfter rate made) :
    cadence call rate time made = [] := by
  rw [← not_le, ← lt_callsBy_iff positive] at undue
  have count : callsBy rate time - made = 0 := by omega
  rw [cadence, count]
  rfl

private theorem mem_cadence {a : Dated} :
    a ∈ cadence call rate time 0 ↔ a.due ≤ time ∧ ∃ k, a = ⟨call, dueAfter rate k⟩ := by
  rw [cadence, List.mem_map]
  constructor
  · rintro ⟨k, inside, rfl⟩
    have below : k < callsBy rate time := by simpa using inside
    exact ⟨(lt_callsBy_iff positive time k).mp below, k, rfl⟩
  · rintro ⟨due, k, rfl⟩
    have below : k < callsBy rate time := (lt_callsBy_iff positive time k).mpr due
    exact ⟨k, by simpa using below, rfl⟩

private theorem cadence_increasing (call : Call) (time : ℚ) (made : ℕ) :
    (cadence call rate time made).Pairwise fun a b => a.due < b.due := by
  have counted : (List.range' made (callsBy rate time - made)).Pairwise (· < ·) :=
    List.pairwise_lt_range'
  exact List.pairwise_map.mpr (counted.imp fun earlier => dueAfter_lt positive earlier)

end Cadence

section Agenda

variable {stepRate tickRate time : ℚ} (stepping : 0 < stepRate) (ticking : 0 < tickRate)

include stepping ticking

theorem agenda_sorted (time : ℚ) :
    (agenda stepRate tickRate time).Pairwise fun a b => a.before b = true := by
  have ordered {call : Call} {rate : ℚ} (positive : 0 < rate) :
      (cadence call rate time 0).Pairwise fun a b => a.before b = true :=
    (cadence_increasing positive call time 0).imp fun earlier => Dated.before_iff.mpr (.inl earlier)
  exact List.pairwise_merge Dated.before_trans Dated.before_total _ _ (ordered ticking)
    (ordered stepping)

theorem mem_agenda {a : Dated} :
    a ∈ agenda stepRate tickRate time ↔
      a.due ≤ time ∧ ∃ k, a = ⟨.tick, dueAfter tickRate k⟩ ∨ a = ⟨.step, dueAfter stepRate k⟩ := by
  rw [agenda, agendaFrom, List.mem_merge, mem_cadence ticking, mem_cadence stepping, ← and_or_left,
    ← exists_or]

theorem agenda_nodup (time : ℚ) : (agenda stepRate tickRate time).Nodup := by
  have distinct {call : Call} {rate : ℚ} (positive : 0 < rate) :
      (cadence call rate time 0).Nodup :=
    (cadence_increasing positive call time 0).imp fun earlier same =>
      earlier.ne (congrArg Dated.due same)
  refine (List.merge_perm_append Dated.before).nodup_iff.mpr
    (List.nodup_append.mpr ⟨distinct ticking, distinct stepping, ?_⟩)
  intro a tick b step same
  obtain ⟨-, j, rfl⟩ := (mem_cadence ticking).mp tick
  obtain ⟨-, k, rfl⟩ := (mem_cadence stepping).mp step
  cases congrArg Dated.call same

theorem agendaFrom_of_tick {k j : ℕ} (due : dueAfter tickRate j ≤ time)
    (first : dueAfter tickRate j ≤ dueAfter stepRate k) :
    agendaFrom stepRate tickRate time k j =
      ⟨.tick, dueAfter tickRate j⟩ :: agendaFrom stepRate tickRate time k (j + 1) := by
  rw [agendaFrom, agendaFrom, cadence_of_due ticking .tick due]
  rcases le_or_gt (dueAfter stepRate k) time with step | undue
  · rw [cadence_of_due stepping .step step]
    refine List.cons_merge_cons_pos _ _ _ (Dated.before_iff.mpr ?_)
    exact first.lt_or_eq.imp id fun same => ⟨same, .inl rfl⟩
  · rw [cadence_of_lt stepping .step undue, List.merge_right, List.merge_right]

theorem agendaFrom_of_step {k j : ℕ} (due : dueAfter stepRate k ≤ time)
    (first : dueAfter stepRate k < dueAfter tickRate j) :
    agendaFrom stepRate tickRate time k j =
      ⟨.step, dueAfter stepRate k⟩ :: agendaFrom stepRate tickRate time (k + 1) j := by
  rw [agendaFrom, agendaFrom, cadence_of_due stepping .step due]
  rcases le_or_gt (dueAfter tickRate j) time with tick | undue
  · rw [cadence_of_due ticking .tick tick]
    refine List.cons_merge_cons_neg _ _ _ fun before => ?_
    rcases Dated.before_iff.mp before with earlier | ⟨same, -⟩
    · exact first.asymm earlier
    · exact first.ne' same
  · rw [cadence_of_lt ticking .tick undue, List.nil_merge, List.nil_merge]

theorem agendaFrom_of_lt {k j : ℕ} (step : time < dueAfter stepRate k)
    (tick : time < dueAfter tickRate j) : agendaFrom stepRate tickRate time k j = [] := by
  rw [agendaFrom, cadence_of_lt ticking .tick tick, cadence_of_lt stepping .step step]
  exact List.nil_merge []

/-- Induction along an agenda: either nothing more is due, or the next call is a tick or a step. -/
theorem agenda_induction {motive : ℕ → ℕ → Prop} (time : ℚ)
    (idle : ∀ k j, time < dueAfter stepRate k → time < dueAfter tickRate j → motive k j)
    (tick : ∀ k j, dueAfter tickRate j ≤ time → dueAfter tickRate j ≤ dueAfter stepRate k →
      motive k (j + 1) → motive k j)
    (step : ∀ k j, dueAfter stepRate k ≤ time → dueAfter stepRate k < dueAfter tickRate j →
      motive (k + 1) j → motive k j) (k j : ℕ) : motive k j := by
  -- What is left of both cadences shrinks with each call.
  induction left : callsBy stepRate time - k + (callsBy tickRate time - j)
    using Nat.strong_induction_on generalizing k j with
  | h left ih =>
    have tickDue := lt_callsBy_iff ticking time j
    have stepDue := lt_callsBy_iff stepping time k
    by_cases ticks : dueAfter tickRate j ≤ time ∧ dueAfter tickRate j ≤ dueAfter stepRate k
    · have below := tickDue.mpr ticks.1
      exact tick k j ticks.1 ticks.2 (ih _ (by omega) k (j + 1) rfl)
    rw [not_and_or, not_le, not_le] at ticks
    by_cases steps : dueAfter stepRate k ≤ time
    · have below := stepDue.mpr steps
      have first : dueAfter stepRate k < dueAfter tickRate j := ticks.elim steps.trans_lt id
      exact step k j steps first (ih _ (by omega) (k + 1) j rfl)
    · have undue : time < dueAfter stepRate k := not_le.mp steps
      exact idle k j undue (ticks.elim id undue.trans)

/-- The agenda for more time begins with the agenda for less. -/
theorem agendaFrom_append {later : ℚ} (grows : time ≤ later) {k j : ℕ}
    (steps : k ≤ callsBy stepRate time) (ticks : j ≤ callsBy tickRate time) :
    agendaFrom stepRate tickRate later k j =
      agendaFrom stepRate tickRate time k j ++
        agendaFrom stepRate tickRate later (callsBy stepRate time) (callsBy tickRate time) := by
  induction k, j using agenda_induction stepping ticking time with
  | idle k j step tick =>
    rw [agendaFrom_of_lt stepping ticking step tick, List.nil_append]
    rw [← not_le, ← lt_callsBy_iff stepping, not_lt] at step
    rw [← not_le, ← lt_callsBy_iff ticking, not_lt] at tick
    rw [steps.antisymm step, ticks.antisymm tick]
  | tick k j due first ih =>
    rw [agendaFrom_of_tick stepping ticking due first,
      agendaFrom_of_tick stepping ticking (due.trans grows) first, List.cons_append,
      ih steps ((lt_callsBy_iff ticking time j).mpr due)]
  | step k j due first ih =>
    rw [agendaFrom_of_step stepping ticking due first,
      agendaFrom_of_step stepping ticking (due.trans grows) first, List.cons_append,
      ih ((lt_callsBy_iff stepping time k).mpr due) ticks]

end Agenda

private theorem map_call_cadence (call : Call) (rate time : ℚ) (made : ℕ) :
    (cadence call rate time made).map Dated.call =
      List.replicate (callsBy rate time - made) call := by
  rw [cadence, List.map_map, List.eq_replicate_iff]
  refine ⟨by rw [List.length_map, List.length_range'], fun c listed => ?_⟩
  obtain ⟨k, -, rfl⟩ := List.mem_map.mp listed
  rfl

private theorem map_call_agendaFrom (stepRate tickRate time : ℚ) (k j : ℕ) :
    ((agendaFrom stepRate tickRate time k j).map Dated.call).Perm
      (List.replicate (callsBy tickRate time - j) .tick ++
        List.replicate (callsBy stepRate time - k) .step) := by
  rw [← map_call_cadence, ← map_call_cadence, ← List.map_append]
  exact (List.merge_perm_append Dated.before).map Dated.call

theorem count_step_agendaFrom (stepRate tickRate time : ℚ) (k j : ℕ) :
    ((agendaFrom stepRate tickRate time k j).map Dated.call).count .step =
      callsBy stepRate time - k := by
  rw [(map_call_agendaFrom stepRate tickRate time k j).count_eq, List.count_append,
    List.count_replicate_self, List.count_replicate, if_neg (by decide), Nat.zero_add]

theorem count_tick_agendaFrom (stepRate tickRate time : ℚ) (k j : ℕ) :
    ((agendaFrom stepRate tickRate time k j).map Dated.call).count .tick =
      callsBy tickRate time - j := by
  rw [(map_call_agendaFrom stepRate tickRate time k j).count_eq, List.count_append,
    List.count_replicate_self, List.count_replicate, if_neg (by decide), Nat.add_zero]

private theorem length_agendaFrom (stepRate tickRate time : ℚ) (k j : ℕ) :
    (agendaFrom stepRate tickRate time k j).length =
      callsBy stepRate time - k + (callsBy tickRate time - j) := by
  rw [← List.length_map Dated.call, (map_call_agendaFrom stepRate tickRate time k j).length_eq,
    List.length_append, List.length_replicate, List.length_replicate, Nat.add_comm]

theorem agendaFrom_self (stepRate tickRate time : ℚ) :
    agendaFrom stepRate tickRate time (callsBy stepRate time) (callsBy tickRate time) = [] := by
  rw [← List.length_eq_zero_iff, length_agendaFrom, Nat.sub_self, Nat.sub_self]

end Chip8.Pacer
