import Mathlib.Tactic.Common
import Chip8.Proofs.Pacing.Course

set_option autoImplicit false
set_option relaxedAutoImplicit false

namespace Chip8.Pacer

variable {τ σ ε : Type} [OfNat τ 0] [Sub τ] [LE τ] [DecidableLE τ]

section Due

variable {p : Pacer τ}

theorem due_eq_tick_iff :
    p.due = .tick ↔
      0 ≤ p.tickOwed - p.tickPeriod ∧ p.stepOwed - p.stepPeriod ≤ p.tickOwed - p.tickPeriod := by
  simp only [due]
  split_ifs <;> simp_all

theorem due_eq_step_iff :
    p.due = .step ↔
      ¬ (0 ≤ p.tickOwed - p.tickPeriod ∧
          p.stepOwed - p.stepPeriod ≤ p.tickOwed - p.tickPeriod) ∧
        0 ≤ p.stepOwed - p.stepPeriod := by
  simp only [due]
  split_ifs <;> simp_all

theorem due_eq_nothing_iff :
    p.due = .nothing ↔
      ¬ (0 ≤ p.tickOwed - p.tickPeriod ∧
          p.stepOwed - p.stepPeriod ≤ p.tickOwed - p.tickPeriod) ∧
        ¬ 0 ≤ p.stepOwed - p.stepPeriod := by
  simp only [due]
  split_ifs <;> simp_all

end Due

/-- Calls that fall due one after another, and the pacer that has paid for them. -/
inductive Pays : Pacer τ → List Call → Pacer τ → Prop where
  | nil (p : Pacer τ) : Pays p [] p
  | tick {p q : Pacer τ} {calls : List Call} (due : p.due = .tick)
      (rest : Pays p.payTick.countTick calls q) : Pays p (.tick :: calls) q
  | step {p q : Pacer τ} {calls : List Call} (due : p.due = .step)
      (rest : Pays p.payStep.countStep calls q) : Pays p (.step :: calls) q

/-- How the calls of an advance end: when no more is due, or with a step that fails. -/
inductive Ended (d : Device σ ε) (p : Pacer τ) (s : σ) (made : Nat) (calls : List Call) :
    Outcome τ σ ε → Prop where
  | settled {q : Pacer τ} {s' : σ} (paid : Pays p calls q) (due : q.due = .nothing)
      (course : d.course s calls = ⟨s', calls, none⟩) :
      Ended d p s made calls ⟨q, s', .ok (made + calls.count .step)⟩
  | failed {q : Pacer τ} {s₁ s' : σ} {fault : ε} (paid : Pays p calls q) (due : q.due = .step)
      (course : d.course s calls = ⟨s₁, calls, none⟩) (failed : d.step s₁ = (s', some fault)) :
      Ended d p s made calls ⟨q.payStep.reset, s', .error (.step fault)⟩

variable {d : Device σ ε} {p q : Pacer τ} {s s' : σ} {made limit : Nat} {calls : List Call}
  {o : Outcome τ σ ε}

theorem Ended.tick (due : p.due = .tick)
    (ended : Ended d p.payTick.countTick (d.tick s) made calls o) :
    Ended d p s made (.tick :: calls) o := by
  cases ended with
  | settled paid idle course =>
    refine .settled (.tick due paid) idle ?_
    rw [Device.course, course]
    rfl
  | failed paid last course failed =>
    refine .failed (.tick due paid) last ?_ failed
    rw [Device.course, course]
    rfl

theorem Ended.step (due : p.due = .step) (stepped : d.step s = (s', none))
    (ended : Ended d p.payStep.countStep s' (made + 1) calls o) :
    Ended d p s made (.step :: calls) o := by
  cases ended with
  | settled paid idle course =>
    have count : made + 1 + calls.count .step = made + (Call.step :: calls).count .step := by
      rw [List.count_cons_self]
      omega
    rw [count]
    refine .settled (.step due paid) idle ?_
    rw [Device.course_of_step stepped, course]
    rfl
  | failed paid last course failed =>
    refine .failed (.step due paid) last ?_ failed
    rw [Device.course_of_step stepped, course]
    rfl

theorem settle_ended (ran : settle d limit p s made = some o) :
    ∃ calls, calls.length < limit ∧ Ended d p s made calls o := by
  induction limit generalizing p s made with
  | zero => cases ran
  | succ limit ih =>
    cases due : p.due with
    | nothing =>
      rw [settle_of_nothing due] at ran
      cases ran
      exact ⟨[], Nat.succ_pos limit, .settled (.nil p) due rfl⟩
    | tick =>
      rw [settle_of_tick due] at ran
      obtain ⟨calls, short, ended⟩ := ih ran
      exact ⟨.tick :: calls, Nat.succ_lt_succ short, ended.tick due⟩
    | step =>
      rcases stepped : d.step s with ⟨s', - | fault⟩
      · rw [settle_of_step due stepped] at ran
        obtain ⟨calls, short, ended⟩ := ih ran
        exact ⟨.step :: calls, Nat.succ_lt_succ short, ended.step due stepped⟩
      · rw [settle_of_fault due stepped] at ran
        cases ran
        exact ⟨[], Nat.succ_pos limit, .failed (.nil p) due rfl stepped⟩

section Kept

variable (paid : Pays p calls q)

include paid

theorem Pays.kept :
    q.stepPeriod = p.stepPeriod ∧ q.tickPeriod = p.tickPeriod ∧ q.longest = p.longest := by
  induction paid with
  | nil p => exact ⟨rfl, rfl, rfl⟩
  | tick due rest ih => exact ih
  | step due rest ih => exact ih

theorem Pays.counted :
    q.cycles = p.cycles + calls.count .step ∧ q.ticks = p.ticks + calls.count .tick := by
  induction paid with
  | nil p => exact ⟨rfl, rfl⟩
  | @tick p q calls due rest ih =>
    obtain ⟨cycles, ticks⟩ := ih
    have cycles' : q.cycles = p.cycles + calls.count .step := cycles
    have ticks' : q.ticks = p.ticks + 1 + calls.count .tick := ticks
    rw [List.count_cons_of_ne (by decide), List.count_cons_self]
    omega
  | @step p q calls due rest ih =>
    obtain ⟨cycles, ticks⟩ := ih
    have cycles' : q.cycles = p.cycles + 1 + calls.count .step := cycles
    have ticks' : q.ticks = p.ticks + calls.count .tick := ticks
    rw [List.count_cons_self, List.count_cons_of_ne (by decide)]
    omega

end Kept

section Advance

variable [Add τ] [LT τ] [DecidableLT τ] {elapsed : τ}

/-- The ways in which an advance comes to an end: its device is halted, its time runs backwards, or
its calls end. -/
theorem advance_cases (ran : advance d limit p s elapsed = some o) :
    (d.halted s = true ∧ o = ⟨p, s, .ok 0⟩) ∨
      (d.halted s = false ∧ elapsed < 0 ∧ o = ⟨p, s, .error .backwards⟩) ∨
      (d.halted s = false ∧ ¬ elapsed < 0 ∧ ∃ calls, calls.length < limit ∧
        Ended d (p.owe (p.clamp elapsed)) s 0 calls o) := by
  unfold advance at ran
  split at ran
  · rename_i halted
    cases ran
    exact .inl ⟨halted, rfl⟩
  · rename_i running
    rw [Bool.not_eq_true] at running
    split at ran
    · rename_i backwards
      cases ran
      exact .inr (.inl ⟨running, backwards, rfl⟩)
    · rename_i forwards
      exact .inr (.inr ⟨running, forwards, settle_ended ran⟩)

theorem advance_ok (running : d.halted s = false)
    (ran : advance d limit p s elapsed = some ⟨q, s', .ok made⟩) :
    ∃ calls, calls.length < limit ∧ Pays (p.owe (p.clamp elapsed)) calls q ∧ q.due = .nothing ∧
      d.course s calls = ⟨s', calls, none⟩ ∧ made = calls.count .step := by
  rcases advance_cases ran with ⟨halted, -⟩ | ⟨-, -, absurd⟩ | ⟨-, -, calls, short, ended⟩
  · rw [running] at halted
    cases halted
  · cases absurd
  · cases ended with
    | settled paid idle course =>
      exact ⟨calls, short, paid, idle, course, Nat.zero_add _⟩

/-- What ticks and steps preserve, an advance preserves, however it comes to an end. -/
theorem device_advance {P : σ → Prop} (preserves : d.Preserves P) (holds : P s)
    (ran : advance d limit p s elapsed = some o) : P o.device := by
  rcases advance_cases ran with ⟨-, rfl⟩ | ⟨-, -, rfl⟩ | ⟨-, -, calls, -, ended⟩
  · exact holds
  · exact holds
  · cases ended with
    | settled paid idle course =>
      have kept : P (d.course s calls).device := preserves.course holds
      rw [course] at kept
      exact kept
    | failed paid last course failed =>
      have kept : P (d.course s calls).device := preserves.course holds
      rw [course] at kept
      have stepped := preserves.step _ kept
      rw [failed] at stepped
      exact stepped

end Advance

end Chip8.Pacer
