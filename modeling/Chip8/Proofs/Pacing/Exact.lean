import Mathlib.Algebra.Order.BigOperators.Group.List
import Mathlib.Algebra.Order.Floor.Semiring
import Mathlib.Tactic.NormNum
import Mathlib.Tactic.Ring
import Chip8.Pacing
import Chip8.Proofs.Pacing.Agenda
import Chip8.Proofs.Run

set_option autoImplicit false
set_option relaxedAutoImplicit false

namespace Chip8.Pacer

variable {σ ε : Type}

/-- A pacer some time after it was new, when it has made the given numbers of calls. -/
def paced (stepRate tickRate longest time : ℚ) (steps ticks : ℕ) : Pacer ℚ :=
  ⟨1 / stepRate, 1 / tickRate, longest, time - steps / stepRate, time - ticks / tickRate, steps,
    ticks⟩

def counted (longest : ℚ) (samples : List ℚ) : ℚ := (samples.map (min · longest)).sum

private theorem counted_cons (longest elapsed : ℚ) (samples : List ℚ) :
    counted longest (elapsed :: samples) = min elapsed longest + counted longest samples := by
  rw [counted, counted, List.map_cons, List.sum_cons]

private theorem counted_of_le {longest : ℚ} {samples : List ℚ}
    (short : ∀ x ∈ samples, x ≤ longest) :
    counted longest samples = samples.sum := by
  rw [counted, List.map_congr_left fun x listed => min_eq_left (short x listed), List.map_id']

private theorem counted_nonneg {longest : ℚ} (lasting : 0 ≤ longest) {samples : List ℚ}
    (forwards : ∀ x ∈ samples, 0 ≤ x) : 0 ≤ counted longest samples := by
  refine List.sum_nonneg fun x listed => ?_
  obtain ⟨elapsed, sample, rfl⟩ := List.mem_map.mp listed
  exact le_min (forwards elapsed sample) lasting

private theorem clamp_eq_min (p : Pacer ℚ) (elapsed : ℚ) :
    p.clamp elapsed = min elapsed p.longest := by
  rw [clamp, min_comm, min_def_lt]

section Accounts

variable (stepRate tickRate longest time : ℚ) (k j : ℕ)

private theorem sub_dueAfter (rate : ℚ) (made : ℕ) :
    time - made / rate - 1 / rate = time - dueAfter rate made := by
  rw [dueAfter, Nat.cast_add, Nat.cast_one, add_div]
  ring

private theorem start_eq_paced :
    start (1 / stepRate) (1 / tickRate) longest = paced stepRate tickRate longest 0 0 0 := by
  simp [start, paced]

private theorem owe_paced (elapsed : ℚ) :
    (paced stepRate tickRate longest time k j).owe elapsed =
      paced stepRate tickRate longest (time + elapsed) k j := by
  rw [owe, paced, paced, sub_add_eq_add_sub, sub_add_eq_add_sub]

private theorem payTick_paced :
    (paced stepRate tickRate longest time k j).payTick.countTick =
      paced stepRate tickRate longest time k (j + 1) := by
  simp only [payTick, countTick, paced, sub_dueAfter, dueAfter]

private theorem payStep_paced :
    (paced stepRate tickRate longest time k j).payStep.countStep =
      paced stepRate tickRate longest time (k + 1) j := by
  simp only [payStep, countStep, paced, sub_dueAfter, dueAfter]

variable {stepRate tickRate time k j}

private theorem due_paced_of_tick (due : dueAfter tickRate j ≤ time)
    (first : dueAfter tickRate j ≤ dueAfter stepRate k) :
    (paced stepRate tickRate longest time k j).due = .tick := by
  simp only [Pacer.due, paced, sub_dueAfter]
  exact if_pos ⟨sub_nonneg.mpr due, sub_le_sub_left first time⟩

private theorem due_paced_of_step (due : dueAfter stepRate k ≤ time)
    (first : dueAfter stepRate k < dueAfter tickRate j) :
    (paced stepRate tickRate longest time k j).due = .step := by
  simp only [Pacer.due, paced, sub_dueAfter]
  rw [if_neg fun tick => (sub_lt_sub_left first time).not_ge tick.2, if_pos (sub_nonneg.mpr due)]

private theorem due_paced_of_lt (step : time < dueAfter stepRate k)
    (tick : time < dueAfter tickRate j) :
    (paced stepRate tickRate longest time k j).due = .nothing := by
  simp only [Pacer.due, paced, sub_dueAfter]
  rw [if_neg fun due => (sub_neg.mpr tick).not_ge due.1, if_neg (sub_neg.mpr step).not_ge]

end Accounts

/-- What an advance comes to whose calls take a course. -/
def settled (stepRate tickRate longest time : ℚ) (k j made : ℕ) (c : Course σ ε) :
    Outcome ℚ σ ε :=
  let p := paced stepRate tickRate longest time (k + c.done.count .step) (j + c.done.count .tick)
  match c.fault with
  | none => ⟨p, c.device, .ok (made + c.done.count .step)⟩
  | some fault => ⟨p.reset, c.device, .error (.step fault)⟩

section Advance

variable {stepRate tickRate longest time : ℚ} {d : Device σ ε} {s : σ} {k j : ℕ}

private theorem settled_following (made : ℕ) (earlier : List Call) (c : Course σ ε) :
    settled stepRate tickRate longest time k j made (c.following earlier) =
      settled stepRate tickRate longest time (k + earlier.count .step) (j + earlier.count .tick)
        (made + earlier.count .step) c := by
  simp only [settled, Course.done_following, Course.fault_following, Course.device_following,
    List.count_append, Nat.add_assoc]

private theorem settled_of_fault {c : Course σ ε} {fault : ε} (failed : c.fault = some fault)
    (time time' : ℚ) (made : ℕ) :
    settled stepRate tickRate longest time k j made c =
      settled stepRate tickRate longest time' k j made c := by
  simp only [settled, failed]
  rfl

private theorem device_settled (made : ℕ) (c : Course σ ε) :
    (settled stepRate tickRate longest time k j made c).device = c.device := by
  cases failure : c.fault with
  | none => simp only [settled, failure]
  | some fault => simp only [settled, failure]

private theorem fed_settled (made made' : ℕ) (c : Course σ ε) :
    (settled stepRate tickRate longest time k j made c).fed =
      (settled stepRate tickRate longest time k j made' c).fed := by
  cases failure : c.fault with
  | none =>
    simp only [settled, failure]
    rfl
  | some fault => simp only [settled, failure]

private theorem fed_settled_recorded (d : Device σ ε) (s : σ) (calls : List Call) :
    (settled stepRate tickRate longest time 0 0 0 (d.recorded.course (s, []) calls)).fed =
      ⟨(settled stepRate tickRate longest time 0 0 0 (d.course s calls)).pacer,
        ((d.course s calls).device, (d.course s calls).made),
        (d.course s calls).fault.toList.map .step⟩ := by
  rw [Device.recorded_course, List.nil_append]
  cases failure : (d.course s calls).fault with
  | none =>
    simp only [settled, failure]
    rfl
  | some fault =>
    simp only [settled, failure]
    rfl

/-- After a course without a fault a pacer has made all the calls that have fallen due. -/
theorem settled_of_no_fault (steps : k ≤ callsBy stepRate time) (ticks : j ≤ callsBy tickRate time)
    (made : ℕ) {c : Course σ ε} (fine : c.fault = none)
    (all : c.done = (agendaFrom stepRate tickRate time k j).map Dated.call) :
    settled stepRate tickRate longest time k j made c =
      ⟨paced stepRate tickRate longest time (callsBy stepRate time) (callsBy tickRate time),
        c.device, .ok (made + (callsBy stepRate time - k))⟩ := by
  simp only [settled, fine, all, count_step_agendaFrom, count_tick_agendaFrom,
    Nat.add_sub_cancel' steps, Nat.add_sub_cancel' ticks]

variable (stepping : 0 < stepRate) (ticking : 0 < tickRate)

include stepping ticking

/-- The calls of an advance are those left on the agenda. -/
theorem settle_paced {limit : ℕ} (s : σ) (made : ℕ)
    (enough : (agendaFrom stepRate tickRate time k j).length < limit) :
    settle d limit (paced stepRate tickRate longest time k j) s made =
      some (settled stepRate tickRate longest time k j made
        (d.course s ((agendaFrom stepRate tickRate time k j).map Dated.call))) := by
  induction k, j using agenda_induction stepping ticking time generalizing s made limit with
  | idle k j step tick =>
    obtain ⟨limit, rfl⟩ := Nat.exists_eq_add_one.mpr (Nat.zero_lt_of_lt enough)
    rw [agendaFrom_of_lt stepping ticking step tick,
      settle_of_nothing (due_paced_of_lt longest step tick)]
    rfl
  | tick k j due first ih =>
    obtain ⟨limit, rfl⟩ := Nat.exists_eq_add_one.mpr (Nat.zero_lt_of_lt enough)
    rw [agendaFrom_of_tick stepping ticking due first] at enough ⊢
    rw [settle_of_tick (due_paced_of_tick longest due first), payTick_paced,
      ih (d.tick s) made (Nat.lt_of_succ_lt_succ enough), List.map_cons, Device.course,
      settled_following]
    rfl
  | step k j due first ih =>
    obtain ⟨limit, rfl⟩ := Nat.exists_eq_add_one.mpr (Nat.zero_lt_of_lt enough)
    have next := due_paced_of_step longest due first
    rw [agendaFrom_of_step stepping ticking due first] at enough ⊢
    rw [List.map_cons]
    cases stepped : d.step s with
    | mk s' failure =>
      cases failure with
      | some fault =>
        rw [settle_of_fault next stepped, Device.course_of_fault stepped]
        rfl
      | none =>
        rw [settle_of_step next stepped, payStep_paced,
          ih s' (made + 1) (Nat.lt_of_succ_lt_succ enough), Device.course_of_step stepped,
          settled_following]
        rfl

private theorem advance_paced {limit : ℕ} (running : d.halted s = false) {elapsed : ℚ}
    (forward : 0 ≤ elapsed)
    (enough : (agendaFrom stepRate tickRate (time + min elapsed longest) k j).length < limit) :
    advance d limit (paced stepRate tickRate longest time k j) s elapsed =
      some (settled stepRate tickRate longest (time + min elapsed longest) k j 0
        (d.course s
          ((agendaFrom stepRate tickRate (time + min elapsed longest) k j).map Dated.call))) := by
  rw [advance, if_neg (Bool.eq_false_iff.mp running), if_neg forward.not_gt, clamp_eq_min,
    owe_paced]
  exact settle_paced stepping ticking s 0 enough

variable (time) in
private theorem feed_paced (lawful : d.Lawful) (lasting : 0 ≤ longest) {limit : ℕ}
    {samples : List ℚ}
    (running : d.halted s = false) (forwards : ∀ x ∈ samples, 0 ≤ x)
    (enough : (agendaFrom stepRate tickRate (time + counted longest samples)
      (callsBy stepRate time) (callsBy tickRate time)).length < limit) :
    feed d limit
        (paced stepRate tickRate longest time (callsBy stepRate time) (callsBy tickRate time)) s
        samples =
      some (settled stepRate tickRate longest (time + counted longest samples)
        (callsBy stepRate time) (callsBy tickRate time) 0
        (d.course s ((agendaFrom stepRate tickRate (time + counted longest samples)
          (callsBy stepRate time) (callsBy tickRate time)).map Dated.call))).fed := by
  induction samples generalizing time s with
  | nil =>
    rw [show counted longest [] = 0 from rfl, add_zero, agendaFrom_self]
    rfl
  | cons elapsed samples ih =>
    obtain ⟨forward, forwards⟩ := List.forall_mem_cons.mp forwards
    have grows : time ≤ time + min elapsed longest :=
      le_add_of_nonneg_right (le_min forward lasting)
    have later : time + min elapsed longest ≤
        time + min elapsed longest + counted longest samples :=
      le_add_of_nonneg_right (counted_nonneg lasting forwards)
    have steps := callsBy_mono stepping grows
    have ticks := callsBy_mono ticking grows
    rw [counted_cons, ← add_assoc, agendaFrom_append stepping ticking later steps ticks] at enough ⊢
    rw [List.length_append] at enough
    rw [feed, advance_paced stepping ticking running forward (by omega), List.map_append]
    generalize time + min elapsed longest = next at *
    -- the rest is made by the induction hypothesis, unless the first stretch halts the device
    have halted := lawful.halted_course running
      ((agendaFrom stepRate tickRate next (callsBy stepRate time) (callsBy tickRate time)).map
        Dated.call)
    cases failure : (d.course s ((agendaFrom stepRate tickRate next (callsBy stepRate time)
      (callsBy tickRate time)).map Dated.call)).fault with
    | some fault =>
      rw [failure, ← device_settled 0] at halted
      rw [Device.course_append_of_fault failure,
        settled_of_fault failure (next + counted longest samples) next]
      simp only
      rw [feed_of_halted halted, Option.map_some, List.append_nil]
      rfl
    | none =>
      rw [failure] at halted
      rw [Device.course_append_of_no_fault failure, settled_following,
        settled_of_no_fault steps ticks 0 failure (Device.done_of_no_fault failure),
        count_step_agendaFrom, count_tick_agendaFrom, Nat.add_sub_cancel' steps,
        Nat.add_sub_cancel' ticks, fed_settled _ 0]
      simp only
      rw [ih next halted forwards (by omega)]
      rfl

private theorem feed_start (lawful : d.Lawful) (lasting : 0 ≤ longest) {limit : ℕ}
    {samples : List ℚ}
    (running : d.halted s = false) (forwards : ∀ x ∈ samples, 0 ≤ x)
    (enough : (agenda stepRate tickRate (counted longest samples)).length < limit) :
    feed d limit (start (1 / stepRate) (1 / tickRate) longest) s samples =
      some (settled stepRate tickRate longest (counted longest samples) 0 0 0
        (d.course s
          ((agenda stepRate tickRate (counted longest samples)).map Dated.call))).fed := by
  have fed := feed_paced 0 stepping ticking lawful lasting running forwards
    (by rwa [callsBy_zero, callsBy_zero, zero_add])
  rwa [callsBy_zero, callsBy_zero, zero_add, ← start_eq_paced] at fed

private theorem feed_recorded (lawful : d.Lawful) (lasting : 0 ≤ longest) {limit : ℕ}
    {samples : List ℚ}
    (running : d.halted s = false) (forwards : ∀ x ∈ samples, 0 ≤ x) {calls : List Call}
    (listed : (agenda stepRate tickRate (counted longest samples)).map Dated.call = calls)
    (enough : calls.length < limit) :
    feed d.recorded limit (start (1 / stepRate) (1 / tickRate) longest) (s, []) samples =
      some ⟨(settled stepRate tickRate longest (counted longest samples) 0 0 0
          (d.course s calls)).pacer,
        ((d.course s calls).device, (d.course s calls).made),
        (d.course s calls).fault.toList.map .step⟩ := by
  have running' : d.recorded.halted (s, []) = false := running
  rw [← listed, List.length_map] at enough
  rw [feed_start stepping ticking lawful.recorded lasting running' forwards enough, listed,
    fed_settled_recorded]

end Advance

private theorem watched_lawful : Watched.device.Lawful where
  tick w running := running
  step w running := by
    cases w.machine.stepped with
    | unfetched cause fetched result =>
      simp only [Watched.device, Watched.step, result]
      rfl
    | refused word cause fetched run result =>
      simp only [Watched.device, Watched.step, result]
      rfl
    | done word after fetched run result =>
      simp only [Watched.device, Watched.step, result]
      rfl

/-- A new pacer calls its device as the agenda has it, up to the first step that fails, and how its
time is cut into stretches makes no difference. -/
theorem paced_in_due_order {d : Device σ ε} (lawful : d.Lawful) {s : σ}
    (running : d.halted s = false) {stepRate tickRate longest : ℚ} (stepping : 0 < stepRate)
    (ticking : 0 < tickRate) (lasting : 0 ≤ longest) :
    (∀ samples : List ℚ, (∀ x ∈ samples, 0 ≤ x) →
      let time := (samples.map (min · longest)).sum
      let calls := (agenda stepRate tickRate time).map Dated.call
      let c := d.course s calls
      calls.count .step = ⌊time * stepRate⌋₊ ∧ calls.count .tick = ⌊time * tickRate⌋₊ ∧
        ∀ limit, calls.length < limit → ∃ p,
          feed d.recorded limit (start (1 / stepRate) (1 / tickRate) longest) (s, []) samples =
              some ⟨p, (c.device, c.made), c.fault.toList.map .step⟩ ∧
            (c.fault = none → c.made = calls ∧
              p.cycles = ⌊time * stepRate⌋₊ ∧ p.ticks = ⌊time * tickRate⌋₊ ∧
              (0 ≤ p.stepOwed ∧ p.stepOwed < 1 / stepRate) ∧
              0 ≤ p.tickOwed ∧ p.tickOwed < 1 / tickRate)) ∧
      (∀ time, (agenda stepRate tickRate time).Pairwise (fun a b => a.before b = true) ∧
        (agenda stepRate tickRate time).Nodup ∧
        ∀ a, a ∈ agenda stepRate tickRate time ↔ a.due ≤ time ∧ ∃ k : ℕ,
          a = ⟨.tick, ((k + 1 : ℕ) : ℚ) / tickRate⟩ ∨ a = ⟨.step, ((k + 1 : ℕ) : ℚ) / stepRate⟩) ∧
      ∀ xs ys : List ℚ, (∀ x ∈ xs ++ ys, 0 ≤ x ∧ x ≤ longest) → xs.sum = ys.sum →
        let calls := (agenda stepRate tickRate xs.sum).map Dated.call
        ∀ limit, calls.length < limit → ∃ r,
          feed d.recorded limit (start (1 / stepRate) (1 / tickRate) longest) (s, []) xs =
              some r ∧
            feed d.recorded limit (start (1 / stepRate) (1 / tickRate) longest) (s, []) ys =
              some r ∧
            (r.failures = [] ∧ r.device.2 = calls ∨
              ∃ fault earlier, r.failures = [.step fault] ∧ d.halted r.device.1 = true ∧
                r.device.2 = earlier ++ [.step] ∧ r.device.2 <+: calls) := by
  refine ⟨fun samples forwards => ?_, fun time => ?_, fun xs ys short same => ?_⟩
  · intro time calls c
    refine ⟨count_step_agendaFrom .., count_tick_agendaFrom .., fun limit enough =>
      ⟨(settled stepRate tickRate longest time 0 0 0 c).pacer,
        feed_recorded stepping ticking lawful lasting running forwards rfl enough, fun fine => ?_⟩⟩
    have done : c.done = calls := Device.done_of_no_fault fine
    have nonneg : 0 ≤ time := counted_nonneg lasting forwards
    refine ⟨(Course.made_of_no_fault fine).trans done, ?_⟩
    rw [settled_of_no_fault (Nat.zero_le _) (Nat.zero_le _) 0 fine done]
    exact ⟨rfl, rfl, owed_range stepping nonneg, owed_range ticking nonneg⟩
  · exact ⟨agenda_sorted stepping ticking time, agenda_nodup stepping ticking time,
      fun a => mem_agenda stepping ticking⟩
  · intro calls limit enough
    have fed {zs : List ℚ} (short : ∀ z ∈ zs, 0 ≤ z ∧ z ≤ longest) (same : zs.sum = xs.sum) :
        feed d.recorded limit (start (1 / stepRate) (1 / tickRate) longest) (s, []) zs =
          some ⟨(settled stepRate tickRate longest xs.sum 0 0 0 (d.course s calls)).pacer,
            ((d.course s calls).device, (d.course s calls).made),
            (d.course s calls).fault.toList.map .step⟩ := by
      have time : counted longest zs = xs.sum :=
        (counted_of_le fun z listed => (short z listed).2).trans same
      have listed : (agenda stepRate tickRate (counted longest zs)).map Dated.call = calls := by
        rw [time]
      rw [feed_recorded stepping ticking lawful lasting running (fun z listed => (short z listed).1)
        listed enough, time]
    have first := fed (fun x listed => short x (List.mem_append_left ys listed)) rfl
    have second := fed (fun y listed => short y (List.mem_append_right xs listed)) same.symm
    refine ⟨_, first, second, ?_⟩
    have halted := lawful.halted_course running calls
    cases failure : (d.course s calls).fault with
    | none =>
      refine .inl ⟨rfl, ?_⟩
      exact (Course.made_of_no_fault failure).trans (Device.done_of_no_fault failure)
    | some fault =>
      rw [failure] at halted
      exact .inr ⟨fault, (d.course s calls).done, rfl, halted, Course.made_of_fault failure,
        d.made_prefix s calls⟩

def watching (program : List UInt8) : Watched := ⟨.loaded program, ⟨.error, []⟩⟩

def goingOn : Watched := watching [0x60, 0x05, 0xF0, 0x15, 0x12, 0x04]

def goingWrong : Watched := watching [0x60, 0x05, 0x00, 0xEE]

set_option maxRecDepth 20000 in
/-- Three steps and two ticks in a unit of time, of which half a unit is the most that is made up
for. The last step falls due at the same time as the second tick. -/
theorem three_steps_two_ticks :
    (∃ p after,
      feed Watched.device.recorded 6 (start (1 / 3) (1 / 2) (1 / 2)) (goingOn, [])
          ([1 / 2, 7] : List ℚ) =
        some ⟨p, (after, [.step, .tick, .step, .tick, .step]), []⟩ ∧
      after.machine.timers.delay = 4 ∧ p.cycles = 3 ∧ p.ticks = 2) ∧
    ∃ r, feed Watched.device.recorded 6 (start (1 / 3) (1 / 2) (1 / 2)) (goingWrong, [])
          ([1 / 2, 1 / 2] : List ℚ) = some r ∧
      feed Watched.device.recorded 6 (start (1 / 3) (1 / 2) (1 / 2)) (goingWrong, [])
          ([1 / 4, 1 / 2, 1 / 4] : List ℚ) = some r ∧
      r.failures = [.step ⟨.stackUnderflow, some 0x202, some 0x00EE⟩] ∧
      r.device.2 = [.step, .tick, .step] := by
  have steps : (0 : ℚ) < 3 := by norm_num
  have ticks : (0 : ℚ) < 2 := by norm_num
  have half : (0 : ℚ) ≤ 1 / 2 := by norm_num
  have listed : (agenda 3 2 1).map Dated.call = [.step, .tick, .step, .tick, .step] := by
    have three : callsBy 3 1 = 3 := by decide +kernel
    have two : callsBy 2 1 = 2 := by decide +kernel
    rw [agenda, agendaFrom, cadence, cadence, three, two]
    norm_num [dueAfter, List.range', Dated.before]
  constructor
  · have running : Watched.device.halted goingOn = false := rfl
    obtain ⟨whole, -, -⟩ := paced_in_due_order watched_lawful running steps ticks half
    obtain ⟨-, -, fed⟩ := whole [1 / 2, 7] (by norm_num)
    have time : (([1 / 2, 7] : List ℚ).map (min · (1 / 2))).sum = 1 := by norm_num
    rw [time, listed] at fed
    obtain ⟨p, result, settled⟩ := fed 6 (by decide)
    obtain ⟨made, cycles, ticks, -⟩ := settled rfl
    rw [made] at result
    refine ⟨p, _, result, rfl, ?_⟩
    norm_num at cycles ticks
    exact ⟨cycles, ticks⟩
  · have running : Watched.device.halted goingWrong = false := rfl
    obtain ⟨whole, -, split⟩ := paced_in_due_order watched_lawful running steps ticks half
    have short : ∀ x ∈ ([1 / 2, 1 / 2] ++ [1 / 4, 1 / 2, 1 / 4] : List ℚ), 0 ≤ x ∧ x ≤ 1 / 2 := by
      norm_num
    have time : ([1 / 2, 1 / 2] : List ℚ).sum = 1 := by norm_num
    have counted : (([1 / 2, 1 / 2] : List ℚ).map (min · (1 / 2))).sum = 1 := by norm_num
    have same := split _ _ short (by norm_num)
    obtain ⟨-, -, fed⟩ := whole [1 / 2, 1 / 2] (by norm_num)
    rw [time, listed] at same
    rw [counted, listed] at fed
    obtain ⟨p, result, -⟩ := fed 6 (by decide)
    obtain ⟨r, first, second, -⟩ := same 6 (by decide)
    cases result.symm.trans first
    exact ⟨_, first, second, rfl, rfl⟩

end Chip8.Pacer
