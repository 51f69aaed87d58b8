import Mathlib.Tactic.Common
import Chip8.Pacing
import Chip8.Proofs.Pacing.Payment
import Chip8.Proofs.Run

set_option autoImplicit false
set_option relaxedAutoImplicit false

namespace Chip8

variable {τ σ ε : Type}

inductive Reply where
  | ticked
  | stepped
  | failed
  deriving DecidableEq

def Pacer.Call.reply : Pacer.Call → Reply
  | .tick => .ticked
  | .step => .stepped

namespace Course

def replies (c : Course σ ε) : List Reply :=
  match c.fault with
  | none => c.done.map Pacer.Call.reply
  | some _ => c.done.map Pacer.Call.reply ++ [.failed]

private theorem replies_following (earlier : List Pacer.Call) (c : Course σ ε) :
    (c.following earlier).replies = earlier.map Pacer.Call.reply ++ c.replies := by
  rw [replies, replies, fault_following, done_following, List.map_append]
  cases c.fault with
  | none => rfl
  | some fault => exact List.append_assoc ..

end Course

section Counts

variable (calls : List Pacer.Call)

private theorem count_stepped :
    (calls.map Pacer.Call.reply).count .stepped = calls.count .step := by
  induction calls with
  | nil => rfl
  | cons call calls ih => cases call <;> simp [Pacer.Call.reply, ih]

private theorem count_ticked : (calls.map Pacer.Call.reply).count .ticked = calls.count .tick := by
  induction calls with
  | nil => rfl
  | cons call calls ih => cases call <;> simp [Pacer.Call.reply, ih]

private theorem not_mem_failed : Reply.failed ∉ calls.map Pacer.Call.reply := by
  intro listed
  obtain ⟨call, -, same⟩ := List.mem_map.mp listed
  cases call <;> cases same

end Counts

namespace Device

def replying (d : Device σ ε) : Device (σ × List Reply) ε where
  halted s := d.halted s.1
  tick s := (d.tick s.1, s.2 ++ [.ticked])
  step s :=
    (((d.step s.1).1, s.2 ++ [if (d.step s.1).2.isSome then .failed else .stepped]),
      (d.step s.1).2)

private theorem replying_course (d : Device σ ε) (s : σ) (past : List Reply)
    (calls : List Pacer.Call) :
    d.replying.course (s, past) calls =
      ⟨((d.course s calls).device, past ++ (d.course s calls).replies), (d.course s calls).done,
        (d.course s calls).fault⟩ := by
  induction s, calls using course_induction d generalizing past with
  | nil s =>
    rw [course, course]
    simp [Course.replies]
  | tick s calls ih =>
    have next := ih (past ++ [.ticked])
    rw [List.append_assoc] at next
    rw [course, course, Course.replies_following]
    exact congrArg _ next
  | fault s s' fault calls failed =>
    have replied : d.replying.step (s, past) = ((s', past ++ [.failed]), some fault) := by
      simp only [replying, failed, Option.isSome_some, if_true]
    rw [course_of_fault failed, course_of_fault replied]
    rfl
  | step s s' calls stepped ih =>
    have replied : d.replying.step (s, past) = ((s', past ++ [.stepped]), none) := by
      simp [replying, stepped]
    have next := ih (past ++ [.stepped])
    rw [List.append_assoc] at next
    rw [course_of_step stepped, course_of_step replied, Course.replies_following]
    exact congrArg _ next

end Device

namespace Pacer

section Booked

variable {p q : Pacer τ} {log : List Reply} {calls : List Call}

/-- The counters tell the calls that came back. -/
structure Booked (p : Pacer τ) (log : List Reply) : Prop where
  cycles : p.cycles = log.count .stepped
  ticks : p.ticks = log.count .ticked

theorem Booked.more (booked : Booked p log) (cycles : q.cycles = p.cycles + calls.count .step)
    (ticks : q.ticks = p.ticks + calls.count .tick) : Booked q (log ++ calls.map Call.reply) := by
  constructor
  · rw [cycles, booked.cycles, List.count_append, count_stepped]
  · rw [ticks, booked.ticks, List.count_append, count_ticked]

theorem Booked.failed (booked : Booked p log) : Booked p (log ++ [.failed]) := by
  constructor
  · rw [booked.cycles, List.count_append]
    rfl
  · rw [booked.ticks, List.count_append]
    rfl

end Booked

section Credit

def credit (p : Pacer τ) (cycles ticks : Nat) : Pacer τ :=
  { p with cycles := p.cycles + cycles, ticks := p.ticks + ticks }

def Outcome.credit (o : Outcome τ σ ε) (cycles ticks : Nat) : Outcome τ σ ε :=
  { o with pacer := o.pacer.credit cycles ticks }

variable (p : Pacer τ) (cycles ticks : Nat)

private theorem payTick_credit [Sub τ] :
    (p.credit cycles ticks).payTick.countTick = p.payTick.countTick.credit cycles ticks := by
  simp only [credit, payTick, countTick, Nat.add_right_comm]

private theorem payStep_credit [Sub τ] :
    (p.credit cycles ticks).payStep.countStep = p.payStep.countStep.credit cycles ticks := by
  simp only [credit, payStep, countStep, Nat.add_right_comm]

private theorem reset_eq_credit [OfNat τ 0] :
    p.reset = (start p.stepPeriod p.tickPeriod p.longest).credit p.cycles p.ticks := by
  simp only [reset, start, credit, Nat.zero_add]

variable [OfNat τ 0] [Sub τ] [LE τ] [DecidableLE τ] {d : Device σ ε}

/-- What calls are made does not depend on the counters. -/
theorem settle_credit (limit : Nat) (s : σ) (made : Nat) :
    settle d limit (p.credit cycles ticks) s made =
      (settle d limit p s made).map (·.credit cycles ticks) := by
  induction limit generalizing p s made with
  | zero => rfl
  | succ limit ih =>
    cases due : p.due with
    | nothing =>
      rw [settle_of_nothing due, settle_of_nothing (p := p.credit cycles ticks) due]
      rfl
    | tick =>
      rw [settle_of_tick due, settle_of_tick (p := p.credit cycles ticks) due, payTick_credit, ih]
    | step =>
      rcases stepped : d.step s with ⟨s', - | fault⟩
      · rw [settle_of_step due stepped, settle_of_step (p := p.credit cycles ticks) due stepped,
          payStep_credit, ih]
      · rw [settle_of_fault due stepped, settle_of_fault (p := p.credit cycles ticks) due stepped]
        rfl

private theorem advance_credit [Add τ] [LT τ] [DecidableLT τ] (limit : Nat) (s : σ) (elapsed : τ) :
    advance d limit (p.credit cycles ticks) s elapsed =
      (advance d limit p s elapsed).map (·.credit cycles ticks) := by
  rw [advance, advance]
  split
  · rfl
  · split
    · rfl
    · exact settle_credit (p.owe (p.clamp elapsed)) cycles ticks limit s 0

end Credit

variable [OfNat τ 0] [Add τ] [Sub τ] [LE τ] [LT τ] [DecidableLE τ] [DecidableLT τ]

/-- What a host asks of a pacer, or does to its device without it. -/
inductive Request (τ σ : Type) where
  | advance (elapsed : τ)
  | reset
  | outside (change : σ → σ)

/-- A pacer, its device and the record of its calls after a request. -/
def follow (d : Device σ ε) (limit : Nat) (p : Pacer τ) (s : σ × List Reply) :
    Request τ σ → Option (Pacer τ × σ × List Reply)
  | .advance elapsed => (advance d.replying limit p s elapsed).map fun o => (o.pacer, o.device)
  | .reset => some (p.reset, s)
  | .outside change => some (p, change s.1, s.2)

def followAll (d : Device σ ε) (limit : Nat) (p : Pacer τ) (s : σ × List Reply) :
    List (Request τ σ) → Option (Pacer τ × σ × List Reply)
  | [] => some (p, s)
  | r :: requests =>
    match follow d limit p s r with
    | none => none
    | some (p, s) => followAll d limit p s requests

variable {d : Device σ ε} {limit : Nat} {p q : Pacer τ} {s s' : σ} {log log' : List Reply}
  {calls : List Call} {elapsed : τ} {made : Nat} {fault : ε}

private theorem course_of_replying
    (course : d.replying.course (s, log) calls = ⟨(s', log'), calls, none⟩) :
    d.course s calls = ⟨s', calls, none⟩ ∧ log' = log ++ calls.map Call.reply := by
  rw [Device.replying_course, Course.replies] at course
  cases taken : d.course s calls with
  | mk device done fault =>
    rw [taken] at course
    cases fault with
    | none =>
      cases course
      exact ⟨rfl, rfl⟩
    | some fault => cases course

private theorem step_of_replying (failed : d.replying.step (s, log) = ((s', log'), some fault)) :
    d.step s = (s', some fault) ∧ log' = log ++ [.failed] := by
  have device : (d.step s).1 = s' := congrArg (fun r => r.1.1) failed
  have found : (d.step s).2 = some fault := congrArg Prod.snd failed
  have record : log ++ [if (d.step s).2.isSome then .failed else .stepped] = log' :=
    congrArg (fun r => r.1.2) failed
  rw [found] at record
  exact ⟨Prod.ext device found, record.symm⟩

private theorem advance_returned
    (ran : advance d.replying limit p (s, log) elapsed = some ⟨q, (s', log'), .ok made⟩) :
    ∃ calls, d.course s calls = ⟨s', calls, none⟩ ∧ log' = log ++ calls.map Call.reply ∧
      made = calls.count .step ∧ q.cycles = p.cycles + calls.count .step ∧
      q.ticks = p.ticks + calls.count .tick := by
  rcases advance_cases ran with ⟨-, same⟩ | ⟨-, -, absurd⟩ | ⟨-, -, calls, -, ended⟩
  · cases same
    exact ⟨[], rfl, (List.append_nil log).symm, rfl, rfl, rfl⟩
  · cases absurd
  · cases ended with
    | settled paid idle course =>
      obtain ⟨course, record⟩ := course_of_replying course
      obtain ⟨cycles, ticks⟩ := paid.counted
      exact ⟨calls, course, record, Nat.zero_add _, cycles, ticks⟩

private theorem advance_failed
    (ran : advance d.replying limit p (s, log) elapsed =
      some ⟨q, (s', log'), .error (.step fault)⟩) :
    ∃ calls s₁, d.course s calls = ⟨s₁, calls, none⟩ ∧ d.step s₁ = (s', some fault) ∧
      log' = log ++ calls.map Call.reply ++ [.failed] ∧
      q = (start p.stepPeriod p.tickPeriod p.longest).credit (p.cycles + calls.count .step)
        (p.ticks + calls.count .tick) := by
  rcases advance_cases ran with ⟨-, absurd⟩ | ⟨-, -, absurd⟩ | ⟨-, -, calls, -, ended⟩
  · cases absurd
  · cases absurd
  · cases ended with
    | @failed q s₁ s' fault paid last course failed =>
      obtain ⟨course, before⟩ := course_of_replying course
      obtain ⟨failed, record⟩ := step_of_replying failed
      obtain ⟨stepPeriod, tickPeriod, longest⟩ := paid.kept
      obtain ⟨cycles, ticks⟩ := paid.counted
      refine ⟨calls, s₁.1, course, failed, ?_, ?_⟩
      · rw [record, before]
      · rw [reset_eq_credit]
        change (start q.stepPeriod q.tickPeriod q.longest).credit q.cycles q.ticks = _
        rw [stepPeriod, tickPeriod, longest, cycles, ticks]
        rfl

private theorem advance_backwards
    (ran : advance d limit p s elapsed = some ⟨q, s', .error .backwards⟩) :
    d.halted s = false ∧ elapsed < 0 ∧ q = p ∧ s' = s := by
  rcases advance_cases ran with ⟨-, absurd⟩ | ⟨running, backwards, same⟩ | ⟨-, -, calls, -, ended⟩
  · cases absurd
  · cases same
    exact ⟨running, backwards, rfl, rfl⟩
  · cases ended

private theorem failed_of_mem {result : Except (Failure ε) Nat}
    (ran : advance d.replying limit p (s, log) elapsed = some ⟨q, (s', log'), result⟩)
    (listed : .failed ∈ log'.drop log.length) : ∃ fault, result = .error (.step fault) := by
  rcases result with (- | fault) | made
  · obtain ⟨-, -, -, same⟩ := advance_backwards ran
    cases same
    rw [List.drop_length] at listed
    cases listed
  · exact ⟨fault, rfl⟩
  · obtain ⟨calls, -, rfl, -⟩ := advance_returned ran
    rw [List.drop_left] at listed
    exact absurd listed (not_mem_failed calls)

theorem Booked.advance {o : Outcome τ (σ × List Reply) ε} (booked : Booked p log)
    (ran : advance d.replying limit p (s, log) elapsed = some o) : Booked o.pacer o.device.2 := by
  obtain ⟨q, ⟨s', log'⟩, failure | made⟩ := o
  · cases failure with
    | backwards =>
      obtain ⟨-, -, rfl, same⟩ := advance_backwards ran
      cases same
      exact booked
    | step fault =>
      obtain ⟨calls, s₁, -, -, rfl, rfl⟩ := advance_failed ran
      exact (booked.more (q := (start p.stepPeriod p.tickPeriod p.longest).credit
        (p.cycles + calls.count .step) (p.ticks + calls.count .tick)) (Nat.zero_add _)
        (Nat.zero_add _)).failed
  · obtain ⟨calls, -, rfl, -, cycles, ticks⟩ := advance_returned ran
    exact booked.more cycles ticks

theorem Booked.follow {s s' : σ × List Reply} {r : Request τ σ} (booked : Booked p s.2)
    (followed : follow d limit p s r = some (q, s')) : Booked q s'.2 := by
  cases r with
  | advance elapsed =>
    obtain ⟨o, ran, same⟩ := Option.map_eq_some_iff.mp followed
    cases same
    exact booked.advance ran
  | reset =>
    cases followed
    exact ⟨booked.cycles, booked.ticks⟩
  | outside change =>
    cases followed
    exact booked

private theorem Booked.followAll {s s' : σ × List Reply} {requests : List (Request τ σ)}
    (booked : Booked p s.2) (followed : followAll d limit p s requests = some (q, s')) :
    Booked q s'.2 := by
  induction requests generalizing p s with
  | nil =>
    cases followed
    exact booked
  | cons r requests ih =>
    unfold Pacer.followAll at followed
    split at followed
    · cases followed
    · rename_i p₁ s₁ first
      exact ih (booked.follow first) followed

/-- A pacer counts the calls that came back, whatever is asked of it and whatever happens to its
device. An advance of a halted device and one backwards change nothing; one that comes back tells
how many steps it made; and one in which a step fails hands the fault on, keeps what came before it,
and drops all the time that was owed, so that the pacer goes on like a new one. -/
theorem books_kept (d : Device σ ε) (limit : Nat) :
    (∀ (stepPeriod tickPeriod longest : τ) (s : σ) (requests : List (Request τ σ)),
      ∀ r ∈ followAll d limit (start stepPeriod tickPeriod longest) (s, []) requests,
        r.1.cycles = r.2.2.count .stepped ∧ r.1.ticks = r.2.2.count .ticked) ∧
      ∀ (p : Pacer τ) (s : σ) (log : List Reply) (elapsed : τ),
        (d.halted s = true →
          advance d.replying limit p (s, log) elapsed = some ⟨p, (s, log), .ok 0⟩) ∧
        (d.halted s = false → elapsed < 0 →
          advance d.replying limit p (s, log) elapsed =
            some ⟨p, (s, log), .error .backwards⟩) ∧
        ∀ o ∈ advance d.replying limit p (s, log) elapsed,
          (.failed ∈ o.device.2.drop log.length → ∃ fault, o.result = .error (.step fault)) ∧
          (∀ made, o.result = .ok made →
            ∃ calls, d.course s calls = ⟨o.device.1, calls, none⟩ ∧
              o.device.2 = log ++ calls.map Call.reply ∧ made = calls.count .step) ∧
          ∀ fault, o.result = .error (.step fault) →
            (∃ calls s₁, d.course s calls = ⟨s₁, calls, none⟩ ∧
              d.step s₁ = (o.device.1, some fault) ∧
              o.device.2 = log ++ calls.map Call.reply ++ [.failed] ∧
              o.pacer = { start p.stepPeriod p.tickPeriod p.longest with
                cycles := p.cycles + calls.count .step
                ticks := p.ticks + calls.count .tick }) ∧
            ∀ (limit' : Nat) (s' : σ) (elapsed' : τ),
              (advance d.replying limit' o.pacer (s', []) elapsed').map
                  (fun o => (o.device, o.result)) =
                (advance d.replying limit' (start p.stepPeriod p.tickPeriod p.longest) (s', [])
                  elapsed').map fun o => (o.device, o.result) := by
  refine ⟨fun stepPeriod tickPeriod longest s requests r followed => ?_,
    fun p s log elapsed => ⟨fun halted => ?_, fun running backwards => ?_, fun o ran => ?_⟩⟩
  · have booked : Booked (start stepPeriod tickPeriod longest) [] := ⟨rfl, rfl⟩
    obtain ⟨cycles, ticks⟩ := booked.followAll (s := (s, [])) followed
    exact ⟨cycles, ticks⟩
  · exact if_pos halted
  · have running' : ¬ d.replying.halted (s, log) = true := Bool.eq_false_iff.mp running
    rw [advance, if_neg running', if_pos backwards]
  obtain ⟨q, ⟨s', log'⟩, result⟩ := o
  refine ⟨fun listed => failed_of_mem ran listed, fun made returned => ?_, fun fault failed => ?_⟩
  · obtain rfl : result = .ok made := returned
    obtain ⟨calls, course, record, steps, -, -⟩ := advance_returned ran
    exact ⟨calls, course, record, steps⟩
  · obtain rfl : result = .error (.step fault) := failed
    obtain ⟨calls, s₁, course, failed, record, left⟩ := advance_failed ran
    subst left
    refine ⟨⟨calls, s₁, course, failed, record, ?_⟩, fun limit' s' elapsed' => ?_⟩
    · simp only [credit, start, Nat.zero_add]
    · rw [advance_credit, Option.map_map]
      rfl

/-- A machine that returns from no call at its second step. -/
def faulty : Watched := ⟨.loaded [0x60, 0x05, 0x00, 0xEE], ⟨.error, []⟩⟩

def stopped : Watched := ⟨{ faulty.machine with halted := true }, ⟨.error, []⟩⟩

def usual : Pacer Float := start (1 / 100) (1 / 60) usualLongest

/-- A fault, an advance of the machine that it has halted, and a new program. -/
def visit : List (Request Float Watched) :=
  [.advance 0.015, .advance 0.02, .advance 0.5,
    .outside fun w => { w with machine := (w.machine.load [0x12, 0x00]).1 }, .reset, .advance 0.025]

set_option maxRecDepth 20000 in
theorem visit_booked :
    (∃ r ∈ followAll Watched.device 6 usual (faulty, []) visit, r.1.cycles = 3 ∧ r.1.ticks = 2) ∧
      advance Watched.device.replying 6 usual (stopped, []) 0.5 =
        some ⟨usual, (stopped, []), .ok 0⟩ ∧
      advance Watched.device.replying 6 usual (faulty, []) (-1) =
        some ⟨usual, (faulty, []), .error .backwards⟩ ∧
      (∃ o ∈ advance Watched.device.replying 6 usual (faulty, []) 0.015, o.result = .ok 1 ∧
        ∃ calls : List Call, o.device.2 = calls.map Call.reply ∧ calls.count .step = 1) ∧
      ∃ o ∈ advance Watched.device.replying 6 usual (faulty, []) 0.035,
        o.result = .error (.step ⟨.stackUnderflow, some 0x202, some 0x00EE⟩) ∧
          o.device.2 = [.stepped, .ticked, .failed] ∧
          o.pacer.stepOwed = 0 ∧ o.pacer.tickOwed = 0 := by
  have past : (-1 : Float) < 0 := by decide +kernel
  have visited : ∃ r ∈ followAll Watched.device 6 usual (faulty, []) visit,
      r.2.2 = [.stepped, .ticked, .failed, .stepped, .ticked, .stepped] := by
    decide +kernel
  have returns : ∃ o ∈ advance Watched.device.replying 6 usual (faulty, []) 0.015,
      o.result.toOption = some 1 := by
    decide +kernel
  have fails : ∃ o ∈ advance Watched.device.replying 6 usual (faulty, []) 0.035,
      o.device.2 = [.stepped, .ticked, .failed] ∧
        o.failures = [.step ⟨.stackUnderflow, some 0x202, some 0x00EE⟩] := by
    decide +kernel
  obtain ⟨onHalted, -, -⟩ := (books_kept Watched.device 6).2 usual stopped [] 0.5
  obtain ⟨-, onBackwards, -⟩ := (books_kept Watched.device 6).2 usual faulty [] (-1)
  obtain ⟨-, -, short⟩ := (books_kept Watched.device 6).2 usual faulty [] 0.015
  obtain ⟨-, -, long⟩ := (books_kept Watched.device 6).2 usual faulty [] 0.035
  refine ⟨?_, onHalted rfl, onBackwards rfl past, ?_, ?_⟩
  · obtain ⟨r, followed, log⟩ := visited
    obtain ⟨cycles, ticks⟩ := (books_kept Watched.device 6).1 _ _ _ faulty visit r followed
    rw [log] at cycles ticks
    exact ⟨r, followed, cycles, ticks⟩
  · obtain ⟨o, ran, made⟩ := returns
    obtain ⟨-, returned, -⟩ := short o ran
    have result : o.result = .ok 1 := by
      cases told : o.result with
      | error failure => simp [told, Except.toOption] at made
      | ok made' => simpa [told, Except.toOption] using made
    obtain ⟨calls, -, log, steps⟩ := returned 1 result
    exact ⟨o, ran, result, calls, log, steps.symm⟩
  · obtain ⟨o, ran, log, failures⟩ := fails
    obtain ⟨-, -, failed⟩ := long o ran
    have result : o.result = .error (.step ⟨.stackUnderflow, some 0x202, some 0x00EE⟩) := by
      cases told : o.result with
      | error failure => simpa [told, Outcome.failures] using failures
      | ok made => simp [told, Outcome.failures] at failures
    obtain ⟨⟨calls, s₁, -, -, -, left⟩, -⟩ := failed _ result
    exact ⟨o, ran, result, log, congrArg Pacer.stepOwed left, congrArg Pacer.tickOwed left⟩

end Pacer

end Chip8
