import Chip8.Pacing
import Chip8.Proofs.Pacing.Payment
import Chip8.Proofs.Run

/-!
The two cadences of a pacer are decoupled. Each account is paid from as by a loop of its own,
whatever becomes of the other one, and nothing is needed of sums and differences for that: they may
round as they like, as long as the numbers that are compared are in order.
-/

set_option autoImplicit false
set_option relaxedAutoImplicit false

namespace Chip8.Pacer

variable {τ σ ε : Type}

section Alone

variable [OfNat τ 0] [Sub τ] [LE τ]

/-- A loop over one account, which takes a period from it as long as it holds one: how often it
does, and what it leaves. -/
inductive Paid (period : τ) : τ → Nat → τ → Prop where
  | stop {owed : τ} (short : ¬ 0 ≤ owed - period) : Paid period owed 0 owed
  | pay {owed left : τ} {times : Nat} (holds : 0 ≤ owed - period)
      (rest : Paid period (owed - period) times left) : Paid period owed (times + 1) left

/-- The same loop run after each of some payments into the account. -/
inductive Alone [Add τ] (period : τ) : τ → List τ → List (Nat × τ) → Prop where
  | nil (owed : τ) : Alone period owed [] []
  | cons {owed elapsed left : τ} {samples : List τ} {times : Nat} {later : List (Nat × τ)}
      (paid : Paid period (owed + elapsed) times left) (rest : Alone period left samples later) :
      Alone period owed (elapsed :: samples) ((times, left) :: later)

private theorem Paid.unique {period owed left left' : τ} {times times' : Nat}
    (paid : Paid period owed times left) (paid' : Paid period owed times' left') :
    times = times' ∧ left = left' := by
  induction paid generalizing times' with
  | stop short =>
    cases paid' with
    | stop short' => exact ⟨rfl, rfl⟩
    | pay holds rest => exact absurd holds short
  | pay holds rest ih =>
    cases paid' with
    | stop short => exact absurd holds short
    | pay holds' rest' =>
      obtain ⟨rfl, rfl⟩ := ih rest'
      exact ⟨rfl, rfl⟩

private theorem Alone.unique [Add τ] {period owed : τ} {samples : List τ}
    {rows rows' : List (Nat × τ)}
    (alone : Alone period owed samples rows) (alone' : Alone period owed samples rows') :
    rows = rows' := by
  induction alone generalizing rows' with
  | nil owed =>
    cases alone'
    rfl
  | cons paid rest ih =>
    cases alone' with
    | cons paid' rest' =>
      obtain ⟨rfl, rfl⟩ := paid.unique paid'
      rw [ih rest']

end Alone

/-- Any two of some numbers compare, and what they compare to is an order. -/
structure Ordered [LE τ] (xs : List τ) : Prop where
  total : ∀ a ∈ xs, ∀ b ∈ xs, a ≤ b ∨ b ≤ a
  trans : ∀ a ∈ xs, ∀ b ∈ xs, a ≤ b → ∀ c ∈ xs, b ≤ c → a ≤ c

instance [LE τ] [DecidableLE τ] (xs : List τ) : Decidable (Ordered xs) :=
  decidable_of_iff
    ((∀ a ∈ xs, ∀ b ∈ xs, a ≤ b ∨ b ≤ a) ∧ ∀ a ∈ xs, ∀ b ∈ xs, a ≤ b → ∀ c ∈ xs, b ≤ c → a ≤ c)
    ⟨fun h => ⟨h.1, h.2⟩, fun h => ⟨h.total, h.trans⟩⟩

theorem Ordered.subset [LE τ] {xs ys : List τ} (ordered : Ordered ys) (listed : xs ⊆ ys) :
    Ordered xs where
  total a ha b hb := ordered.total a (listed ha) b (listed hb)
  trans a ha b hb le c hc := ordered.trans a (listed ha) b (listed hb) le c (listed hc)

section Compared

variable [OfNat τ 0] [Sub τ] [LE τ] [DecidableLE τ] {p q : Pacer τ} {calls : List Call}

def looked (p : Pacer τ) : List τ := [0, p.stepOwed - p.stepPeriod, p.tickOwed - p.tickPeriod]

/-- The numbers that a pacer compares in all the rounds of an advance. -/
def compared : Nat → Pacer τ → List τ
  | 0, _ => []
  | limit + 1, p =>
    p.looked ++
      match p.due with
      | .nothing => []
      | .tick => compared limit p.payTick.countTick
      | .step => compared limit p.payStep.countStep

private theorem Pays.looked_subset {limit : Nat} (paid : Pays p calls q)
    (short : calls.length < limit) :
    q.looked ⊆ compared limit p := by
  obtain ⟨limit, rfl⟩ := Nat.exists_eq_add_one.mpr (Nat.zero_lt_of_lt short)
  induction paid generalizing limit with
  | nil p => exact List.subset_append_left _ _
  | tick due rest ih =>
    have fewer := Nat.lt_of_succ_lt_succ short
    obtain ⟨limit, rfl⟩ := Nat.exists_eq_add_one.mpr (Nat.zero_lt_of_lt fewer)
    rw [compared, due]
    exact List.subset_append_of_subset_right _ (ih limit fewer)
  | step due rest ih =>
    have fewer := Nat.lt_of_succ_lt_succ short
    obtain ⟨limit, rfl⟩ := Nat.exists_eq_add_one.mpr (Nat.zero_lt_of_lt fewer)
    rw [compared, due]
    exact List.subset_append_of_subset_right _ (ih limit fewer)

/-- Nothing is due only if both accounts are short of their periods: if the ticks were not, they
could not be behind the steps. -/
theorem short_of_nothing (due : p.due = .nothing) (ordered : Ordered p.looked) :
    ¬ 0 ≤ p.stepOwed - p.stepPeriod ∧ ¬ 0 ≤ p.tickOwed - p.tickPeriod := by
  obtain ⟨noTick, noStep⟩ := due_eq_nothing_iff.mp due
  have zero : 0 ∈ p.looked := List.mem_cons_self
  have stepOver : p.stepOwed - p.stepPeriod ∈ p.looked := by simp [looked]
  have tickOver : p.tickOwed - p.tickPeriod ∈ p.looked := by simp [looked]
  refine ⟨noStep, fun holds => ?_⟩
  have first : p.tickOwed - p.tickPeriod ≤ p.stepOwed - p.stepPeriod := by
    rcases ordered.total _ stepOver _ tickOver with behind | ahead
    · exact absurd ⟨holds, behind⟩ noTick
    · exact ahead
  exact noStep (ordered.trans 0 zero _ tickOver holds _ stepOver first)

private theorem Pays.ticks_paid (paid : Pays p calls q) (short : ¬ 0 ≤ q.tickOwed - q.tickPeriod) :
    Paid p.tickPeriod p.tickOwed (calls.count .tick) q.tickOwed := by
  induction paid with
  | nil p => exact .stop short
  | tick due rest ih =>
    rw [List.count_cons_self]
    exact .pay (due_eq_tick_iff.mp due).1 (ih short)
  | step due rest ih =>
    rw [List.count_cons_of_ne (by decide)]
    exact ih short

private theorem Pays.steps_paid (paid : Pays p calls q) (short : ¬ 0 ≤ q.stepOwed - q.stepPeriod) :
    Paid p.stepPeriod p.stepOwed (calls.count .step) q.stepOwed := by
  induction paid with
  | nil p => exact .stop short
  | tick due rest ih =>
    rw [List.count_cons_of_ne (by decide)]
    exact ih short
  | step due rest ih =>
    rw [List.count_cons_self]
    exact .pay (due_eq_step_iff.mp due).2 (ih short)

end Compared

private theorem clamp_congr [LT τ] [DecidableLT τ] {p q : Pacer τ} (same : q.longest = p.longest) :
    q.clamp = p.clamp := by
  funext elapsed
  rw [clamp, clamp, same]

variable [OfNat τ 0] [Add τ] [Sub τ] [LE τ] [LT τ] [DecidableLE τ] [DecidableLT τ]

/-- What an advance that came back made: its calls, the pacer after it, and the numbers that it
compared. -/
structure Turn (τ : Type) where
  calls : List Call
  pacer : Pacer τ
  numbers : List τ

/-- Advances by one stretch after another. There is no account of them if one finds the device
halted or does not come back. -/
def turns (d : Device σ ε) (limit : Nat) (p : Pacer τ) (s : σ) : List τ → Option (List (Turn τ))
  | [] => some []
  | elapsed :: samples =>
    if d.halted s then none
    else
      match advance d.recorded limit p (s, []) elapsed with
      | some ⟨q, (s', calls), .ok _⟩ =>
        (turns d limit q s' samples).map
          (⟨calls, q, compared limit (p.owe (p.clamp elapsed))⟩ :: ·)
      | _ => none

def Turn.ticks (t : Turn τ) : Nat × τ := (t.calls.count .tick, t.pacer.tickOwed)

def Turn.steps (t : Turn τ) : Nat × τ := (t.calls.count .step, t.pacer.stepOwed)

section Turns

variable {d : Device σ ε} {limit : Nat} {p : Pacer τ} {s : σ} {elapsed : τ} {samples : List τ}
  {ts : List (Turn τ)}

private theorem turns_cons (came : turns d limit p s (elapsed :: samples) = some ts) :
    ∃ calls q s' later, calls.length < limit ∧ Pays (p.owe (p.clamp elapsed)) calls q ∧
      q.due = .nothing ∧ turns d limit q s' samples = some later ∧
      ts = ⟨calls, q, compared limit (p.owe (p.clamp elapsed))⟩ :: later := by
  unfold turns at came
  split at came
  · cases came
  rename_i running
  have running : d.recorded.halted (s, []) = false := Bool.eq_false_iff.mpr running
  split at came
  · rename_i q s' log made ran
    obtain ⟨later, rest, rfl⟩ := Option.map_eq_some_iff.mp came
    obtain ⟨calls, short, paid, idle, course, -⟩ := advance_ok running ran
    rw [Device.recorded_course] at course
    have logged : (d.course s calls).made = log := congrArg (fun c => c.device.2) course
    have fine : (d.course s calls).fault = none := congrArg Course.fault course
    have done : (d.course s calls).done = calls := congrArg Course.done course
    rw [Course.made_of_no_fault fine, done] at logged
    subst logged
    exact ⟨calls, q, s', later, short, paid, idle, rest, rfl⟩
  · cases came

/-- Each cadence goes as if it were alone. -/
theorem alone_of_turns (came : turns d limit p s samples = some ts)
    (ordered : Ordered (ts.flatMap Turn.numbers)) :
    Alone p.tickPeriod p.tickOwed (samples.map p.clamp) (ts.map Turn.ticks) ∧
      Alone p.stepPeriod p.stepOwed (samples.map p.clamp) (ts.map Turn.steps) := by
  induction samples generalizing p s ts with
  | nil =>
    cases came
    exact ⟨.nil _, .nil _⟩
  | cons elapsed samples ih =>
    obtain ⟨calls, q, s', later, short, paid, idle, rest, rfl⟩ := turns_cons came
    rw [List.flatMap_cons] at ordered
    obtain ⟨ticks, steps⟩ := ih rest (ordered.subset (List.subset_append_right _ _))
    have looked : q.looked ⊆ compared limit (p.owe (p.clamp elapsed)) := paid.looked_subset short
    obtain ⟨noStep, noTick⟩ := short_of_nothing idle
      (ordered.subset (List.subset_append_of_subset_left _ looked))
    obtain ⟨stepPeriod, tickPeriod, longest⟩ := paid.kept
    have clamp : q.clamp = p.clamp := clamp_congr longest
    rw [clamp, show q.tickPeriod = p.tickPeriod from tickPeriod] at ticks
    rw [clamp, show q.stepPeriod = p.stepPeriod from stepPeriod] at steps
    exact ⟨.cons (paid.ticks_paid noTick) ticks, .cons (paid.steps_paid noStep) steps⟩

end Turns

/-- On a device that is never found halted and does not fail, the ticks and the tick account go as
in a loop of their own, and so do the steps and the step account. So the ticks do not depend on how
fast the steps are, or on what they do. -/
theorem cadences_decoupled {d : Device σ ε} {limit : Nat} {p : Pacer τ} {s : σ} {samples : List τ}
    {ts : List (Turn τ)} (came : turns d limit p s samples = some ts)
    (ordered : Ordered (ts.flatMap Turn.numbers)) :
    Alone p.tickPeriod p.tickOwed (samples.map p.clamp) (ts.map Turn.ticks) ∧
      Alone p.stepPeriod p.stepOwed (samples.map p.clamp) (ts.map Turn.steps) ∧
      ∀ {σ' ε' : Type} (d' : Device σ' ε') (limit' : Nat) (p' : Pacer τ) (s' : σ')
        (ts' : List (Turn τ)), turns d' limit' p' s' samples = some ts' →
        Ordered (ts'.flatMap Turn.numbers) → p'.tickPeriod = p.tickPeriod →
        p'.longest = p.longest → p'.tickOwed = p.tickOwed →
        ts'.map Turn.ticks = ts.map Turn.ticks ∧
          ∀ k, ((ts'.take k).flatMap Turn.calls).count .tick =
            ((ts.take k).flatMap Turn.calls).count .tick := by
  obtain ⟨ticks, steps⟩ := alone_of_turns came ordered
  refine ⟨ticks, steps, fun d' limit' p' s' ts' came' ordered' period longest owed => ?_⟩
  obtain ⟨ticks', -⟩ := alone_of_turns came' ordered'
  rw [period, owed, clamp_congr longest] at ticks'
  have same : ts'.map Turn.ticks = ts.map Turn.ticks := ticks'.unique ticks
  refine ⟨same, fun k => ?_⟩
  have counts {us : List (Turn τ)} :
      ((us.take k).flatMap Turn.calls).count .tick =
        (((us.map Turn.ticks).take k).map Prod.fst).sum := by
    rw [List.count_flatMap, ← List.map_take, List.map_map]
    rfl
  rw [counts, counts, same]

def spinning : Watched := ⟨.loaded [0x12, 0x00], ⟨.error, []⟩⟩

def brisk : Pacer Float := start (1 / 180) (1 / 60) usualLongest

def leisurely : Pacer Float := start (1 / 100) (1 / 60) usualLongest

set_option maxRecDepth 20000 in
theorem leisurely_ticks_like_brisk :
    ∃ ts ts', turns Watched.device 6 brisk spinning [0.01, 0.01] = some ts ∧
      turns Watched.device 6 leisurely spinning [0.01, 0.01] = some ts' ∧
      ts.map (·.calls.count .step) = [1, 2] ∧ ts'.map (·.calls.count .step) = [1, 1] ∧
      ts.map (·.calls.count .tick) = [0, 1] ∧ ts'.map Turn.ticks = ts.map Turn.ticks := by
  have made : (turns Watched.device 6 brisk spinning [0.01, 0.01]).isSome = true ∧
      ∀ ts ∈ turns Watched.device 6 brisk spinning [0.01, 0.01],
        Ordered (ts.flatMap Turn.numbers) ∧ ts.map (·.calls.count .step) = [1, 2] ∧
          ts.map (·.calls.count .tick) = [0, 1] := by
    decide +kernel
  have made' : (turns Watched.device 6 leisurely spinning [0.01, 0.01]).isSome = true ∧
      ∀ ts ∈ turns Watched.device 6 leisurely spinning [0.01, 0.01],
        Ordered (ts.flatMap Turn.numbers) ∧ ts.map (·.calls.count .step) = [1, 1] := by
    decide +kernel
  obtain ⟨ts, came⟩ := Option.isSome_iff_exists.mp made.1
  obtain ⟨ts', came'⟩ := Option.isSome_iff_exists.mp made'.1
  obtain ⟨ordered, steps, ticks⟩ := made.2 ts came
  obtain ⟨ordered', steps'⟩ := made'.2 ts' came'
  obtain ⟨-, -, others⟩ := cadences_decoupled came ordered
  have alike : leisurely.tickPeriod = brisk.tickPeriod ∧ leisurely.longest = brisk.longest ∧
      leisurely.tickOwed = brisk.tickOwed := by
    simp only [leisurely, brisk, start, and_self]
  obtain ⟨same, -⟩ := others Watched.device 6 leisurely spinning ts' came' ordered' alike.1
    alike.2.1 alike.2.2
  exact ⟨ts, ts', came, came', steps, steps', ticks, same⟩

end Chip8.Pacer
