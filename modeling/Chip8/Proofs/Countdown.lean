import Mathlib.Data.List.Induction
import Mathlib.Data.List.Infix
import Chip8.Proofs.Frame
import Chip8.Proofs.Run

/-!
The timers as a law about what has happened since a program was loaded. Each has one instruction
that sets it and the ticks that count it down, so at any point it holds what it was last set to,
less the ticks since.
-/

set_option autoImplicit false
set_option relaxedAutoImplicit false

namespace Chip8

inductive Clock where
  | delay
  | sound

namespace Clock

def setter : Clock → Opcode
  | delay => .setDelay
  | sound => .setSound

def read (t : Timers) : Clock → UInt8
  | delay => t.delay
  | sound => t.sound

private theorem countDown_toNat (b : UInt8) : (Timers.countDown b).toNat = b.toNat - 1 := by
  unfold Timers.countDown
  split
  · rename_i zero
    rw [zero]
    rfl
  · rename_i positive
    have above : 1 ≤ b.toNat := by
      by_contra below
      exact positive (UInt8.toNat_inj.mp (Nat.lt_one_iff.mp (Nat.lt_of_not_le below)))
    exact UInt8.toNat_sub_of_le b 1 above

private theorem read_tick (c : Clock) (t : Timers) :
    (c.read t.tick).toNat = (c.read t).toNat - 1 := by
  cases c with
  | delay => exact countDown_toNat t.delay
  | sound => exact countDown_toNat t.sound

private theorem clamp_byte (b : UInt8) : Timers.clamp b.toNat = b := by
  have small := b.toNat_lt
  have low : ¬ ((b.toNat : Int) < 0) := by omega
  have high : ¬ (255 < (b.toNat : Int)) := by omega
  have whole : (b.toNat : Int) % 2 ^ 8 = b.toNat := by omega
  rw [Timers.clamp, if_neg low, if_neg high, UInt8.ofInt, whole, Int.toNat_natCast,
    UInt8.ofNat_toNat]

end Clock

namespace Machine

variable {m : Machine} {i : Instruction} {c : Clock} {v : UInt8} {t : Nat} {es : List Event}

private theorem read_of_setter (done : m.step.2 = .ok i) (op : i.opcode = c.setter) :
    c.read m.step.1.timers = m.v i.x := by
  obtain ⟨word, after, -, -, run, result⟩ := run_of_step done
  rw [result]
  cases c with
  | delay =>
    rw [perform, show i.opcode = .setDelay from op] at run
    cases run
    exact Clock.clamp_byte (m.v i.x)
  | sound =>
    rw [perform, show i.opcode = .setSound from op] at run
    cases run
    exact Clock.clamp_byte (m.v i.x)

private theorem read_of_run {m' : Machine} (run : (perform i).run m = .ok ⟨⟩ m')
    (other : i.opcode ≠ c.setter) : c.read m'.timers = c.read m.timers := by
  by_cases delay : i.opcode = .setDelay
  · cases c with
    | delay => exact absurd delay other
    | sound =>
      rw [perform, delay] at run
      cases run
      rfl
  by_cases sound : i.opcode = .setSound
  · cases c with
    | delay =>
      rw [perform, sound] at run
      cases run
      rfl
    | sound => exact absurd sound other
  · exact congrArg c.read ((perform_effect run).kept.timers delay sound)

private theorem read_of_other (other : ∀ i, m.step.2 = .ok i → i.opcode ≠ c.setter) :
    c.read m.step.1.timers = c.read m.timers := by
  cases m.stepped with
  | unfetched cause fetched result =>
    rw [result]
    rfl
  | refused word cause fetched run result =>
    rw [result]
    rfl
  | done word after fetched run result =>
    have op := other _ (congrArg Prod.snd result)
    have kept : c.read after.timers = c.read m.past.timers := read_of_run run op
    rw [result]
    exact kept

def Unset (c : Clock) (m : Machine) (es : List Event) : Prop :=
  ∀ pre, pre ++ [.step] <+: es → ∀ i, (m.after pre).step.2 = .ok i → i.opcode ≠ c.setter

/-- The value that a timer was last set to in a run, zero if it was not, and how many ticks have
come since. -/
inductive LastSet (c : Clock) (m : Machine) (es : List Event) : UInt8 → Nat → Prop where
  | never (unset : Unset c m es) : LastSet c m es 0 (es.count .tick)
  | set (before since : List Event) (split : es = before ++ .step :: since) (i : Instruction)
      (done : (m.after before).step.2 = .ok i) (op : i.opcode = c.setter)
      (unset : Unset c (m.after (before ++ [.step])) since) :
      LastSet c m es ((m.after before).v i.x) (since.count .tick)

private theorem unset_nil (c : Clock) (m : Machine) : Unset c m [] := by
  intro pre reached
  simp at reached

private theorem Unset.of_prefix {es' : List Event} (unset : Unset c m es) (shorter : es' <+: es) :
    Unset c m es' := fun pre reached => unset pre (reached.trans shorter)

private theorem Unset.snoc {e : Event} (unset : Unset c m es)
    (last : e = .step → ∀ i, (m.after es).step.2 = .ok i → i.opcode ≠ c.setter) :
    Unset c m (es ++ [e]) := by
  intro pre reached
  rcases List.prefix_concat_iff.mp reached with whole | inside
  · obtain ⟨rfl, single⟩ := List.append_inj' whole rfl
    exact last (List.singleton_inj.mp single).symm
  · exact unset pre inside

private theorem read_of_unset (unset : Unset c m es) :
    (c.read (m.after es).timers).toNat = (c.read m.timers).toNat - es.count .tick := by
  induction es using List.reverseRecOn with
  | nil => simp
  | append_singleton es e ih =>
    have before := ih (unset.of_prefix (List.prefix_append es [e]))
    rw [after_append, after_cons, after_nil, List.count_append, List.count_singleton]
    cases e with
    | step =>
      rw [next, read_of_other (unset es (List.prefix_refl _)), before]
      rfl
    | tick =>
      rw [next, tick, Clock.read_tick, before]
      exact Nat.sub_sub _ _ _
    | key key down =>
      obtain ⟨keys, pressed, result, -⟩ := next_key_kept (m.after es) key down
      rw [result, before]
      rfl

private theorem LastSet.snoc {e : Event} (last : LastSet c m es v t)
    (other : e = .step → ∀ i, (m.after es).step.2 = .ok i → i.opcode ≠ c.setter) :
    LastSet c m (es ++ [e]) v (t + [e].count .tick) := by
  cases last with
  | never unset =>
    rw [← List.count_append]
    exact .never (unset.snoc other)
  | set before since split i done op unset =>
    rw [← List.count_append]
    refine .set before (since ++ [e]) (by rw [split, List.append_assoc, List.cons_append]) i done op
      (unset.snoc ?_)
    rw [← after_append, List.append_assoc, List.singleton_append, ← split]
    exact other

private theorem exists_lastSet (c : Clock) (m : Machine) (es : List Event) :
    ∃ v t, LastSet c m es v t := by
  induction es using List.reverseRecOn with
  | nil => exact ⟨0, 0, .never (unset_nil c m)⟩
  | append_singleton es e ih =>
    obtain ⟨v, t, last⟩ := ih
    by_cases sets : e = .step ∧ ∃ i, (m.after es).step.2 = .ok i ∧ i.opcode = c.setter
    · obtain ⟨rfl, i, done, op⟩ := sets
      exact ⟨_, 0, .set es [] rfl i done op (unset_nil c _)⟩
    · refine ⟨v, _, last.snoc fun step i done op => ?_⟩
      exact sets ⟨step, i, done, op⟩

/-- In a run from a machine with the timer at zero, the timer holds what it was last set to, less
the ticks since. -/
theorem LastSet.read (last : LastSet c m es v t) (start : c.read m.timers = 0) :
    (c.read (m.after es).timers).toNat = v.toNat - t := by
  cases last with
  | never unset => rw [read_of_unset unset, start]
  | set before since split i done op unset =>
    rw [split, after_append, after_cons]
    rw [after_append, after_cons, after_nil] at unset
    rw [read_of_unset unset, next, read_of_setter done op]

private theorem timers_load (m : Machine) (p : List UInt8) : (m.load p).1.timers = .zero := by
  unfold load
  dsimp only
  split <;> rfl

private theorem v_of_readDelay (done : m.step.2 = .ok i) (op : i.opcode = .readDelay) :
    m.step.1.v i.x = m.timers.delay := by
  obtain ⟨word, after, -, -, run, result⟩ := run_of_step done
  rw [perform, op] at run
  cases run
  rw [result]
  exact (v_setV m.past i.x i.x _).trans (if_pos rfl)

/-- At every point of a run from a load, whatever steps, ticks and keys it is made of, each timer
holds what it was last set to, less the ticks since, and never less than zero. This is what an
instruction that reads the delay timer gets, and the sound is on as long as it is not zero. -/
theorem timers_follow_history (m : Machine) (p : List UInt8) (es : List Event) :
    let start := (m.load p).1
    let now := start.after es
    (∀ c, ∃ v t, LastSet c start es v t) ∧
      (∀ c v t, LastSet c start es v t → (c.read now.timers).toNat = v.toNat - t) ∧
      (∀ v t, LastSet .delay start es v t → ∀ i, now.step.2 = .ok i → i.opcode = .readDelay →
        (now.step.1.v i.x).toNat = v.toNat - t) ∧
      ∀ v t, LastSet .sound start es v t → (now.soundActive = true ↔ t < v.toNat) := by
  intro start now
  have zero (c : Clock) : c.read start.timers = 0 := by
    rw [timers_load]
    cases c <;> rfl
  have law {c : Clock} {v : UInt8} {t : Nat} (last : LastSet c start es v t) :
      (c.read now.timers).toNat = v.toNat - t := last.read (zero c)
  refine ⟨fun c => exists_lastSet c start es, fun c v t => law, fun v t last i done op => ?_,
    fun v t last => ?_⟩
  · rw [v_of_readDelay done op]
    exact law last
  · have left : (now.timers.sound).toNat = v.toNat - t := law last
    change decide (0 < now.timers.sound) = true ↔ _
    rw [decide_eq_true_iff, UInt8.lt_iff_toNat_lt, left]
    exact Nat.sub_pos_iff_lt

/-- A machine with a program that sets the delay timer to 5 and the sound timer to 2, and then reads
the delay timer. -/
def twoTimers : Machine :=
  loaded [0x60, 0x05, 0xF0, 0x15, 0x61, 0x02, 0xF1, 0x18, 0xF2, 0x07]

def twoTimersRun : List Event :=
  [.step, .step, .tick, .step, .step, .tick, .key 3 true, .tick]

set_option maxRecDepth 20000 in
theorem two_timers_counted :
    LastSet .delay twoTimers twoTimersRun 5 3 ∧ LastSet .sound twoTimers twoTimersRun 2 2 ∧
      ((twoTimers.after twoTimersRun).step.1.v 2).toNat = 2 ∧
      (twoTimers.after twoTimersRun).soundActive = false := by
  have unset_of_inits (c : Clock) (m : Machine) (es : List Event)
      (other : ∀ pre ∈ es.inits, ∀ i ∈ (m.after pre).step.2.toOption, i.opcode ≠ c.setter) :
      Unset c m es := by
    intro pre reached i done
    have before := List.mem_inits _ _ |>.mpr ((List.prefix_append pre _).trans reached)
    exact other pre before i (by rw [done]; rfl)
  have delay : LastSet .delay twoTimers twoTimersRun 5 3 :=
    .set [.step] [.tick, .step, .step, .tick, .key 3 true, .tick] rfl (.decode 0xF015) rfl rfl
      (unset_of_inits _ _ _ (by decide +kernel))
  have sound : LastSet .sound twoTimers twoTimersRun 2 2 :=
    .set [.step, .step, .tick, .step] [.tick, .key 3 true, .tick] rfl (.decode 0xF118) rfl rfl
      (unset_of_inits _ _ _ (by decide +kernel))
  obtain ⟨-, -, reads, sounds⟩ :=
    timers_follow_history (fresh .modern .halt (.empty 16) ⟨#[], 0⟩)
      [0x60, 0x05, 0xF0, 0x15, 0x61, 0x02, 0xF1, 0x18, 0xF2, 0x07] twoTimersRun
  refine ⟨delay, sound, reads 5 3 delay (.decode 0xF207) rfl rfl, ?_⟩
  exact Bool.eq_false_iff.mpr fun active => absurd ((sounds 2 2 sound).mp active) (by decide)

end Machine

end Chip8
