import Chip8.Proofs.Aside
import Chip8.Proofs.Dialects
import Chip8.Proofs.KeyWait

set_option autoImplicit false
set_option relaxedAutoImplicit false

namespace Chip8.Machine

open Work

variable {m : Machine} {i : Instruction} {e e' : Event}

/-- Two events come to the same in either order: in the machine they lead to, and in what the host
is told of each. -/
structure Commute (m : Machine) (e e' : Event) : Prop where
  state : m.after [e, e'] = m.after [e', e]
  left : (m.next e').answer e = m.answer e
  right : (m.next e).answer e' = m.answer e'

/-- What the events of a host concern: the timers or the pad. -/
inductive Channel where
  | clock
  | pad
  deriving DecidableEq

namespace Channel

/-- The operations that look at or change what a channel concerns. -/
def readers : Channel → List Opcode
  | clock => [.readDelay, .setDelay, .setSound]
  | pad => [.skipIfKey, .skipUnlessKey, .awaitKey]

def other : Channel → Channel
  | clock => pad
  | pad => clock

end Channel

def Event.channel? : Event → Option Channel
  | .step => none
  | .tick => some .clock
  | .key _ _ => some .pad

def timersAfter (timers : Timers) : Event → Timers
  | .tick => timers.tick
  | _ => timers

def recordAfter (pad : Vector Bool 16) (waiting : Bool) (record : Option (Fin 16)) :
    Event → Option (Fin 16)
  | .key key down =>
    match padKey? key with
    | some k => if down && !pad.get k && waiting && record.isNone then some k else record
    | none => record
  | _ => record

def told (m : Machine) (e : Event) : Machine :=
  { m with
    timers := timersAfter m.timers e
    keys := padAfter m.keys e
    pressed := recordAfter m.keys m.waiting m.pressed e }

theorem next_eq_told (host : e ≠ .step) : m.next e = m.told e := by
  cases e with
  | step => exact absurd rfl host
  | tick => rfl
  | key key down =>
    rw [next_key]
    simp only [told, timersAfter, padAfter, recordAfter]
    cases padKey? key with
    | none => rfl
    | some k => rfl

private theorem aside_told (e : Event) : Aside (·.told e) where
  regs _ := rfl
  withRegs _ _ := rfl
  fetch _ := rfl
  goOn _ := rfl
  stop _ _ _ := rfl

/-- An instruction that has nothing to do with the channel of an event does the same after it. -/
theorem perform_told (apart : ∀ ch, e.channel? = some ch → i.opcode ∉ ch.readers) :
    (perform i).Passes (·.told e) m := by
  have aside := aside_told e
  rw [perform]
  cases op : i.opcode <;> rw [op] at apart
  case readDelay | setDelay | setSound =>
    cases e with
    | step => rfl
    | tick => exact absurd (by decide) (apart .clock rfl)
    | key key down => rfl
  case skipIfKey | skipUnlessKey =>
    cases e with
    | step => rfl
    | tick => exact passes_modify (aside.skipIf m _)
    | key key down => exact absurd (by decide) (apart .pad rfl)
  case awaitKey =>
    cases e with
    | step => rfl
    | tick => exact passes_modify (aside.awaitKey m _ rfl rfl fun _ _ _ => rfl)
    | key key down => exact absurd (by decide) (apart .pad rfl)
  case skipIfByte | skipUnlessByte | skipIfEqual | skipUnlessEqual =>
    exact passes_modify (aside.skipIf m _)
  case or | and | xor => exact passes_modify (aside.setLogic m _ _ rfl)
  case addIndex => exact passes_modify (aside.addToIndex m _ rfl)
  case ret | call | decimal | draw => exact passes_ask_bind rfl fun _ _ => rfl
  case store =>
    refine passes_ask_bind rfl fun memory _ => ?_
    exact passes_modify (aside.passBlock { m with memory } _ rfl)
  case load =>
    refine passes_ask_bind rfl fun block _ => ?_
    exact passes_modify_modify rfl (aside.passBlock (m.setBlock block) _ rfl)
  case unknown =>
    change EStateM.run (if m.policy = .halt then throw Cause.illegalInstruction else pure ⟨⟩ :
      Work Unit) _ = changed _ (EStateM.run
        (if m.policy = .halt then throw Cause.illegalInstruction else pure ⟨⟩ : Work Unit) m)
    split <;> rfl
  all_goals rfl

theorem step_told
    (apart : ∀ i ∈ m.current, ∀ ch, e.channel? = some ch → i.opcode ∉ ch.readers) :
    (m.told e).step = (m.step.1.told e, m.step.2) :=
  (aside_told e).step m fun i here => perform_told (apart i here)

theorem answer_of_host (host : e ≠ .step) (n : Machine) : m.answer e = n.answer e := by
  cases e with
  | step => exact absurd rfl host
  | tick => rfl
  | key key down =>
    rw [answer, answer, setKeyAt, setKeyAt]
    cases padKey? key <;> rfl

theorem commute_step (host : e ≠ .step)
    (apart : ∀ i ∈ m.current, ∀ ch, e.channel? = some ch → i.opcode ∉ ch.readers) :
    m.Commute e .step := by
  have same := step_told apart
  have first : (m.next e).step = (m.step.1.next e, m.step.2) := by
    rw [next_eq_told host, next_eq_told host, same]
  have reported : (m.next e).step.2 = m.step.2 := by rw [first]
  exact ⟨congrArg Prod.fst first, answer_of_host host m, congrArg Answer.stepped reported⟩

theorem next_next {ch : Channel} (on : e.channel? = some ch) (off : e'.channel? = some ch.other) :
    (m.next e).next e' = (m.next e').next e := by
  have host : e ≠ .step := by
    rintro rfl
    cases on
  have host' : e' ≠ .step := by
    rintro rfl
    cases off
  rw [next_eq_told host, next_eq_told host', next_eq_told host', next_eq_told host]
  cases e with
  | step => exact absurd rfl host
  | tick =>
    cases on
    cases e' with
    | step => exact absurd rfl host'
    | tick => cases off
    | key key down => rfl
  | key key down =>
    cases on
    cases e' with
    | step => exact absurd rfl host'
    | tick => rfl
    | key key down => cases off

end Chip8.Machine
