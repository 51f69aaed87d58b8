import Chip8.Proofs.Step
import Chip8.Settings.Basic

set_option autoImplicit false
set_option relaxedAutoImplicit false

namespace Chip8.Machine

/-- What happens to a machine while a program runs. A key may be named by any whole number. -/
inductive Event where
  | step
  | tick
  | key (key : Int) (down : Bool)
  deriving DecidableEq

inductive Command where
  | load (program : List UInt8)
  | reset
  | event (e : Event)
  deriving DecidableEq

/-- The machine after an event. A failed step counts, and a key that does not exist changes
nothing. -/
def next (m : Machine) : Event → Machine
  | .step => m.step.1
  | .tick => m.tick
  | .key key down =>
    match m.setKeyAt key down with
    | .ok m => m
    | .error _ => m

def after (m : Machine) (events : List Event) : Machine := events.foldl next m

def obey (m : Machine) : Command → Machine
  | .load program => (m.load program).1
  | .reset => m.reset
  | .event e => m.next e

/-- The machines that settings can lead to: the one built from them, whatever its random stream
is, and those that any commands make of it. -/
inductive Reached (s : Settings) : Machine → Prop where
  | built {m : Machine} (build : s.machine = .ok m) (random : Twister) :
      Reached s { m with random }
  | obeyed {m : Machine} (reached : Reached s m) (c : Command) : Reached s (m.obey c)

@[simp] theorem after_nil (m : Machine) : m.after [] = m := rfl

@[simp] theorem after_cons (m : Machine) (e : Event) (es : List Event) :
    m.after (e :: es) = (m.next e).after es := rfl

@[simp] theorem after_append (m : Machine) (es es' : List Event) :
    m.after (es ++ es') = (m.after es).after es' := List.foldl_append

theorem Reached.after {s : Settings} {m : Machine} (reached : Reached s m) (es : List Event) :
    Reached s (m.after es) := by
  induction es generalizing m with
  | nil => exact reached
  | cons e es ih => exact ih (reached.obeyed (.event e))

theorem next_key (m : Machine) (key : Int) (down : Bool) :
    m.next (.key key down) =
      match padKey? key with
      | some k => m.setKey k down
      | none => m := by
  rw [next, setKeyAt]
  cases padKey? key <;> rfl

theorem next_key_kept (m : Machine) (key : Int) (down : Bool) :
    ∃ keys pressed, m.next (.key key down) = { m with keys, pressed } ∧
      (pressed = m.pressed ∨ m.waiting = true) := by
  rw [next_key]
  cases padKey? key with
  | none => exact ⟨m.keys, m.pressed, rfl, .inl rfl⟩
  | some k =>
    refine ⟨_, _, rfl, ?_⟩
    split
    · rename_i recorded
      simp only [Bool.and_eq_true] at recorded
      exact .inr recorded.1.2
    · exact .inl rfl

end Chip8.Machine

namespace Chip8.Settings

theorem machine_ok {s : Settings} {m : Machine} (build : s.machine = .ok m) :
    ∃ (depth : Nat) (random : Twister), s.stackDepth = .int depth ∧
      m = .fresh s.dialect s.policy (.empty depth) random := by
  unfold Settings.machine at build
  cases stack : stackOf s.stackDepth with
  | error reason =>
    rw [stack] at build
    cases build
  | ok slots =>
    cases stream : randomOf s.seed with
    | error reason =>
      rw [stack, stream] at build
      cases build
    | ok random =>
      rw [stack, stream] at build
      cases build
      unfold stackOf at stack
      split at stack
      · rename_i depth given
        unfold CallStack.ofDepth at stack
        split at stack
        · cases stack
        · split at stack
          · cases stack
          · split at stack
            · cases stack
            · rename_i positive _ _
              cases stack
              refine ⟨depth.toNat, random, ?_, rfl⟩
              rw [given, Int.toNat_of_nonneg (by omega)]
      · cases stack

end Chip8.Settings

namespace Chip8.Machine

/-- A machine of the default settings with a program in place and a random stream of zeros. -/
def loaded (program : List UInt8) : Machine :=
  (fresh .modern .halt (.empty 16) ⟨#[], 0⟩).obey (.load program)

theorem reached_loaded (program : List UInt8) : Reached .default (loaded program) := by
  have build : Settings.default.machine = .ok (fresh .modern .halt (.empty 16) (.ofSeed 0)) := rfl
  exact (Reached.built build ⟨#[], 0⟩).obeyed (.load program)

end Chip8.Machine
