import Mathlib.Tactic.Common
import Chip8.Machine.Execute

/-!
A step and what stops it. Carrying out an instruction is clean: whatever may be refused is asked for
before the first change, so a refusal finds the machine untouched and putting the counter back
restores it.
-/

set_option autoImplicit false
set_option relaxedAutoImplicit false

namespace Chip8.Machine

variable {α β : Type}

/-- Work that nothing cuts short. -/
def Work.Sure (w : Work α) : Prop := ∀ m, ∃ a m', w.run m = .ok a m'

/-- Work that leaves the machine as it was when it is cut short. -/
def Work.Clean (w : Work α) : Prop := ∀ m cause left, w.run m = .error cause left → left = m

theorem run_ask (request : Machine → Except Cause α) (m : Machine) :
    EStateM.run (ask request) m =
      match request m with
      | .ok a => .ok a m
      | .error cause => .error cause m := rfl

namespace Work

theorem sure_modify (f : Machine → Machine) : Sure (modify f) := by
  intro m
  exact ⟨⟨⟩, f m, rfl⟩

theorem Sure.bind {w : Work α} {next : α → Work β} (first : w.Sure)
    (rest : ∀ a, (next a).Sure) : (w >>= next).Sure := by
  intro m
  obtain ⟨a, m₁, hw⟩ := first m
  obtain ⟨b, m₂, hn⟩ := rest a m₁
  refine ⟨b, m₂, ?_⟩
  rw [EStateM.run_bind, hw]
  exact hn

theorem sure_modify_modify (f g : Machine → Machine) :
    Sure (modify f >>= fun _ : PUnit => modify g) :=
  (sure_modify f).bind fun _ => sure_modify g

theorem Sure.clean {w : Work α} (sure : w.Sure) : w.Clean := by
  intro m cause left h
  obtain ⟨a, m', hw⟩ := sure m
  rw [hw] at h
  cases h

private theorem clean_modify (f : Machine → Machine) : Clean (modify f) := (sure_modify f).clean

/-- What is asked for first is what is refused, if the rest goes through, and nothing has changed by
then. -/
theorem refusal_of_ask_bind {request : Machine → Except Cause α} {next : α → Work β}
    {m left : Machine} {cause : Cause} (rest : ∀ a, (next a).Sure)
    (run : (ask request >>= next).run m = .error cause left) :
    request m = .error cause ∧ left = m := by
  rw [EStateM.run_bind, run_ask] at run
  cases granted : request m with
  | error c =>
    rw [granted] at run
    cases run
    exact ⟨rfl, rfl⟩
  | ok a =>
    rw [granted] at run
    obtain ⟨b, after, sure⟩ := rest a m
    change EStateM.run (next a) m = _ at run
    rw [sure] at run
    cases run

private theorem clean_ask_bind {request : Machine → Except Cause α} {next : α → Work β}
    (rest : ∀ a, (next a).Sure) : (ask request >>= next).Clean := by
  intro m cause left run
  obtain ⟨-, same⟩ := refusal_of_ask_bind rest run
  exact same

private theorem clean_get_bind {next : Machine → Work β} (rest : ∀ m, (next m).Clean) :
    ((get : Work Machine) >>= next).Clean := by
  intro m cause left h
  exact rest m m cause left h

end Work

open Work

private theorem perform_clean (i : Instruction) : (perform i).Clean := by
  unfold perform
  cases i.opcode with
  | ret =>
    exact clean_ask_bind fun _ => sure_modify_modify _ _
  | call =>
    exact clean_ask_bind fun _ => sure_modify_modify _ _
  | draw =>
    refine clean_ask_bind fun rows => ?_
    intro m
    exact ⟨_, _, rfl⟩
  | decimal => exact clean_ask_bind fun _ => sure_modify _
  | store => exact clean_ask_bind fun _ => sure_modify_modify _ _
  | load => exact clean_ask_bind fun _ => sure_modify_modify _ _
  | random =>
    exact clean_get_bind fun m => (sure_modify_modify _ _).clean
  | unknown =>
    refine clean_get_bind fun m => ?_
    intro m₁ cause left h
    split at h <;> cases h
    rfl
  | sys =>
    intro m cause left h
    cases h
  | _ => exact clean_modify _

def current (m : Machine) : Option Instruction :=
  m.fetch.toOption.map fun word => .decode word.toNat

theorem current_of_fetch {m : Machine} {word : UInt16} (fetched : m.fetch = .ok word) :
    m.current = some (.decode word.toNat) := by
  rw [current, fetched]
  rfl

inductive Stepped (m : Machine) : Prop where
  /-- There is no word at the counter. -/
  | unfetched (cause : Cause) (fetched : m.fetch = .error cause)
      (result : m.step = m.stop cause none)
  /-- The instruction is refused. -/
  | refused (word : UInt16) (cause : Cause) (fetched : m.fetch = .ok word)
      (run : (perform (.decode word.toNat)).run m.past = .error cause m.past)
      (result : m.step = m.stop cause (some word))
  /-- The instruction is carried out. -/
  | done (word : UInt16) (after : Machine) (fetched : m.fetch = .ok word)
      (run : (perform (.decode word.toNat)).run m.past = .ok ⟨⟩ after)
      (result : m.step = (after.goOn, .ok (.decode word.toNat)))

theorem step_of_run {m after : Machine} {word : UInt16} (fetched : m.fetch = .ok word)
    (run : (perform (.decode word.toNat)).run m.past = .ok ⟨⟩ after) :
    m.step = (after.goOn, .ok (.decode word.toNat)) := by
  simp only [step, fetched, run]

theorem stepped (m : Machine) : m.Stepped := by
  cases fetched : m.fetch with
  | error cause =>
    refine .unfetched cause fetched ?_
    simp only [step, fetched]
  | ok word =>
    cases run : (perform (.decode word.toNat)).run m.past with
    | error cause left =>
      obtain rfl := perform_clean _ _ _ _ run
      refine .refused word cause fetched run ?_
      simp only [step, fetched, run]
      rfl
    | ok value after =>
      exact .done word after fetched run (step_of_run fetched run)

theorem run_of_step {m : Machine} {i : Instruction} (done : m.step.2 = .ok i) :
    ∃ word after, m.fetch = .ok word ∧ i = .decode word.toNat ∧
      (perform i).run m.past = .ok ⟨⟩ after ∧ m.step.1 = after.goOn := by
  cases m.stepped with
  | unfetched cause fetched result =>
    rw [result] at done
    cases done
  | refused word cause fetched run result =>
    rw [result] at done
    cases done
  | done word after fetched run result =>
    rw [result] at done ⊢
    cases done
    exact ⟨word, after, fetched, rfl, run, rfl⟩

/-- A step that fails changes nothing but the record of the failure, which names the place and,
if there was one, the word. -/
theorem failed_step_restores (m : Machine) (fault : Fault) (failed : m.step.2 = .error fault) :
    m.step.1 = { m with halted := true, fault := some fault } ∧
      fault.pc = some m.regs.pc ∧
      fault.word = m.fetch.toOption.map fun word => (word.toNat : Int) := by
  cases m.stepped with
  | unfetched cause fetched result =>
    rw [result] at failed ⊢
    cases failed
    exact ⟨rfl, rfl, by rw [fetched]; rfl⟩
  | refused word cause fetched run result =>
    rw [result] at failed ⊢
    cases failed
    exact ⟨rfl, rfl, by rw [fetched]; rfl⟩
  | done word after fetched run result =>
    rw [result] at failed
    cases failed

/-- A machine about to store four registers into the last two bytes of memory. -/
def beforeLongStore : Machine :=
  ((fresh .cosmacVip .halt (.empty 2) ⟨#[], 0⟩).load [0xAF, 0xFE, 0xF3, 0x55]).1.step.1

set_option maxRecDepth 20000 in
theorem long_store_restores :
    beforeLongStore.step.2 = .error ⟨.outOfBounds 0xFFE 4, some 0x202, some 0xF355⟩ ∧
      beforeLongStore.step.1 = { beforeLongStore with
        halted := true, fault := some ⟨.outOfBounds 0xFFE 4, some 0x202, some 0xF355⟩ } := by
  have failed : beforeLongStore.step.2 =
      .error ⟨.outOfBounds 0xFFE 4, some 0x202, some 0xF355⟩ := rfl
  exact ⟨failed, (failed_step_restores beforeLongStore _ failed).1⟩

end Chip8.Machine
