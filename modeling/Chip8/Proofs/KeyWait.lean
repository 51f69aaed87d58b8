import Mathlib.Data.List.Infix
import Mathlib.Data.List.Induction
import Mathlib.Logic.Function.Iterate
import Chip8.Proofs.Frame
import Chip8.Proofs.Run

set_option autoImplicit false
set_option relaxedAutoImplicit false

namespace Chip8.Machine

variable {m : Machine} {i : Instruction}

def padAfter (pad : Vector Bool 16) : Event → Vector Bool 16
  | .key key down =>
    match padKey? key with
    | some k => pad.setIfInBounds k down
    | none => pad
  | _ => pad

def press? (pad : Vector Bool 16) : Event → Option (Fin 16)
  | .key key true => (padKey? key).filter fun k => !pad.get k
  | _ => none

/-- The keys that go from up to down in the course of events, the earliest first. -/
def presses (pad : Vector Bool 16) : List Event → List (Fin 16)
  | [] => []
  | e :: es => (press? pad e).toList ++ presses (padAfter pad e) es

private theorem presses_snoc (pad : Vector Bool 16) (es : List Event) (e : Event) :
    presses pad (es ++ [e]) = presses pad es ++ (press? (es.foldl padAfter pad) e).toList := by
  induction es generalizing pad with
  | nil => simp [presses]
  | cons e' es ih =>
    rw [List.cons_append, presses, presses, ih, List.foldl_cons, List.append_assoc]

/-- The machine after it has waited through events: the pad and the timers follow them, the first
press is on record, and every step has counted a cycle. -/
def waited (m : Machine) (es : List Event) : Machine :=
  { m with
    keys := es.foldl padAfter m.keys
    timers := Timers.tick^[es.count .tick] m.timers
    pressed := (presses m.keys es).head?
    cycles := m.cycles + es.count .step }

private theorem waited_snoc (m : Machine) (es : List Event) (e : Event) :
    m.waited (es ++ [e]) =
      { m.waited es with
        keys := padAfter (m.waited es).keys e
        timers := if e = .tick then (m.waited es).timers.tick else (m.waited es).timers
        pressed := (m.waited es).pressed.or (press? (m.waited es).keys e)
        cycles := (m.waited es).cycles + if e = .step then 1 else 0 } := by
  have record : (presses m.keys (es ++ [e])).head? =
      (presses m.keys es).head?.or (press? (es.foldl padAfter m.keys) e) := by
    rw [presses_snoc, List.head?_append, Option.head?_toList]
  have ticks : Timers.tick^[(es ++ [e]).count .tick] m.timers =
      if e = .tick then (Timers.tick^[es.count .tick] m.timers).tick
      else Timers.tick^[es.count .tick] m.timers := by
    rw [List.count_append, List.count_singleton]
    by_cases tick : e = .tick
    · simp only [tick, beq_self_eq_true, if_true]
      exact Function.iterate_succ_apply' _ _ _
    · simp [tick]
  have steps : (es ++ [e]).count .step = es.count .step + if e = .step then 1 else 0 := by
    rw [List.count_append, List.count_singleton]
    simp only [beq_iff_eq]
  rw [waited, record, ticks, steps, List.foldl_append, ← Nat.add_assoc]
  rfl

private theorem waited_tick (m : Machine) (es : List Event) :
    (m.waited es).next .tick = m.waited (es ++ [.tick]) := by
  rw [waited_snoc]
  simp [next, tick, padAfter, press?]

private theorem next_key_of_waiting (waiting : m.waiting = true) (key : Int) (down : Bool) :
    m.next (.key key down) =
      { m with
        keys := padAfter m.keys (.key key down)
        pressed := m.pressed.or (press? m.keys (.key key down)) } := by
  rw [next_key]
  cases named : padKey? key with
  | none =>
    cases down <;> simp [padAfter, press?, named]
  | some k =>
    cases down with
    | false => simp [padAfter, press?, named, setKey]
    | true =>
      cases held : m.keys.get k <;> cases record : m.pressed <;>
        simp_all [padAfter, press?, setKey, Option.filter_some]

private theorem waited_key (waiting : m.waiting = true) (es : List Event) (key : Int)
    (down : Bool) :
    (m.waited es).next (.key key down) = m.waited (es ++ [.key key down]) := by
  have still : (m.waited es).waiting = true := waiting
  rw [waited_snoc, next_key_of_waiting still]
  simp

def startWait (m : Machine) : Machine :=
  { m with
    waiting := true
    pressed := none
    halted := false
    fault := none
    cycles := m.cycles + 1 }

def endWait (m : Machine) (x key : Fin 16) : Machine :=
  { m with
    regs := { m.regs.set x (UInt8.ofNat key.val) with pc := m.regs.pc + 2 }
    waiting := false
    pressed := none
    halted := false
    fault := none
    cycles := m.cycles + 1 }

private theorem step_of_await (here : m.current = some i) (op : i.opcode = .awaitKey) :
    m.step = ((m.past.awaitKey i.x).goOn, .ok i) := by
  unfold current at here
  cases fetched : m.fetch with
  | error cause =>
    rw [fetched] at here
    cases here
  | ok word =>
    rw [fetched] at here
    cases here
    simp only [step, fetched, perform, op]
    rfl

private theorem past_back (m : Machine) : m.past.regs.pc - 2 = m.regs.pc :=
  Int.add_sub_cancel m.regs.pc 2

private theorem step_of_idle (here : m.current = some i) (op : i.opcode = .awaitKey)
    (idle : m.waiting = false) : m.step = (m.startWait, .ok i) := by
  have idle' : m.past.waiting = false := idle
  rw [step_of_await here op, awaitKey_of_idle i.x idle', past_back]
  rfl

private theorem step_of_unpressed (here : m.current = some i) (op : i.opcode = .awaitKey)
    (waiting : m.waiting = true) (unpressed : m.pressed = none) :
    m.step = ({ m with halted := false, fault := none, cycles := m.cycles + 1 }, .ok i) := by
  have waiting' : m.past.waiting = true := waiting
  have unpressed' : m.past.pressed = none := unpressed
  rw [step_of_await here op, awaitKey_of_none i.x waiting' unpressed', past_back]
  rfl

private theorem step_of_pressed (here : m.current = some i) (op : i.opcode = .awaitKey)
    (waiting : m.waiting = true) {key : Fin 16} (pressed : m.pressed = some key) :
    m.step = (m.endWait i.x key, .ok i) := by
  have waiting' : m.past.waiting = true := waiting
  have pressed' : m.past.pressed = some key := pressed
  rw [step_of_await here op, awaitKey_of_some i.x waiting' pressed']
  rfl

private theorem waited_step {es : List Event} (here : m.current = some i)
    (op : i.opcode = .awaitKey)
    (waiting : m.waiting = true) (running : m.halted = false) (unfailed : m.fault = none)
    (unpressed : presses m.keys es = []) :
    (m.waited es).step = (m.waited (es ++ [.step]), .ok i) := by
  have here' : (m.waited es).current = some i := here
  have unpressed' : (m.waited es).pressed = none := congrArg List.head? unpressed
  rw [step_of_unpressed here' op waiting unpressed', waited_snoc]
  simp [padAfter, press?, waited, running, unfailed]

/-- Nothing but the first press of the history ends a wait, so as long as it lasts the machine has
merely waited. -/
theorem after_of_waiting (here : m.current = some i) (op : i.opcode = .awaitKey)
    (unpressed : m.pressed = none) (running : m.halted = false) (unfailed : m.fault = none)
    {es : List Event} (waits : ∀ pre, pre <+: es → (m.after pre).waiting = true) :
    m.after es = m.waited es := by
  have waiting : m.waiting = true := waits [] List.nil_prefix
  induction es using List.reverseRecOn with
  | nil =>
    change m = { m with pressed := none }
    rw [← unpressed]
  | append_singleton es e ih =>
    have so_far : m.after es = m.waited es :=
      ih fun pre before => waits pre (before.trans (List.prefix_append es [e]))
    rw [after_append, so_far, after_cons, after_nil]
    cases e with
    | tick => exact waited_tick m es
    | key key down => exact waited_key waiting es key down
    | step =>
      have still : ((m.waited es).next .step).waiting = true := by
        have whole := waits _ (List.prefix_refl _)
        rwa [after_append, so_far, after_cons, after_nil] at whole
      cases record : presses m.keys es with
      | nil => rw [next, waited_step here op waiting running unfailed record]
      | cons key later =>
        -- a step with a press on record would have ended the wait
        have here' : (m.waited es).current = some i := here
        have pressed : (m.waited es).pressed = some key := congrArg List.head? record
        rw [next, step_of_pressed here' op waiting pressed] at still
        cases still

/-- A step at an instruction that waits for a key, when none is waited for, only starts a wait. As
long as that lasts the machine merely waits, whatever happens. What ends it is a step after a key
has gone down since it began, and the register then gets the first such key. -/
theorem first_press_ends_wait (here : m.current = some i) (op : i.opcode = .awaitKey)
    (idle : m.waiting = false) :
    m.step = (m.startWait, .ok i) ∧
      ∀ es, (∀ pre, pre <+: es → (m.startWait.after pre).waiting = true) →
        m.startWait.after es = m.startWait.waited es ∧
        (∀ e, (m.startWait.after (es ++ [e])).waiting = false ↔
          e = .step ∧ presses m.keys es ≠ []) ∧
        (presses m.keys es = [] →
          (m.startWait.waited es).step = (m.startWait.waited (es ++ [.step]), .ok i)) ∧
        ∀ key later, presses m.keys es = key :: later →
          (m.startWait.waited es).step = ((m.startWait.waited es).endWait i.x key, .ok i) := by
  refine ⟨step_of_idle here op idle, fun es waits => ?_⟩
  have begun : m.startWait.current = some i := here
  have same : m.startWait.after es = m.startWait.waited es :=
    after_of_waiting begun op rfl rfl rfl waits
  have here' : (m.startWait.waited es).current = some i := here
  have stall (none : presses m.keys es = []) :
      (m.startWait.waited es).step = (m.startWait.waited (es ++ [.step]), .ok i) :=
    waited_step begun op rfl rfl rfl none
  have finish (key : Fin 16) (later : List (Fin 16)) (some : presses m.keys es = key :: later) :
      (m.startWait.waited es).step = ((m.startWait.waited es).endWait i.x key, .ok i) :=
    step_of_pressed here' op rfl (congrArg List.head? some)
  refine ⟨same, fun e => ?_, stall, finish⟩
  rw [after_append, same, after_cons, after_nil]
  cases e with
  | tick =>
    rw [waited_tick]
    simp [waited, startWait]
  | key key down =>
    have waiting : m.startWait.waiting = true := rfl
    rw [waited_key waiting]
    simp [waited, startWait]
  | step =>
    rw [next]
    cases record : presses m.keys es with
    | nil =>
      rw [stall record]
      simp [waited, startWait]
    | cons key later =>
      rw [finish key later record]
      simp [endWait]

/-- A machine about to wait for a key while one is held. -/
def heldBeforeWait : Machine :=
  (loaded [0xF3, 0x0A]).next (.key 5 true)

/-- The held key is reported again and the machine stalls; then it is let go, another key goes down
and up, and the first goes down once more. -/
def secondKeyFirst : List Event :=
  [.key 5 true, .step, .tick, .key 5 false, .key 9 true, .key 9 false, .key 5 true]

set_option maxRecDepth 20000 in
theorem second_key_ends_wait :
    presses heldBeforeWait.keys secondKeyFirst = [9, 5] ∧
      ((heldBeforeWait.step.1.after secondKeyFirst).step.1).v 3 = 9 := by
  have here : heldBeforeWait.current = some (.decode 0xF30A) := rfl
  have waits : ∀ pre, pre <+: secondKeyFirst →
      (heldBeforeWait.startWait.after pre).waiting = true := by
    intro pre before
    rw [← List.mem_inits] at before
    revert pre
    decide +kernel
  have record : presses heldBeforeWait.keys secondKeyFirst = [9, 5] := rfl
  obtain ⟨begun, rest⟩ := first_press_ends_wait here rfl rfl
  obtain ⟨same, -, -, finish⟩ := rest secondKeyFirst waits
  rw [begun, same, finish 9 [5] record]
  exact ⟨record, rfl⟩

end Chip8.Machine
