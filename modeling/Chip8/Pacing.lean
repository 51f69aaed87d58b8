import Chip8.Decimal
import Chip8.Json.Basic
import Chip8.Machine.Watched

set_option autoImplicit false
set_option relaxedAutoImplicit false

/-!
Pacing: turning stretches of host time into instructions and timer ticks. Each of the two cadences
has an account of the time that it is owed; an event falls due when its account holds a period.
The kind of number that time is measured in is left open.
-/

namespace Chip8

/-- What is paced: it ticks, and it steps unless a step fails or it is halted. -/
structure Device (σ ε : Type) where
  halted : σ → Bool
  tick : σ → σ
  step : σ → σ × Option ε

/-- The periods of the two cadences, the longest stretch that is made up for, the accounts, and
how many events there were. -/
structure Pacer (τ : Type) where
  stepPeriod : τ
  tickPeriod : τ
  longest : τ
  stepOwed : τ
  tickOwed : τ
  cycles : Nat
  ticks : Nat
  deriving DecidableEq, Repr

namespace Pacer

/-- What falls due next. -/
inductive Due where
  | tick
  | step
  | nothing
  deriving DecidableEq, Repr

/-- Why an advance fails: its time runs backwards, or a step fails. -/
inductive Failure (ε : Type) where
  | backwards
  | step (fault : ε)
  deriving DecidableEq, Repr

/-- The pacer and the device after an advance, and how many steps it made unless it failed. -/
structure Outcome (τ σ ε : Type) where
  pacer : Pacer τ
  device : σ
  result : Except (Failure ε) Nat

variable {τ σ ε : Type} [OfNat τ 0] [Add τ] [Sub τ] [LE τ] [LT τ] [DecidableLE τ] [DecidableLT τ]

def start (stepPeriod tickPeriod longest : τ) : Pacer τ :=
  ⟨stepPeriod, tickPeriod, longest, 0, 0, 0, 0⟩

def reset (p : Pacer τ) : Pacer τ := { p with stepOwed := 0, tickOwed := 0 }

def owe (p : Pacer τ) (elapsed : τ) : Pacer τ :=
  { p with stepOwed := p.stepOwed + elapsed, tickOwed := p.tickOwed + elapsed }

/-- The event that fell due the longest ago, a tick before a step of the same instant. -/
def due (p : Pacer τ) : Due :=
  let stepOver := p.stepOwed - p.stepPeriod
  let tickOver := p.tickOwed - p.tickPeriod
  if 0 ≤ tickOver ∧ stepOver ≤ tickOver then .tick
  else if 0 ≤ stepOver then .step
  else .nothing

def payTick (p : Pacer τ) : Pacer τ := { p with tickOwed := p.tickOwed - p.tickPeriod }

def payStep (p : Pacer τ) : Pacer τ := { p with stepOwed := p.stepOwed - p.stepPeriod }

def countTick (p : Pacer τ) : Pacer τ := { p with ticks := p.ticks + 1 }

def countStep (p : Pacer τ) : Pacer τ := { p with cycles := p.cycles + 1 }

/-- Makes events until none is due, `made` steps having been made already. A failing step ends it,
is not counted, and drops the time that is owed. There is no outcome if more than `limit` rounds
would be needed. -/
@[specialize]
def settle (d : Device σ ε) : (limit : Nat) → Pacer τ → σ → (made : Nat) →
    Option (Outcome τ σ ε)
  | 0, _, _, _ => none
  | limit + 1, p, s, made =>
    match p.due with
    | .nothing => some ⟨p, s, .ok made⟩
    | .tick => settle d limit p.payTick.countTick (d.tick s) made
    | .step =>
      match d.step s with
      | (s, some fault) => some ⟨p.payStep.reset, s, .error (.step fault)⟩
      | (s, none) => settle d limit p.payStep.countStep s (made + 1)

/-- A stretch of time cut to the longest that is made up for. -/
def clamp (p : Pacer τ) (elapsed : τ) : τ := if p.longest < elapsed then p.longest else elapsed

/-- Accounts for a stretch of time. A halted device is left alone whatever the stretch. -/
@[specialize]
def advance (d : Device σ ε) (limit : Nat) (p : Pacer τ) (s : σ) (elapsed : τ) :
    Option (Outcome τ σ ε) :=
  if d.halted s then some ⟨p, s, .ok 0⟩
  else if elapsed < 0 then some ⟨p, s, .error .backwards⟩
  else settle d limit (p.owe (p.clamp elapsed)) s 0

end Pacer

end Chip8

namespace Chip8

/-- More rounds than any clock has time for. -/
def Pacer.patience : Nat := 0x4000000000000000

/-- The longest stretch that is made up for unless a host says otherwise: a quarter second. -/
def Pacer.usualLongest : Float := 0.25

def Pacer.period (rate : Number) : Except Misuse Float :=
  match rate.toFloat? with
  | none => .error .wideNumber
  | some x => .ok (1.0 / x)

/-- A pacer for two rates, which must be positive numbers. The rate of steps is looked at first. -/
def Pacer.ofRates (steps ticks : Json) (longest : Float) : Except Misuse (Pacer Float) := do
  let positive (rate : Json) : Except Misuse Number :=
    match rate.number? with
    | none => .error .notARate
    | some n => if n.nonPositive then .error .nonPositiveRate else .ok n
  let steps ← positive steps
  let ticks ← positive ticks
  return .start (← period steps) (← period ticks) longest

def Pacer.clampNote (elapsed longest : Float) : Note :=
  ⟨.debug, .pacer,
    "Clamping " ++ Decimal.fixed 3 elapsed ++ "s of elapsed time to " ++
      Decimal.fixed 3 longest ++ "s"⟩

/-- The longest stretch that is made up for, when a host gives it as any value. -/
def Pacer.longestOf (value : Json) : Except Misuse Float :=
  match value.number? with
  | none => .error .notARate
  | some n => match n.toFloat? with
    | none => .error .wideNumber
    | some x => .ok x

/-- Whether an advance gets as far as comparing its stretch with the longest one. -/
def Pacer.compares (halted : Bool) (elapsed : Float) : Bool := !halted && !(decide (elapsed < 0))

/-- What an advance records before it makes any event. -/
def Pacer.advanceNotes (p : Pacer Float) (halted : Bool) (elapsed : Float) : List Note :=
  if compares halted elapsed && decide (p.longest < elapsed) then [clampNote elapsed p.longest]
  else []

def Watched.device : Device Watched Fault where
  halted w := w.machine.halted
  tick w := w.update w.machine.tick
  step w :=
    match w.step with
    | (w, .error fault) => (w, some fault)
    | (w, .ok _) => (w, none)

/-- Accounts for a stretch of time and records it. -/
def Watched.advance (w : Watched) (p : Pacer Float) (elapsed : Float) :
    Option (Pacer.Outcome Float Watched Fault) :=
  let w := w.note (p.advanceNotes w.machine.halted elapsed)
  Pacer.advance Watched.device Pacer.patience p w elapsed

end Chip8
