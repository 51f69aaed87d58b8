import Chip8.CommandLine.Run

/-!
What becomes of settings that passed their checks. The checks ask for positive numbers only, so they
let settings through of which no machine or no pacer can be built: a stack of two and a half slots,
a list for a seed, a rate past all floating-point numbers. A run that comes upon such settings does
not report them, it breaks off.
-/

set_option autoImplicit false
set_option relaxedAutoImplicit false

namespace Chip8

theorem bind_eq_ok {α β ε : Type} {x : Except ε α} {f : α → Except ε β} {b : β} :
    x >>= f = .ok b ↔ ∃ a, x = .ok a ∧ f a = .ok b := by
  cases x with
  | error e => exact ⟨nofun, fun ⟨_, failed, _⟩ => nomatch failed⟩
  | ok a =>
    refine ⟨fun result => ⟨a, rfl, result⟩, ?_⟩
    rintro ⟨_, ⟨⟩, result⟩
    exact result

theorem then_eq_ok {β ε : Type} {x : Except ε Unit} {y : Except ε β} {b : β} :
    (do x; y) = .ok b ↔ x = .ok () ∧ y = .ok b :=
  bind_eq_ok.trans ⟨fun ⟨⟨⟩, both⟩ => both, fun both => ⟨⟨⟩, both⟩⟩

theorem mapError_eq_ok {α ε ε' : Type} {x : Except ε α} {f : ε → ε'} {a : α} :
    x.mapError f = .ok a ↔ x = .ok a := by
  cases x with
  | error e => exact ⟨nofun, nofun⟩
  | ok b =>
    refine ⟨fun result => ?_, fun result => ?_⟩ <;> cases result <;> rfl

theorem bind_eq_error {α β ε : Type} {x : Except ε α} {f : α → Except ε β} {reason : ε} :
    x >>= f = .error reason ↔ x = .error reason ∨ ∃ a, x = .ok a ∧ f a = .error reason := by
  cases x with
  | error e =>
    refine ⟨fun failed => ?_, ?_⟩
    · cases failed
      exact .inl rfl
    · rintro (⟨⟨⟩⟩ | ⟨_, ⟨⟩, -⟩)
      rfl
  | ok a =>
    refine ⟨fun failed => .inr ⟨a, rfl, failed⟩, ?_⟩
    rintro (⟨⟨⟩⟩ | ⟨_, ⟨⟩, failed⟩)
    exact failed

theorem mapError_eq_error {α ε ε' : Type} {x : Except ε α} {f : ε → ε'} {reason : ε'} :
    x.mapError f = .error reason ↔ ∃ e, x = .error e ∧ f e = reason := by
  cases x with
  | error e =>
    refine ⟨fun failed => ?_, ?_⟩
    · cases failed
      exact ⟨e, rfl, rfl⟩
    · rintro ⟨_, ⟨⟩, rfl⟩
      rfl
  | ok a => exact ⟨nofun, nofun⟩

theorem mem_toOption {α ε : Type} {x : Except ε α} {a : α} : a ∈ x.toOption ↔ x = .ok a := by
  cases x <;> simp [Except.toOption]

namespace Settings

variable {s : Settings} {value : Json}

def Positive (value : Json) : Prop := ∃ n, value.number? = some n ∧ n.nonPositive = false

private theorem checkPositive_ok {otherwise : Error} :
    checkPositive value otherwise = .ok () ↔ Positive value := by
  unfold checkPositive Positive
  cases value.number? with
  | none => simp
  | some n => cases sign : n.nonPositive <;> simp [sign]

private theorem validate_ok :
    s.validate = .ok () ↔
      Positive s.cpuHz ∧ Positive s.timerHz ∧ Positive s.stackDepth ∧ Positive s.scale := by
  simp only [validate, then_eq_ok, checkPositive_ok]

private theorem valid_of_ofFields {d : Dialect} {ms : Members} (accepted : ofFields d ms = .ok s) :
    s.validate = .ok () := by
  unfold ofFields at accepted
  split at accepted
  · cases accepted
  · split at accepted
    · cases accepted
    · obtain ⟨policy, -, accepted⟩ := bind_eq_ok.mp accepted
      obtain ⟨valid, same⟩ := then_eq_ok.mp accepted
      cases same
      exact valid

theorem valid_of_ofJson (accepted : ofJson value = .ok s) : s.validate = .ok () := by
  obtain ⟨ms, -, accepted⟩ := bind_eq_ok.mp accepted
  dsimp only at accepted
  -- With a preset or without, what is built in the end is built of fields.
  split at accepted
  all_goals
    obtain ⟨base, -, accepted⟩ := bind_eq_ok.mp accepted
    obtain ⟨merged, -, accepted⟩ := bind_eq_ok.mp accepted
    obtain ⟨dialect, -, accepted⟩ := bind_eq_ok.mp accepted
    exact valid_of_ofFields accepted

theorem valid_of_load {bytes : List UInt8} (accepted : load bytes = .ok s) :
    s.validate = .ok () := by
  obtain ⟨text, -, accepted⟩ := bind_eq_ok.mp accepted
  obtain ⟨value, -, accepted⟩ := bind_eq_ok.mp accepted
  exact valid_of_ofJson (mapError_eq_ok.mp accepted)

/-- Whether a value is a number of stack slots whose bytes can be counted. Whether the host has
memory for them is left out. -/
def countable : Json → Bool
  | .int n => n < 0x4000000000000000
  | _ => false

/-- Whether a random stream can be started from a value: from no collection, and from no text that
cannot be written as bytes. -/
def seedable : Json → Bool
  | .array _ | .object _ | .broken _ => false
  | _ => true

def inRange (value : Json) : Bool := (value.number?.bind Number.toFloat?).isSome

/-- Settings of which a machine and its pacer can be built, given that they passed their checks. -/
structure Usable (s : Settings) : Prop where
  depth : countable s.stackDepth
  seed : seedable s.seed
  steps : inRange s.cpuHz
  ticks : inRange s.timerHz

instance : Decidable s.Usable :=
  decidable_of_iff (countable s.stackDepth ∧ seedable s.seed ∧ inRange s.cpuHz ∧ inRange s.timerHz)
    ⟨fun ⟨depth, seed, steps, ticks⟩ => ⟨depth, seed, steps, ticks⟩,
      fun ⟨depth, seed, steps, ticks⟩ => ⟨depth, seed, steps, ticks⟩⟩

private theorem period_built_iff {n : Number} (given : value.number? = some n) :
    (∃ x, Pacer.period n = .ok x) ↔ inRange value := by
  rw [inRange, given, Option.bind_some, Pacer.period]
  cases n.toFloat? <;> simp

theorem pacer_built_iff (valid : s.validate = .ok ()) :
    (∃ p, s.pacer = .ok p) ↔ inRange s.cpuHz ∧ inRange s.timerHz := by
  obtain ⟨⟨n, steps, aboveN⟩, ⟨k, ticks, aboveK⟩, -, -⟩ := validate_ok.mp valid
  rw [← period_built_iff steps, ← period_built_iff ticks, pacer, Pacer.ofRates]
  simp only [steps, ticks, aboveN, aboveK]
  constructor
  · rintro ⟨p, built⟩
    obtain ⟨_, ⟨⟩, built⟩ := bind_eq_ok.mp built
    obtain ⟨_, ⟨⟩, built⟩ := bind_eq_ok.mp built
    obtain ⟨x, step, built⟩ := bind_eq_ok.mp built
    obtain ⟨y, tick, -⟩ := bind_eq_ok.mp built
    exact ⟨⟨x, step⟩, ⟨y, tick⟩⟩
  · rintro ⟨⟨x, step⟩, ⟨y, tick⟩⟩
    refine ⟨.start x y Pacer.usualLongest, bind_eq_ok.mpr ⟨n, rfl, bind_eq_ok.mpr ⟨k, rfl, ?_⟩⟩⟩
    exact bind_eq_ok.mpr ⟨x, step, bind_eq_ok.mpr ⟨y, tick, rfl⟩⟩

example : Settings.default.Usable := by decide +kernel

end Settings

namespace CommandLine

open Outcome (silent complaint)

variable {a : Arguments} {files : Files} {events : List Window.Event} {s : Settings} {m : Machine}
  {w : Watched} {reason : Misuse}

/-- A program that jumps to itself and a file of settings beside it. -/
def besideLoop (settings : List UInt8) : Files
  | "loop.ch8" => .ok [0x12, 0x00]
  | "machine.json" => .ok settings
  | _ => .error .missing

end CommandLine

end Chip8
