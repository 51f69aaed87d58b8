import Mathlib.Data.List.Infix
import Chip8.Proofs.Aside
import Chip8.Proofs.Load

set_option autoImplicit false
set_option relaxedAutoImplicit false

namespace Chip8

/-- How an operation is to be read, in the settings that say so. -/
def Opcode.reading (d : Dialect) (p : UnknownPolicy) : Opcode → Bool
  | draw => d.clipSprites
  | or | and | xor => d.logicClearsFlag
  | shiftRight | shiftLeft => d.shiftReadsY
  | jumpOffset => d.jumpReadsX
  | store | load => d.blockMovesIndex
  | addIndex => d.indexSetsFlag
  | unknown => p = .skip
  | _ => false

private theorem halt_iff_of_skip {p q : UnknownPolicy}
    (same : decide (p = .skip) = decide (q = .skip)) :
    p = .halt ↔ q = .halt := by
  cases p <;> cases q <;> simp_all

namespace Machine

open Work

variable {α : Type} {m : Machine} {i : Instruction} {d : Dialect} {p : UnknownPolicy}

/-- Whether an instruction does the same under both readings: a sprite that stays inside, a shift of
equal registers, or a jump by equal registers. -/
def Indifferent (m : Machine) (i : Instruction) : Prop :=
  match i.opcode with
  | .draw => ∀ rows ∈ (m.memory.readBlock m.regs.index i.n).toOption,
      Display.Inside displayWidth displayHeight ((m.v i.x).toNat % displayWidth)
        ((m.v i.y).toNat % displayHeight) 0 (rows.map fun b => (b.toNat : Int))
  | .shiftRight | .shiftLeft => m.v i.x = m.v i.y
  | .jumpOffset => m.v i.x = m.v Registers.first
  | _ => False

instance (m : Machine) (i : Instruction) : Decidable (m.Indifferent i) := by
  unfold Indifferent
  split <;> infer_instance

def speaking (m : Machine) (d : Dialect) (p : UnknownPolicy) : Machine :=
  { m with dialect := d, policy := p }

def spoken (d : Dialect) (p : UnknownPolicy) :
    EStateM.Result Cause Machine α → EStateM.Result Cause Machine α
  | .ok a m => .ok a (m.speaking d p)
  | .error cause m => .error cause (m.speaking d p)

private theorem aside_speaking (d : Dialect) (p : UnknownPolicy) : Aside (·.speaking d p) where
  regs _ := rfl
  withRegs _ _ := rfl
  fetch _ := rfl
  goOn _ := rfl
  stop _ _ _ := rfl

private theorem shiftSource_speaking
    (alike : d.shiftReadsY = m.dialect.shiftReadsY ∨ m.v i.x = m.v i.y) :
    (m.speaking d p).shiftSource i = m.shiftSource i := by
  unfold shiftSource
  change (if d.shiftReadsY then m.v i.y else m.v i.x) = _
  rcases alike with same | equal
  · rw [same]
  · rw [equal, ite_self, ite_self]

private theorem run_ifHalt_speaking (same : p = .halt ↔ m.policy = .halt) :
    (do if (← get).policy = .halt then throw .illegalInstruction : Work Unit).run
        (m.speaking d p) =
      spoken d p ((do if (← get).policy = .halt then throw .illegalInstruction : Work Unit).run m)
        := by
  change EStateM.run (if p = .halt then throw Cause.illegalInstruction else pure ⟨⟩ : Work Unit) _ =
    spoken d p (EStateM.run
      (if m.policy = .halt then throw Cause.illegalInstruction else pure ⟨⟩ : Work Unit) m)
  by_cases halts : m.policy = .halt
  · rw [if_pos halts, if_pos (same.mpr halts)]
    rfl
  · rw [if_neg halts, if_neg fun h => halts (same.mp h)]
    rfl

private theorem drawSprite_speaking
    (alike : d.clipSprites = m.dialect.clipSprites ∨
      ∀ rows ∈ (m.memory.readBlock m.regs.index i.n).toOption,
        Display.Inside displayWidth displayHeight ((m.v i.x).toNat % displayWidth)
          ((m.v i.y).toNat % displayHeight) 0 (rows.map fun b => (b.toNat : Int))) :
    (drawSprite i).run (m.speaking d p) = spoken d p ((drawSprite i).run m) := by
  change (drawSprite i).Passes (·.speaking d p) m
  refine passes_ask_bind rfl fun rows read => ?_
  have same : m.display.draw (m.v i.x).toNat (m.v i.y).toNat
      (rows.map fun b => (b.toNat : Int)) d.clipSprites =
        m.display.draw (m.v i.x).toNat (m.v i.y).toNat
          (rows.map fun b => (b.toNat : Int)) m.dialect.clipSprites := by
    rcases alike with same | inside
    · rw [same]
    · exact Display.draw_of_inside (inside rows (by rw [read]; rfl)) _ _ _
  exact congrArg (fun drawn : Display displayWidth displayHeight × Bool =>
    EStateM.Result.ok PUnit.unit
      (({ m with display := drawn.1 }.setFlag drawn.2).speaking d p)) same

/-- An instruction does the same under other settings if these read its operation in the same way,
or if it is indifferent to the reading. -/
theorem perform_speaking
    (alike : i.opcode.reading d p = i.opcode.reading m.dialect m.policy ∨ m.Indifferent i) :
    (perform i).run (m.speaking d p) = spoken d p ((perform i).run m) := by
  unfold Indifferent at alike
  have aside := aside_speaking d p
  change (perform i).Passes (·.speaking d p) m
  rw [perform]
  cases op : i.opcode <;> rw [op] at alike
  case draw => exact drawSprite_speaking alike
  case or | and | xor =>
    exact passes_modify (aside.setLogic m _ _ (alike.resolve_right id))
  case shiftRight | shiftLeft =>
    refine passes_modify ?_
    rw [shiftSource_speaking alike]
    rfl
  case jumpOffset =>
    have offset : (if d.jumpReadsX then m.v i.x else m.v Registers.first) =
        if m.dialect.jumpReadsX then m.v i.x else m.v Registers.first := by
      obtain same | equal := alike
      · rw [show d.jumpReadsX = m.dialect.jumpReadsX from same]
      · rw [equal, ite_self, ite_self]
    exact passes_modify
      (congrArg (fun b : UInt8 => (m.jumpTo (i.nnn + b.toNat)).speaking d p) offset)
  case store =>
    have same := alike.resolve_right id
    refine passes_ask_bind rfl fun memory _ => ?_
    exact passes_modify (aside.passBlock { m with memory } _ same)
  case load =>
    have same := alike.resolve_right id
    refine passes_ask_bind rfl fun block _ => ?_
    exact passes_modify_modify (aside.setBlock m block) (aside.passBlock _ _ same)
  case addIndex =>
    exact passes_modify (aside.addToIndex m _ (alike.resolve_right id))
  case unknown =>
    exact run_ifHalt_speaking (halt_iff_of_skip (alike.resolve_right id))
  case skipIfByte | skipUnlessByte | skipIfEqual | skipUnlessEqual | skipIfKey | skipUnlessKey =>
    exact passes_modify (aside.skipIf m _)
  case awaitKey => exact passes_modify (aside.awaitKey m _ rfl rfl fun _ _ _ => rfl)
  case ret | call | decimal => exact passes_ask_bind rfl fun _ _ => rfl
  all_goals rfl

private theorem step_speaking
    (alike : ∀ i ∈ m.current,
      i.opcode.reading d p = i.opcode.reading m.dialect m.policy ∨ m.Indifferent i) :
    (m.speaking d p).step = (m.step.1.speaking d p, m.step.2) :=
  (aside_speaking d p).step m fun i here => perform_speaking (alike i here)

/-- What a host is told of an event: a step tells what it ran or why it failed, a tick nothing, and
a key whether it exists. -/
inductive Answer where
  | stepped (result : Except Fault Instruction)
  | ticked
  | keyed (refused : Option Misuse)
  deriving DecidableEq

def answer (m : Machine) : Event → Answer
  | .step => .stepped m.step.2
  | .tick => .ticked
  | .key key down =>
    match m.setKeyAt key down with
    | .ok _ => .keyed none
    | .error misuse => .keyed (some misuse)

def answers (m : Machine) : List Event → List Answer
  | [] => []
  | e :: es => m.answer e :: (m.next e).answers es

private theorem event_speaking {e : Event}
    (alike : e = .step → ∀ i ∈ m.current,
      i.opcode.reading d p = i.opcode.reading m.dialect m.policy ∨ m.Indifferent i) :
    (m.speaking d p).answer e = m.answer e ∧ (m.speaking d p).next e = (m.next e).speaking d p := by
  cases e with
  | step =>
    have same := step_speaking (alike rfl)
    rw [answer, next, same]
    exact ⟨rfl, rfl⟩
  | tick => exact ⟨rfl, rfl⟩
  | key key down =>
    rw [answer, answer, next_key, next_key, setKeyAt, setKeyAt]
    cases padKey? key with
    | none => exact ⟨rfl, rfl⟩
    | some k => exact ⟨rfl, rfl⟩

private theorem settings_next (m : Machine) (e : Event) :
    (m.next e).dialect = m.dialect ∧ (m.next e).policy = m.policy := settings_obey m (.event e)

/-- Two machines alike but for their settings answer alike and stay alike through any events, if no
step comes to an instruction that the settings read differently and that is not indifferent to
it. -/
theorem settings_matter_where_read (m : Machine) (d : Dialect) (p : UnknownPolicy)
    (events : List Event)
    (apart : ∀ before, before ++ [.step] <+: events → ∀ i ∈ (m.after before).current,
      i.opcode.reading d p ≠ i.opcode.reading m.dialect m.policy →
        (m.after before).Indifferent i) :
    (m.speaking d p).answers events = m.answers events ∧
      (m.speaking d p).after events = (m.after events).speaking d p := by
  induction events generalizing m with
  | nil => exact ⟨rfl, rfl⟩
  | cons e es ih =>
    have first : e = .step → ∀ i ∈ m.current,
        i.opcode.reading d p = i.opcode.reading m.dialect m.policy ∨ m.Indifferent i := by
      rintro rfl i now
      by_cases same : i.opcode.reading d p = i.opcode.reading m.dialect m.policy
      · exact .inl same
      · exact .inr (apart [] ⟨es, rfl⟩ i now same)
    obtain ⟨answered, followed⟩ := event_speaking first
    obtain ⟨dialect, policy⟩ := settings_next m e
    obtain ⟨answers, rest⟩ := ih (m.next e) (by
      intro before reached i now differ
      rw [dialect, policy] at differ
      exact apart (e :: before) (List.cons_prefix_cons.mpr ⟨rfl, reached⟩) i now differ)
    rw [Machine.answers, Machine.answers, answered, followed, answers, after_cons, followed, rest]
    exact ⟨rfl, rfl⟩

/-- A program that shifts a register into itself, draws a glyph in the corner of the display, and
jumps by a register that equals register 0. -/
def tactful : Machine :=
  loaded [0x60, 0x04, 0x80, 0x06, 0x62, 0x02, 0xD0, 0x05, 0xB2, 0x0A, 0xFF, 0xFF, 0x12, 0x00]

def tactfulRun : List Event :=
  [.step, .step, .step, .tick, .key 3 true, .step, .key 16 true, .step, .step]

/-- The dialect that reads nothing as the modern one does. -/
def contrary : Dialect := ⟨true, true, true, true, true, false⟩

set_option maxRecDepth 20000 in
theorem tactful_in_every_dialect :
    (tactful.speaking contrary .skip).answers tactfulRun = tactful.answers tactfulRun ∧
      (tactful.speaking contrary .skip).after tactfulRun =
        (tactful.after tactfulRun).speaking contrary .skip ∧
      (tactful.after tactfulRun).regs.pc = 0x200 ∧
      (tactful.after tactfulRun).display.lit 2 2 = true := by
  have harmless : ∀ before ∈ tactfulRun.inits, before ++ [.step] <+: tactfulRun →
      ∀ i ∈ (tactful.after before).current,
        i.opcode.reading contrary .skip ≠ i.opcode.reading tactful.dialect tactful.policy →
          (tactful.after before).Indifferent i := by
    decide +kernel
  have apart (before : List Event) (reached : before ++ [.step] <+: tactfulRun) :=
    harmless before (List.mem_inits _ _ |>.mpr ((List.prefix_append _ _).trans reached)) reached
  obtain ⟨answers, same⟩ := settings_matter_where_read tactful contrary .skip tactfulRun apart
  exact ⟨answers, same, by decide +kernel⟩

end Machine

end Chip8
