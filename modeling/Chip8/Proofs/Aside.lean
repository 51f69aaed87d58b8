import Chip8.Proofs.Frame

set_option autoImplicit false
set_option relaxedAutoImplicit false

namespace Chip8.Machine

variable {α β : Type} {f : Machine → Machine} {m : Machine}

namespace Work

def changed (f : Machine → Machine) :
    EStateM.Result Cause Machine α → EStateM.Result Cause Machine α
  | .ok a m => .ok a (f m)
  | .error cause m => .error cause (f m)

/-- Work that comes to the same whether a change to its machine is made before it or after it. -/
def Passes (w : Work α) (f : Machine → Machine) (m : Machine) : Prop :=
  w.run (f m) = changed f (w.run m)

theorem passes_ask_bind {request : Machine → Except Cause α} {next : α → Work β}
    (same : request (f m) = request m)
    (rest : ∀ a, request m = .ok a → (next a).Passes f m) :
    (ask request >>= next).Passes f m := by
  rw [Passes, EStateM.run_bind, EStateM.run_bind, run_ask, run_ask, same]
  cases granted : request m with
  | error cause => rfl
  | ok a => exact rest a granted

theorem passes_modify {g : Machine → Machine} (same : g (f m) = f (g m)) :
    Passes (modify g) f m :=
  congrArg (EStateM.Result.ok PUnit.unit) same

theorem passes_modify_modify {g h : Machine → Machine} (first : g (f m) = f (g m))
    (second : h (f (g m)) = f (h (g m))) :
    Passes (modify g >>= fun _ : PUnit => modify h) f m := by
  change EStateM.Result.ok PUnit.unit (h (g (f m))) = .ok PUnit.unit _
  rw [first, second]

end Work

/-- A change that has nothing to do with registers, with the word at the counter, and with what a
step keeps of its end. -/
structure Aside (f : Machine → Machine) : Prop where
  regs (m : Machine) : (f m).regs = m.regs
  withRegs (m : Machine) (regs : Registers) : { f m with regs } = f { m with regs }
  fetch (m : Machine) : (f m).fetch = m.fetch
  goOn (m : Machine) : (f m).goOn = f m.goOn
  stop (m : Machine) (cause : Cause) (word : Option UInt16) :
    (f m).stop cause word = (f (m.stop cause word).1, (m.stop cause word).2)

namespace Aside

section Pieces

variable (aside : Aside f) (m) (x : Fin 16) (b : UInt8)
include aside

theorem v : (f m).v x = m.v x := by
  rw [Machine.v, aside.regs, Machine.v]

theorem jumpTo (pc : Int) : (f m).jumpTo pc = f (m.jumpTo pc) := by
  rw [Machine.jumpTo, aside.regs, aside.withRegs, Machine.jumpTo]

theorem past : (f m).past = f m.past := by
  rw [Machine.past, aside.regs, aside.jumpTo, Machine.past]

theorem indexed (index : Int) : (f m).indexed index = f (m.indexed index) := by
  rw [Machine.indexed, aside.regs, aside.withRegs, Machine.indexed]

theorem setV : (f m).setV x b = f (m.setV x b) := by
  rw [Machine.setV, aside.regs, aside.withRegs, Machine.setV]

theorem setFlag (flag : Bool) : (f m).setFlag flag = f (m.setFlag flag) :=
  aside.setV m _ _

theorem skipIf (condition : Bool) : (f m).skipIf condition = f (m.skipIf condition) := by
  cases condition with
  | true => exact aside.past m
  | false => rfl

theorem setBlock (block : List UInt8) : (f m).setBlock block = f (m.setBlock block) := by
  rw [Machine.setBlock, aside.regs, aside.withRegs, Machine.setBlock]

theorem setLogic (same : (f m).dialect.logicClearsFlag = m.dialect.logicClearsFlag) :
    (f m).setLogic x b = f (m.setLogic x b) := by
  by_cases clears : m.dialect.logicClearsFlag = true
  · rw [setLogic_of_clears m x b clears, setLogic_of_clears (f m) x b (same.trans clears),
      aside.setV, aside.setFlag]
  · rw [setLogic_of_keeps m x b clears, setLogic_of_keeps (f m) x b (same ▸ clears), aside.setV]

theorem passBlock (same : (f m).dialect.blockMovesIndex = m.dialect.blockMovesIndex) :
    (f m).passBlock x = f (m.passBlock x) := by
  rw [Machine.passBlock, Machine.passBlock, same, aside.regs, aside.indexed]
  split <;> rfl

theorem addToIndex (same : (f m).dialect.indexSetsFlag = m.dialect.indexSetsFlag) :
    (f m).addToIndex x = f (m.addToIndex x) := by
  by_cases sets : m.dialect.indexSetsFlag = true
  · rw [addToIndex_of_sets m x sets, addToIndex_of_sets (f m) x (same.trans sets), aside.regs,
      aside.v, aside.indexed, aside.setFlag]
  · rw [addToIndex_of_keeps m x sets, addToIndex_of_keeps (f m) x (same ▸ sets), aside.regs,
      aside.v, aside.indexed]

theorem awaitKey (waits : (f m).waiting = m.waiting) (record : (f m).pressed = m.pressed)
    (withWait : ∀ (m : Machine) waiting pressed,
      { f m with waiting, pressed } = f { m with waiting, pressed }) :
    (f m).awaitKey x = f (m.awaitKey x) := by
  rcases waiting : m.waiting with - | -
  · rw [awaitKey_of_idle x waiting, awaitKey_of_idle x (waits.trans waiting), withWait, aside.regs,
      aside.jumpTo]
  · rcases pressed : m.pressed with - | key
    · rw [awaitKey_of_none x waiting pressed,
        awaitKey_of_none x (waits.trans waiting) (record.trans pressed), aside.regs, aside.jumpTo]
    · rw [awaitKey_of_some x waiting pressed,
        awaitKey_of_some x (waits.trans waiting) (record.trans pressed), aside.setV, withWait]

theorem step (passes : ∀ i ∈ m.current, (perform i).Passes f m.past) :
    (f m).step = (f m.step.1, m.step.2) := by
  cases fetched : m.fetch with
  | error cause => simp only [Machine.step, aside.fetch, fetched, aside.stop]
  | ok word =>
    have same := passes _ (current_of_fetch fetched)
    rw [Work.Passes] at same
    simp only [Machine.step, aside.fetch, fetched, aside.past, same]
    cases run : (perform (.decode word.toNat)).run m.past with
    | error cause left => simp only [Work.changed, aside.regs, aside.jumpTo, aside.stop]
    | ok value after => simp only [Work.changed, aside.goOn]

end Pieces

end Aside

end Chip8.Machine
