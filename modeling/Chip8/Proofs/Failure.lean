import Chip8.Proofs.Invariant
import Chip8.Proofs.Pattern

set_option autoImplicit false
set_option relaxedAutoImplicit false

namespace Chip8.Machine

open Instruction (Fits)

variable {m : Machine} {i : Instruction} {cause : Cause} {fault : Fault}

/-- What has a reason to be refused is refused, before anything is changed. -/
theorem run_of_refused (refused : Refused i m cause) : (perform i).run m = .error cause m := by
  cases refused with
  | unknown op policy =>
    rw [perform, op]
    change EStateM.run (if m.policy = .halt then throw Cause.illegalInstruction else pure ⟨⟩ :
      Work PUnit) m = _
    rw [if_pos policy]
    rfl
  | call op full =>
    rw [perform, op, EStateM.run_bind, run_ask, CallStack.pushAddress_of_full full]
  | ret op empty =>
    rw [perform, op, EStateM.run_bind, run_ask, CallStack.pop_regs,
      CallStack.pop_of_empty empty]
    rfl
  | draw op outside =>
    rw [perform, op, drawSprite, EStateM.run_bind, run_ask,
      Memory.readBlock_of_not_within outside]
  | decimal op outside =>
    rw [perform, op, EStateM.run_bind, run_ask, Memory.store_of_not_within outside]
    rfl
  | block op outside =>
    simp only [List.mem_cons, List.not_mem_nil, or_false] at op
    rcases op with op | op
    · rw [← length_block m i.x] at outside ⊢
      rw [perform, op, EStateM.run_bind, run_ask, Memory.store_of_not_within outside]
    · rw [perform, op, EStateM.run_bind, run_ask, Memory.readBlock_of_not_within outside]

inductive Blamed (m : Machine) : Fault → Prop where
  /-- There is no word at the counter. -/
  | unfetched (outside : ¬ m.memory.Within m.regs.pc 2) :
      Blamed m ⟨.outOfBounds m.regs.pc 2, some m.regs.pc, none⟩
  /-- The word at the counter is refused. -/
  | refused (word : UInt16) (cause : Cause) (fetched : m.fetch = .ok word)
      (refused : Refused (.decode word.toNat) m cause) :
      Blamed m ⟨cause, some m.regs.pc, some word.toNat⟩

/-- A refusal rests on the policy, memory, the stack and the index, and on nothing else. -/
theorem Refused.congr (refused : Refused i m cause) {n : Machine} (policy : n.policy = m.policy)
    (memory : n.memory = m.memory) (stack : n.regs.stack = m.regs.stack)
    (index : n.regs.index = m.regs.index) : Refused i n cause := by
  cases refused with
  | unknown op halt => exact .unknown op (policy.trans halt)
  | call op full =>
    rw [← stack] at full ⊢
    exact .call op full
  | ret op empty =>
    rw [← stack] at empty
    exact .ret op empty
  | draw op outside =>
    rw [← memory, ← index] at outside
    rw [← index]
    exact .draw op outside
  | decimal op outside =>
    rw [← memory, ← index] at outside
    rw [← index]
    exact .decimal op outside
  | block op outside =>
    rw [← memory, ← index] at outside
    rw [← index]
    exact .block op outside

private theorem step_of_blamed (blamed : m.Blamed fault) :
    m.step = ({ m with halted := true, fault := some fault }, .error fault) := by
  cases blamed with
  | unfetched outside =>
    have fetched : m.fetch = .error (.outOfBounds m.regs.pc 2) :=
      Memory.readWord_of_not_within outside
    simp only [step, fetched]
    rfl
  | refused word cause fetched refused =>
    have past : Refused (.decode word.toNat) m.past cause := refused.congr rfl rfl rfl rfl
    have run := run_of_refused past
    simp only [step, fetched, run]
    rfl

theorem blamed_of_step (failed : m.step.2 = .error fault) : m.Blamed fault := by
  cases m.stepped with
  | unfetched cause fetched result =>
    rw [result] at failed
    cases failed
    obtain ⟨rfl, outside⟩ := Memory.readWord_error fetched
    exact .unfetched outside
  | refused word cause fetched run result =>
    rw [result] at failed
    cases failed
    exact .refused word cause fetched ((perform_refused run).congr rfl rfl rfl rfl)
  | done word after fetched run result =>
    rw [result] at failed
    cases failed

theorem step_error_iff : m.step.2 = .error fault ↔ m.Blamed fault :=
  ⟨blamed_of_step, fun blamed => congrArg Prod.snd (step_of_blamed blamed)⟩

private theorem blamed_iff_of_outside (outside : ¬ m.memory.Within m.regs.pc 2) :
    m.Blamed fault ↔ fault = ⟨.outOfBounds m.regs.pc 2, some m.regs.pc, none⟩ := by
  constructor
  · intro blamed
    cases blamed with
    | unfetched => rfl
    | refused word cause fetched refused => exact absurd (Memory.readWord_ok fetched) outside
  · rintro rfl
    exact .unfetched outside

private theorem blamed_iff_of_fetch {w : UInt16} (fetched : m.fetch = .ok w) :
    m.Blamed fault ↔
      ∃ cause, Refused (.decode w.toNat) m cause ∧
        fault = ⟨cause, some m.regs.pc, some w.toNat⟩ := by
  constructor
  · intro blamed
    cases blamed with
    | unfetched outside => exact absurd (Memory.readWord_ok fetched) outside
    | refused word cause fetched' refused =>
      rw [fetched] at fetched'
      cases fetched'
      exact ⟨cause, refused, rfl⟩
  · rintro ⟨cause, refused, rfl⟩
    exact .refused w cause fetched refused

/-- The word whose two bytes stand at the counter, the higher byte first. -/
def Holds (m : Machine) (w : UInt16) : Prop :=
  ∃ high low, m.memory.get? m.regs.pc = some high ∧ m.memory.get? (m.regs.pc + 1) = some low ∧
    w.toNat = high.toNat * 256 + low.toNat

theorem fetch_eq_ok_iff {w : UInt16} : m.fetch = .ok w ↔ m.Holds w := Memory.readWord_eq_ok_iff

/-- The reasons for which a machine with a word at its counter cannot carry it out, in terms of the
pattern that fits the word. -/
inductive Fails (m : Machine) (w : UInt16) : Cause → Prop where
  | unknown (nothing : ∀ op : Opcode, ¬ Fits op.pattern w.toNat) (policy : m.policy = .halt) :
      Fails m w .illegalInstruction
  | ret (fits : Fits "00EE" w.toNat) (empty : m.regs.stack.sp = 0) : Fails m w .stackUnderflow
  | call (fits : Fits "2NNN" w.toNat) (full : m.regs.stack.sp = m.regs.stack.depth) :
      Fails m w (.stackOverflow m.regs.stack.depth)
  | draw (fits : Fits "DXYN" w.toNat) (outside : 4096 < m.regs.index + (w.toNat % 16 : Nat)) :
      Fails m w (.outOfBounds m.regs.index (w.toNat % 16 : Nat))
  | decimal (fits : Fits "FX33" w.toNat) (outside : 4096 < m.regs.index + 3) :
      Fails m w (.outOfBounds m.regs.index 3)
  | block (fits : Fits "FX55" w.toNat ∨ Fits "FX65" w.toNat)
      (outside : 4096 < m.regs.index + (w.toNat / 256 % 16 : Nat) + 1) :
      Fails m w (.outOfBounds m.regs.index ((w.toNat / 256 % 16 : Nat) + 1))

section Whole

variable (size : m.memory.size = memorySize)

include size

theorem not_within_iff {address length : Int} (low : 0 ≤ address) (positive : 0 ≤ length) :
    ¬ m.memory.Within address length ↔ 4096 < address + length := by
  have total : (m.memory.size : Int) = 4096 := by
    rw [size]
    rfl
  unfold Memory.Within
  omega

private theorem refused_iff_fails (low : 0 ≤ m.regs.index) (w : UInt16) :
    Refused (.decode w.toNat) m cause ↔ m.Fails w cause := by
  have fits {op : Opcode} (known : op ≠ .unknown) (plain : op ≠ .sys) :
      (Instruction.decode w.toNat).opcode = op ↔ Fits op.pattern w.toNat :=
    Instruction.opcode_eq_iff known plain w
  have outside {length : Int} (positive : 0 ≤ length) :
      ¬ m.memory.Within m.regs.index length ↔ 4096 < m.regs.index + length :=
    not_within_iff size low positive
  constructor
  · intro refused
    cases refused with
    | unknown op policy => exact .unknown ((Instruction.opcode_unknown_iff w).mp op) policy
    | call op full => exact .call ((fits (by decide) (by decide)).mp op) full
    | ret op empty => exact .ret ((fits (by decide) (by decide)).mp op) empty
    | draw op past =>
      rw [Instruction.n_decode] at past ⊢
      exact .draw ((fits (by decide) (by decide)).mp op) ((outside (by omega)).mp past)
    | decimal op past =>
      exact .decimal ((fits (by decide) (by decide)).mp op) ((outside (by omega)).mp past)
    | block op past =>
      rw [Instruction.x_decode] at past ⊢
      have beyond := (outside (by omega)).mp past
      simp only [List.mem_cons, List.not_mem_nil, or_false] at op
      refine .block (op.imp (fits (by decide) (by decide)).mp (fits (by decide) (by decide)).mp) ?_
      omega
  · intro fails
    cases fails with
    | unknown nothing policy =>
      exact .unknown ((Instruction.opcode_unknown_iff w).mpr nothing) policy
    | call word full => exact .call ((fits (by decide) (by decide)).mpr word) full
    | ret word empty => exact .ret ((fits (by decide) (by decide)).mpr word) empty
    | draw word past =>
      rw [← Instruction.n_decode] at past ⊢
      exact .draw ((fits (by decide) (by decide)).mpr word) ((outside (by omega)).mpr past)
    | decimal word past =>
      exact .decimal ((fits (by decide) (by decide)).mpr word) ((outside (by omega)).mpr past)
    | block word past =>
      rw [← Instruction.x_decode] at past ⊢
      refine .block ?_ ((outside (by omega)).mpr (by omega))
      simp only [List.mem_cons, List.not_mem_nil, or_false]
      exact word.imp (fits (by decide) (by decide)).mpr (fits (by decide) (by decide)).mpr

end Whole

private theorem step_of_unblamed {w : UInt16} (holds : m.Holds w)
    (unblamed : ∀ fault, ¬ m.Blamed fault) :
    ∃ m', m.step = (m', .ok (.decode w.toNat)) ∧ m'.cycles = m.cycles + 1 ∧ m'.halted = false ∧
      m'.fault = none := by
  rw [← fetch_eq_ok_iff] at holds
  cases m.stepped with
  | unfetched cause fetched result =>
    rw [holds] at fetched
    cases fetched
  | refused word cause fetched run result =>
    exact absurd (blamed_of_step (congrArg Prod.snd result)) (unblamed _)
  | done word after fetched run result =>
    rw [holds] at fetched
    cases fetched
    refine ⟨after.goOn, result, ?_, rfl, rfl⟩
    exact congrArg (· + 1) (perform_effect run).kept.cycles

/-- A step fails for the listed reasons and for no other: if there is no word at the counter, with
a fault that names none, and else exactly if the word there fails, with a fault that names the
counter and the word. In every other case it succeeds and reports the word. -/
theorem step_fails_exactly {s : Settings} (reached : Reached s m) :
    s.stackDepth = .int m.regs.stack.depth ∧
      ((∃ w, m.Holds w) ↔ m.regs.pc + 2 ≤ 4096) ∧
      (4096 < m.regs.pc + 2 → ∀ fault, m.step.2 = .error fault ↔
        fault = ⟨.outOfBounds m.regs.pc 2, some m.regs.pc, none⟩) ∧
      ∀ w, m.Holds w →
        (∀ fault, m.step.2 = .error fault ↔
          ∃ cause, m.Fails w cause ∧ fault = ⟨cause, some m.regs.pc, some w.toNat⟩) ∧
        ((∀ cause, ¬ m.Fails w cause) →
          ∃ m', m.step = (m', .ok (.decode w.toNat)) ∧ m'.cycles = m.cycles + 1 ∧
            m'.halted = false ∧ m'.fault = none) := by
  have sound := reached.sound
  have place : ¬ m.memory.Within m.regs.pc 2 ↔ 4096 < m.regs.pc + 2 :=
    not_within_iff sound.size sound.pc.1 (by decide)
  refine ⟨reached.depth, ⟨?_, ?_⟩, fun outside fault => ?_, fun w holds => ?_⟩
  · rintro ⟨w, holds⟩
    have within : m.memory.Within m.regs.pc 2 :=
      Memory.readWord_ok (fetch_eq_ok_iff.mpr holds)
    by_contra beyond
    exact place.mpr (Int.not_le.mp beyond) within
  · intro inside
    have within : m.memory.Within m.regs.pc 2 := by
      by_contra outside
      exact absurd (place.mp outside) (Int.not_lt.mpr inside)
    exact ⟨_, fetch_eq_ok_iff.mp (Memory.readWord_of_within within)⟩
  · rw [step_error_iff]
    exact blamed_iff_of_outside (place.mpr outside)
  · have fails (fault : Fault) : m.Blamed fault ↔
        ∃ cause, m.Fails w cause ∧ fault = ⟨cause, some m.regs.pc, some w.toNat⟩ := by
      rw [blamed_iff_of_fetch (fetch_eq_ok_iff.mpr holds)]
      simp only [refused_iff_fails sound.size sound.index.1 w]
    refine ⟨fun fault => step_error_iff.trans (fails fault), fun unfailing => ?_⟩
    refine step_of_unblamed holds fun fault blamed => ?_
    obtain ⟨cause, failing, -⟩ := (fails fault).mp blamed
    exact unfailing cause failing

/-- A machine about to store the registers up to the third at a place where memory ends after the
second. -/
def beforeStoreAtEnd : Machine :=
  (loaded [0xAF, 0xFE, 0xF2, 0x55]).obey (.event .step)

set_option maxRecDepth 20000 in
theorem store_at_end_fails :
    Reached .default beforeStoreAtEnd ∧ beforeStoreAtEnd.Holds 0xF255 ∧
      beforeStoreAtEnd.step.2 = .error ⟨.outOfBounds 0xFFE 3, some 0x202, some 0xF255⟩ := by
  have reached : Reached .default beforeStoreAtEnd :=
    (reached_loaded [0xAF, 0xFE, 0xF2, 0x55]).obeyed (.event .step)
  have holds : beforeStoreAtEnd.Holds 0xF255 := ⟨0xF2, 0x55, rfl, rfl, rfl⟩
  have fails : beforeStoreAtEnd.Fails 0xF255 (.outOfBounds 0xFFE 3) :=
    .block (.inl (by decide +kernel)) (by decide +kernel)
  obtain ⟨-, -, -, at_word⟩ := step_fails_exactly reached
  exact ⟨reached, holds, ((at_word 0xF255 holds).1 _).mpr ⟨_, fails, rfl⟩⟩

/-- A machine that a fault has stopped, with whatever has become of its pad and its timers since. -/
def stopped (m : Machine) (fault : Fault) (keys : Vector Bool 16) (timers : Timers) : Machine :=
  { m with halted := true, fault := some fault, keys, timers }

section Stopped

variable (keys : Vector Bool 16) (timers : Timers)

private theorem step_stopped (blamed : m.Blamed fault) :
    (m.stopped fault keys timers).step = (m.stopped fault keys timers, .error fault) := by
  have still : (m.stopped fault keys timers).Blamed fault := by
    cases blamed with
    | unfetched outside => exact .unfetched outside
    | refused word cause fetched refused =>
      exact .refused word cause fetched (refused.congr rfl rfl rfl rfl)
  rw [step_of_blamed still]
  rfl

private theorem next_stopped (blamed : m.Blamed fault) (idle : m.waiting = false) (e : Event) :
    ∃ keys' timers', (m.stopped fault keys timers).next e = m.stopped fault keys' timers' := by
  cases e with
  | step => exact ⟨keys, timers, by rw [next, step_stopped keys timers blamed]⟩
  | tick => exact ⟨keys, timers.tick, rfl⟩
  | key key down =>
    obtain ⟨keys', pressed, result, origin⟩ :=
      next_key_kept (m.stopped fault keys timers) key down
    -- a press is recorded only while an instruction waits, and none does
    have unpressed : pressed = m.pressed := by
      rcases origin with same | waiting
      · exact same
      · change m.waiting = true at waiting
        rw [idle] at waiting
        cases waiting
    rw [result, unpressed]
    exact ⟨keys', timers, rfl⟩

private theorem after_stopped (blamed : m.Blamed fault) (idle : m.waiting = false)
    (es : List Event) :
    ∃ keys' timers', (m.stopped fault keys timers).after es = m.stopped fault keys' timers' := by
  induction es generalizing keys timers with
  | nil => exact ⟨keys, timers, rfl⟩
  | cons e es ih =>
    obtain ⟨keys₁, timers₁, first⟩ := next_stopped keys timers blamed idle e
    rw [after_cons, first]
    exact ih keys₁ timers₁

end Stopped

private theorem Sound.idle_of_blamed (sound : m.Sound) (blamed : m.Blamed fault) :
    m.waiting = false := by
  cases blamed with
  | unfetched outside =>
    by_contra waiting
    obtain ⟨-, i, here, -⟩ := sound.waits (by simpa using waiting)
    rw [current, fetch, Memory.readWord_of_not_within outside] at here
    cases here
  | refused word cause fetched refused =>
    exact sound.idle_of_refused (current_of_fetch fetched) refused

/-- Once a step has failed, every later step fails with the same fault, whatever ticks, keys and
steps come between, and nothing but the pad and the timers changes any more. -/
theorem fault_lasts {s : Settings} (reached : Reached s m) (failed : m.step.2 = .error fault)
    (es : List Event) :
    let n := m.step.1.after es
    n.step = (n, .error fault) ∧ n.halted = true ∧
      n = { m with halted := true, fault := some fault, keys := n.keys, timers := n.timers } := by
  have blamed := blamed_of_step failed
  have idle := reached.sound.idle_of_blamed blamed
  obtain ⟨keys, timers, result⟩ := after_stopped m.keys m.timers blamed idle es
  have first : m.step.1 = m.stopped fault m.keys m.timers := by
    rw [step_of_blamed blamed]
    rfl
  rw [first, result]
  exact ⟨step_stopped keys timers blamed, rfl, rfl⟩

/-- A machine about to return from no call, with a timer running. -/
def beforeLoneReturn : Machine :=
  ((loaded [0x60, 0x05, 0xF0, 0x15, 0x00, 0xEE]).obey (.event .step)).obey (.event .step)

set_option maxRecDepth 20000 in
theorem lone_return_lasts :
    (beforeLoneReturn.step.1.after [.tick, .key 3 true, .step, .tick]).step.2 =
        .error ⟨.stackUnderflow, some 0x204, some 0x00EE⟩ ∧
      (beforeLoneReturn.step.1.after [.tick, .key 3 true, .step, .tick]).timers.delay = 3 := by
  have reached : Reached .default beforeLoneReturn :=
    ((reached_loaded _).obeyed (.event .step)).obeyed (.event .step)
  have failed : beforeLoneReturn.step.2 = .error ⟨.stackUnderflow, some 0x204, some 0x00EE⟩ := rfl
  obtain ⟨result, -, -⟩ := fault_lasts reached failed [.tick, .key 3 true, .step, .tick]
  exact ⟨congrArg Prod.snd result, rfl⟩

end Chip8.Machine
