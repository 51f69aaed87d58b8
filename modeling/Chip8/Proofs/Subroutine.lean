import Mathlib.Data.List.Induction
import Mathlib.Data.List.Infix
import Chip8.Proofs.Invariant

set_option autoImplicit false
set_option relaxedAutoImplicit false

namespace Chip8.Machine

variable {m m' : Machine} {i : Instruction}

theorem effect_of_step (result : m.step = (m', .ok i)) :
    ∃ word after, m.fetch = .ok word ∧ i = .decode word.toNat ∧ Effect i m.past after ∧
      m' = after.goOn := by
  obtain ⟨word, after, fetched, decoded, run, next⟩ := run_of_step (congrArg Prod.snd result)
  rw [result] at next
  exact ⟨word, after, fetched, decoded, perform_effect run, next⟩

theorem frames_of_call (result : m.step = (m', .ok i)) (op : i.opcode = .call) :
    m'.regs.stack.frames = m.regs.stack.frames ++ [UInt16.ofInt (m.regs.pc + 2)] := by
  obtain ⟨word, after, -, -, effect, rfl⟩ := effect_of_step result
  cases effect with
  | call op' stack pushed => exact CallStack.frames_push pushed
  | _ => simp_all

theorem frames_of_ret (result : m.step = (m', .ok i)) (op : i.opcode = .ret) :
    ∃ address : UInt16, m.regs.stack.frames = m'.regs.stack.frames ++ [address] ∧
      m'.regs.pc = address.toNat := by
  obtain ⟨word, after, -, -, effect, rfl⟩ := effect_of_step result
  cases effect with
  | ret op' address stack popped => exact ⟨address, CallStack.frames_pop popped, rfl⟩
  | _ => simp_all

private theorem frames_step (m : Machine) :
    m.step.1.regs.stack.frames = m.regs.stack.frames ∨
      (∃ address, m.step.1.regs.stack.frames = m.regs.stack.frames ++ [address]) ∨
      ∃ address, m.regs.stack.frames = m.step.1.regs.stack.frames ++ [address] := by
  rcases m.stack_step with same | ⟨address, pushed⟩ | ⟨address, popped⟩
  · exact .inl (congrArg CallStack.frames same)
  · exact .inr (.inl ⟨address, CallStack.frames_push pushed⟩)
  · exact .inr (.inr ⟨address, CallStack.frames_pop popped⟩)

private theorem frames_kept_next {base : List UInt16} {e : Event}
    (bottom : base <+: m.regs.stack.frames)
    (above : base.length ≤ (m.next e).regs.stack.sp) :
    base <+: (m.next e).regs.stack.frames := by
  cases e with
  | tick => exact bottom
  | key key down =>
    obtain ⟨keys, pressed, result, -⟩ := next_key_kept m key down
    rw [result]
    exact bottom
  | step =>
    change base <+: m.step.1.regs.stack.frames
    rcases m.frames_step with same | ⟨address, pushed⟩ | ⟨address, popped⟩
    · rw [same]
      exact bottom
    · rw [pushed]
      exact bottom.trans (List.prefix_append _ _)
    · -- the frame taken off lies above the others, since as many as these are left
      rw [popped] at bottom
      rw [← CallStack.frames_length] at above
      exact List.prefix_of_prefix_length_le bottom (List.prefix_append _ _) above

/-- Frames at the bottom of the stack stay there as long as the stack stays that high. -/
theorem frames_kept {base : List UInt16} (bottom : base <+: m.regs.stack.frames)
    {es : List Event} (above : ∀ pre, pre <+: es → base.length ≤ (m.after pre).regs.stack.sp) :
    base <+: (m.after es).regs.stack.frames := by
  induction es using List.reverseRecOn with
  | nil => exact bottom
  | append_singleton es e ih =>
    have before : base <+: (m.after es).regs.stack.frames :=
      ih fun pre shorter => above pre (shorter.trans (List.prefix_append es [e]))
    have high := above _ (List.prefix_refl _)
    rw [after_append, after_cons, after_nil] at high ⊢
    exact frames_kept_next before high

/-- From a call on, whatever the body does while the stack stays above the level of the call, the
return that comes back to that level goes to the address after the call and leaves the frames that
were there before it. -/
theorem return_after_call {settings : Settings} {s s₁ t : Machine} {call ret : Instruction}
    {body : List Event} (reached : Reached settings s) (called : s.step = (s₁, .ok call))
    (call_op : call.opcode = .call)
    (above : ∀ pre, pre <+: body → s.regs.stack.sp < (s₁.after pre).regs.stack.sp)
    (returned : (s₁.after body).step = (t, .ok ret)) (ret_op : ret.opcode = .ret)
    (level : t.regs.stack.sp = s.regs.stack.sp) :
    t.regs.pc = s.regs.pc + 2 ∧ t.regs.stack.frames = s.regs.stack.frames := by
  obtain ⟨word, -, fetched, -⟩ := effect_of_step called
  obtain ⟨-, -, fits⟩ := reached.sound.return_address fetched
  have pushed := frames_of_call called call_op
  have height : s₁.regs.stack.frames.length = s.regs.stack.sp + 1 := by
    rw [pushed, List.length_append, CallStack.frames_length]
    rfl
  have kept : s₁.regs.stack.frames <+: (s₁.after body).regs.stack.frames := by
    refine frames_kept (List.prefix_refl _) fun pre before => ?_
    rw [height]
    exact above pre before
  obtain ⟨address, popped, goes⟩ := frames_of_ret returned ret_op
  -- the return finds no more frames than the call left
  have whole : s₁.regs.stack.frames = (s₁.after body).regs.stack.frames := by
    apply kept.eq_of_length
    rw [height, popped, List.length_append, CallStack.frames_length, level]
    rfl
  rw [pushed, popped] at whole
  obtain ⟨frames, top⟩ := List.append_inj' whole rfl
  cases top
  exact ⟨goes.trans fits, frames.symm⟩

/-- A machine about to call a routine that calls another. -/
def beforeNestedCall : Machine :=
  loaded [0x22, 0x06, 0x12, 0x02, 0x00, 0x00, 0x22, 0x0A, 0x00, 0xEE, 0x00, 0xEE]

/-- The inner call and its return, with a tick and a key between them. -/
def nestedCall : List Event := [.step, .tick, .key 4 true, .step]

set_option maxRecDepth 20000 in
theorem nested_call_returns :
    ((beforeNestedCall.step.1.after nestedCall).step.1).regs.pc = 0x202 ∧
      ((beforeNestedCall.step.1.after nestedCall).step.1).regs.stack.frames = [] := by
  have reached : Reached .default beforeNestedCall := reached_loaded _
  have called : beforeNestedCall.step = (beforeNestedCall.step.1, .ok (.decode 0x2206)) := rfl
  have returned : (beforeNestedCall.step.1.after nestedCall).step =
      ((beforeNestedCall.step.1.after nestedCall).step.1, .ok (.decode 0x00EE)) := rfl
  have above : ∀ pre, pre <+: nestedCall →
      beforeNestedCall.regs.stack.sp < (beforeNestedCall.step.1.after pre).regs.stack.sp := by
    intro pre before
    rw [← List.mem_inits] at before
    revert pre
    decide +kernel
  exact return_after_call reached called rfl above returned rfl rfl

end Chip8.Machine
