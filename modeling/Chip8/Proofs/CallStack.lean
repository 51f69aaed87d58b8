import Mathlib.Tactic.Common
import Chip8.Machine.Registers

set_option autoImplicit false
set_option relaxedAutoImplicit false

namespace Chip8.CallStack

variable {s s' : CallStack} {a : UInt16} {cause : Cause}

theorem toNat_ofInt {address : Int} (low : 0 ≤ address) (high : address ≤ 65535) :
    ((UInt16.ofInt address).toNat : Int) = address := by
  have kept : address % 2 ^ 16 = address := Int.emod_eq_of_lt low (by omega)
  rw [UInt16.ofInt, kept, UInt16.toNat_ofNat', Nat.mod_eq_of_lt (by omega)]
  exact Int.toNat_of_nonneg low

@[simp] theorem depth_empty (depth : Nat) : (empty depth).depth = depth := by
  simp [empty, CallStack.depth]

@[simp] theorem depth_clear (s : CallStack) : s.clear.depth = s.depth := depth_empty s.depth

theorem frames_length (s : CallStack) : s.frames.length = s.sp := by
  have bound := s.sp_le
  rw [frames, List.length_take, Array.length_toList]
  omega

theorem pushAddress_ok (push : s.pushAddress a = .ok s') :
    ∃ room : s.sp < s.slots.size, s'.slots = s.slots.set s.sp a room ∧ s'.sp = s.sp + 1 := by
  unfold pushAddress at push
  split at push
  · rename_i room
    cases push
    exact ⟨room, rfl, rfl⟩
  · cases push

theorem pushAddress_error (push : s.pushAddress a = .error cause) :
    cause = .stackOverflow s.depth ∧ s.sp = s.depth := by
  unfold pushAddress at push
  split at push <;> cases push
  rename_i full
  exact ⟨rfl, Nat.le_antisymm s.sp_le (Nat.le_of_not_lt full)⟩

theorem pushAddress_of_full (full : s.sp = s.depth) :
    s.pushAddress a = .error (.stackOverflow s.depth) := by
  rw [pushAddress, dif_neg]
  rw [full]
  exact Nat.lt_irrefl _

private theorem writeAbove_of_wide {address : Int} (wide : ¬ (0 ≤ address ∧ address ≤ 65535)) :
    writeAbove address s = .error .wideAddress s :=
  bind_of_error (demand_of_not wide _ s) _

private theorem writeAbove_of_room {address : Int} (fits : 0 ≤ address ∧ address ≤ 65535)
    (room : s.sp < s.depth) :
    ∃ above, writeAbove address s = .ok () above ∧
      s.pushAddress (UInt16.ofInt address) = .ok above.grow := by
  refine ⟨_, bind_of_ok (demand_of fits _ s) _, ?_⟩
  have room : s.sp < s.slots.size := room
  have longer : s.sp < (s.slots.setIfInBounds s.sp (UInt16.ofInt address)).size := by
    rw [Array.size_setIfInBounds]
    exact room
  rw [pushAddress, dif_pos room, grow, dif_pos longer]
  congr 2
  exact (dif_pos room).symm

/-- Both refusals of a push come before its first change. -/
theorem pushing_of_full {address : Int} (full : s.sp = s.depth) :
    pushing address s = .error (.fault (.stackOverflow s.depth)) s :=
  bind_of_error (demand_of_not (by omega) _ s) _

theorem pushing_of_wide {address : Int} (room : s.sp < s.depth)
    (wide : ¬ (0 ≤ address ∧ address ≤ 65535)) :
    pushing address s = .error (.misuse .wideAddress) s := by
  refine (bind_of_ok (demand_of room _ s) _).trans ?_
  exact bind_of_error (adapt_of_error (writeAbove_of_wide wide) _) _

theorem pushing_of_room {address : Int} (room : s.sp < s.depth)
    (fits : 0 ≤ address ∧ address ≤ 65535) :
    ∃ s', pushing address s = .ok () s' ∧ s.pushAddress (UInt16.ofInt address) = .ok s' := by
  obtain ⟨above, written, pushed⟩ := writeAbove_of_room fits room
  refine ⟨above.grow, ?_, pushed⟩
  refine (bind_of_ok (demand_of room _ s) _).trans ?_
  exact bind_of_ok (adapt_of_ok written _) _

theorem popping_of_empty (empty : s.sp = 0) : popping s = .error .stackUnderflow s :=
  bind_of_error (demand_of_not (by omega) _ s) _

theorem popping_of_used (used : 0 < s.sp) :
    popping s = .ok (s.slots.getD (s.sp - 1) 0) s.shrink :=
  bind_of_ok (demand_of used _ s) _

theorem pop_ok (pop : s.pop = .ok (a, s')) :
    s'.slots = s.slots ∧ s.sp = s'.sp + 1 ∧ s.slots[s'.sp]? = some a := by
  have room := s.sp_le
  rcases Nat.eq_zero_or_pos s.sp with empty | used
  · rw [CallStack.pop, settled, popping_of_empty empty] at pop
    cases pop
  · rw [CallStack.pop, settled, popping_of_used used] at pop
    cases pop
    have below : s.sp - 1 < s.slots.size := by omega
    refine ⟨rfl, (Nat.sub_add_cancel used).symm, ?_⟩
    simp [shrink, below]

theorem pop_of_empty (empty : s.sp = 0) : s.pop = .error .stackUnderflow := by
  rw [pop, settled, popping_of_empty empty]

theorem pop_error (pop : s.pop = .error cause) : cause = .stackUnderflow ∧ s.sp = 0 := by
  rcases Nat.eq_zero_or_pos s.sp with empty | used
  · rw [pop_of_empty empty] at pop
    cases pop
    exact ⟨rfl, empty⟩
  · rw [CallStack.pop, settled, popping_of_used used] at pop
    cases pop

theorem depth_push (push : s.pushAddress a = .ok s') : s'.depth = s.depth := by
  obtain ⟨room, slots, -⟩ := pushAddress_ok push
  rw [CallStack.depth, slots, Array.size_set]
  rfl

theorem depth_pop (pop : s.pop = .ok (a, s')) : s'.depth = s.depth := by
  obtain ⟨slots, -, -⟩ := pop_ok pop
  rw [CallStack.depth, slots]
  rfl

theorem frames_push (push : s.pushAddress a = .ok s') : s'.frames = s.frames ++ [a] := by
  obtain ⟨room, slots, sp⟩ := pushAddress_ok push
  have longer : s.sp < (s.slots.toList.set s.sp a).length := by simpa using room
  rw [frames, slots, sp, Array.toList_set, List.take_succ_eq_append_getElem longer,
    List.take_set_of_le (Nat.le_refl s.sp), List.getElem_set_self]
  rfl

theorem frames_pop (pop : s.pop = .ok (a, s')) : s.frames = s'.frames ++ [a] := by
  obtain ⟨slots, sp, top⟩ := pop_ok pop
  rw [frames, frames, slots, sp, List.take_add_one, Array.getElem?_toList, top]
  rfl

theorem mem_slots_of_push {b : UInt16} (push : s.pushAddress a = .ok s') (mem : b ∈ s'.slots) :
    b ∈ s.slots ∨ b = a := by
  obtain ⟨room, slots, -⟩ := pushAddress_ok push
  rw [slots] at mem
  exact Array.mem_or_eq_of_mem_set mem

theorem pop_regs (r : Registers) :
    r.pop = r.stack.pop.map fun popped => (popped.1, { r with stack := popped.2 }) := by
  rw [Registers.pop, CallStack.pop, settled, settled, Registers.inStack]
  cases popping r.stack <;> rfl

end Chip8.CallStack
