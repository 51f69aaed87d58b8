import Mathlib.Tactic.Common
import Chip8.Machine.Registers
import Chip8.Proofs.CallStack

set_option autoImplicit false
set_option relaxedAutoImplicit false

namespace Chip8.Registers

inductive StackCall where
  | push (address : Int)
  | pop
  /-- Zero everything and set the program counter. -/
  | reset (pc : Int)
  deriving DecidableEq

abbrev StackReply := Except Refusal (Option Int)

/-- The register file after a call, and what the call comes to. -/
def handle (r : Registers) : StackCall → Registers × StackReply
  | .push address => leaving (fun _ => none) r (inStack (CallStack.pushing address))
  | .pop =>
    leaving (fun a => some (a.toNat : Int)) r (inStack (CallStack.popping.adaptExcept .fault))
  | .reset pc => (r.reset pc, .ok none)

def afterCalls (r : Registers) (calls : List StackCall) : Registers :=
  calls.foldl (fun r c => (r.handle c).1) r

def replies (r : Registers) : List StackCall → List StackReply
  | [] => []
  | c :: calls => (r.handle c).2 :: (r.handle c).1.replies calls

def addresses (r : Registers) : List Int := r.stack.frames.map fun a => (a.toNat : Int)

/-- What a call makes of a list of addresses that may hold `depth` of them. -/
def hold (depth : Nat) (held : List Int) : StackCall → List Int
  | .push a => if held.length < depth ∧ 0 ≤ a ∧ a ≤ 65535 then held ++ [a] else held
  | .pop => held.dropLast
  | .reset _ => []

/-- What a call to such a list comes to. That it is full counts before that an address is too
wide for a slot. -/
def listReply (depth : Nat) (held : List Int) : StackCall → StackReply
  | .push a =>
    if held.length = depth then .error (.fault (.stackOverflow depth))
    else if 0 ≤ a ∧ a ≤ 65535 then .ok none
    else .error (.misuse .wideAddress)
  | .pop =>
    match held.getLast? with
    | none => .error (.fault .stackUnderflow)
    | some a => .ok (some a)
  | .reset _ => .ok none

section Handle

variable {r r' : Registers} {a : Int}

private theorem length_addresses (r : Registers) : r.addresses.length = r.stack.sp := by
  rw [addresses, List.length_map, CallStack.frames_length]

private theorem length_addresses_le (r : Registers) : r.addresses.length ≤ r.stack.depth := by
  rw [length_addresses]
  exact r.stack.sp_le

private theorem handle_push_of_error {refusal : Refusal} {a : Int}
    (refused : CallStack.pushing a r.stack = .error refusal r.stack) :
    r.handle (.push a) = (r, .error refusal) := by
  rw [handle, leaving, inStack, refused]

private theorem handle_push_of_full (full : r.addresses.length = r.stack.depth) (a : Int) :
    r.handle (.push a) = (r, .error (.fault (.stackOverflow r.stack.depth))) := by
  rw [length_addresses] at full
  exact handle_push_of_error (CallStack.pushing_of_full full)

private theorem handle_push_of_wide (room : r.addresses.length ≠ r.stack.depth)
    (wide : ¬ (0 ≤ a ∧ a ≤ 65535)) : r.handle (.push a) = (r, .error (.misuse .wideAddress)) := by
  have below := r.length_addresses_le
  rw [length_addresses] at room below
  exact handle_push_of_error (CallStack.pushing_of_wide (by omega) wide)

private theorem handle_push_of_room (room : r.addresses.length ≠ r.stack.depth)
    (fits : 0 ≤ a ∧ a ≤ 65535) :
    ∃ r', r.handle (.push a) = (r', .ok none) ∧ r'.addresses = r.addresses ++ [a] ∧
      r'.stack.depth = r.stack.depth := by
  have below := r.length_addresses_le
  rw [length_addresses] at room below
  obtain ⟨stack, pushing, pushed⟩ := CallStack.pushing_of_room (s := r.stack) (by omega) fits
  refine ⟨{ r with stack }, ?_, ?_, CallStack.depth_push pushed⟩
  · rw [handle, leaving, inStack, pushing]
  · rw [addresses, CallStack.frames_push pushed, List.map_append, List.map_singleton,
      CallStack.toNat_ofInt fits.1 fits.2]
    rfl

private theorem handle_pop_of_vacant (vacant : r.addresses = []) :
    r.handle .pop = (r, .error (.fault .stackUnderflow)) := by
  have empty : r.stack.sp = 0 := by rw [← length_addresses, vacant, List.length_nil]
  rw [handle, leaving, inStack, adapt_of_error (CallStack.popping_of_empty empty)]

private theorem handle_pop_of_used (used : r.addresses ≠ []) :
    ∃ (address : UInt16) (r' : Registers), r.handle .pop = (r', .ok (some address.toNat)) ∧
      r.addresses = r'.addresses ++ [(address.toNat : Int)] ∧
      r'.stack.depth = r.stack.depth := by
  have some : 0 < r.stack.sp := by
    rw [← length_addresses]
    exact List.length_pos_iff.mpr used
  have popping := CallStack.popping_of_used some
  have popped : r.stack.pop = .ok (r.stack.slots.getD (r.stack.sp - 1) 0, r.stack.shrink) := by
    rw [CallStack.pop, settled, popping]
  refine ⟨r.stack.slots.getD (r.stack.sp - 1) 0, { r with stack := r.stack.shrink }, ?_, ?_,
    CallStack.depth_pop popped⟩
  · rw [handle, leaving, inStack, adapt_of_ok popping]
  · rw [addresses, CallStack.frames_pop popped, List.map_append, List.map_singleton]
    rfl

private theorem addresses_of_cleared (r : Registers) (pc : Int) : (r.reset pc).addresses = [] :=
  List.length_eq_zero_iff.mp (length_addresses (r.reset pc))

/-- A register file answers a call as the list of its addresses does, and then holds what the list
holds. Only its depth and its addresses come into it. -/
theorem handle_as_list (r : Registers) (c : StackCall) :
    (r.handle c).2 = listReply r.stack.depth r.addresses c ∧
      (r.handle c).1.addresses = hold r.stack.depth r.addresses c ∧
      (r.handle c).1.stack.depth = r.stack.depth := by
  have below := r.length_addresses_le
  cases c with
  | push a =>
    rw [listReply, hold]
    by_cases full : r.addresses.length = r.stack.depth
    · rw [handle_push_of_full full, if_pos full, if_neg (by omega)]
      exact ⟨rfl, rfl, rfl⟩
    · by_cases fits : 0 ≤ a ∧ a ≤ 65535
      · obtain ⟨r', pushed, appended, depth⟩ := handle_push_of_room full fits
        rw [pushed, if_neg full, if_pos fits, if_pos ⟨by omega, fits⟩]
        exact ⟨rfl, appended, depth⟩
      · rw [handle_push_of_wide full fits, if_neg full, if_neg fits,
          if_neg fun both => fits both.2]
        exact ⟨rfl, rfl, rfl⟩
  | pop =>
    rw [listReply, hold]
    by_cases vacant : r.addresses = []
    · rw [handle_pop_of_vacant vacant, vacant]
      exact ⟨rfl, rfl, rfl⟩
    · obtain ⟨address, r', popped, last, depth⟩ := handle_pop_of_used vacant
      rw [popped, last, List.getLast?_concat, List.dropLast_concat]
      exact ⟨rfl, rfl, depth⟩
  | reset pc => exact ⟨rfl, r.addresses_of_cleared pc, CallStack.depth_clear r.stack⟩

/-- A call that is refused changes nothing: it is refused before its first change. -/
theorem handle_of_refused {refusal : Refusal} {c : StackCall}
    (refused : (r.handle c).2 = .error refusal) : (r.handle c).1 = r := by
  cases c with
  | push a =>
    by_cases full : r.addresses.length = r.stack.depth
    · rw [handle_push_of_full full]
    · by_cases fits : 0 ≤ a ∧ a ≤ 65535
      · obtain ⟨r', pushed, -⟩ := handle_push_of_room full fits
        rw [pushed] at refused
        cases refused
      · rw [handle_push_of_wide full fits]
  | pop =>
    by_cases vacant : r.addresses = []
    · rw [handle_pop_of_vacant vacant]
    · obtain ⟨address, r', popped, -⟩ := handle_pop_of_used vacant
      rw [popped] at refused
      cases refused
  | reset pc => cases refused

private theorem replies_congr {r r' : Registers} (depth : r'.stack.depth = r.stack.depth)
    (same : r'.addresses = r.addresses) (calls : List StackCall) :
    r'.replies calls = r.replies calls ∧
      (r'.afterCalls calls).addresses = (r.afterCalls calls).addresses := by
  induction calls generalizing r r' with
  | nil => exact ⟨rfl, same⟩
  | cons c calls ih =>
    obtain ⟨reply, held, kept⟩ := r.handle_as_list c
    obtain ⟨reply', held', kept'⟩ := r'.handle_as_list c
    rw [depth, same] at reply' held'
    obtain ⟨replies, after⟩ := ih (kept'.trans (depth.trans kept.symm)) (held'.trans held.symm)
    refine ⟨?_, after⟩
    rw [Registers.replies, Registers.replies, reply', ← reply, replies]

end Handle

private theorem addresses_afterCalls (r : Registers) (calls : List StackCall) :
    (r.afterCalls calls).addresses = calls.foldl (hold r.stack.depth) r.addresses ∧
      (r.afterCalls calls).stack.depth = r.stack.depth := by
  induction calls generalizing r with
  | nil => exact ⟨rfl, rfl⟩
  | cons c calls ih =>
    obtain ⟨-, held, kept⟩ := r.handle_as_list c
    obtain ⟨holds, depth⟩ := ih (r.handle c).1
    rw [held, kept] at holds
    exact ⟨holds, depth.trans kept⟩

/-- Whatever was asked of a register file, its call stack is the list that pushes append to and pops
take the last address off, bounded by the depth. A call is answered as by that list: a full one is
reported, else an address that fits no slot, and a pop from an empty one. A call that is refused
changes nothing. Another register file of the same depth that holds the same addresses, whatever is
in its other slots, gives the same replies from then on. A stack of every depth whose bytes can be
counted is built, as long as the host has memory for it. -/
theorem stack_refines_list (depth : Nat) (history : List StackCall) :
    let r := (initial (.empty depth)).afterCalls history
    let held := history.foldl (hold depth) []
    (depth < 0x4000000000000000 → CallStack.ofDepth depth = .ok (.empty depth)) ∧
      r.addresses = held ∧ r.stack.depth = depth ∧ held.length ≤ depth ∧
      (∀ c, (r.handle c).2 = listReply depth held c) ∧
      (∀ c refusal, listReply depth held c = .error refusal → (r.handle c).1 = r) ∧
      ∀ r' : Registers, r'.stack.depth = depth → r'.addresses = held → ∀ more : List StackCall,
        r'.replies more = r.replies more ∧
          (r'.afterCalls more).addresses = (r.afterCalls more).addresses := by
  intro r held
  have vacant : (initial (.empty depth)).addresses = [] :=
    List.length_eq_zero_iff.mp (length_addresses _)
  have built : (initial (.empty depth)).stack.depth = depth := by
    rw [initial, CallStack.depth_clear, CallStack.depth_empty]
  obtain ⟨holds, kept⟩ : r.addresses = held ∧ r.stack.depth = depth := by
    have refines := (initial (.empty depth)).addresses_afterCalls history
    rw [vacant, built] at refines
    exact refines
  have answers (c : StackCall) : (r.handle c).2 = listReply depth held c := by
    have reply := (r.handle_as_list c).1
    rwa [holds, kept] at reply
  refine ⟨fun small => ?_, holds, kept, ?_, answers, fun c refusal refused => ?_,
    fun r' depth' same => replies_congr (depth'.trans kept.symm) (same.trans holds.symm)⟩
  · rw [CallStack.ofDepth, if_neg (by omega), if_neg (by omega), if_neg (by omega)]
    rfl
  · have bound := r.length_addresses_le
    rwa [holds, kept] at bound
  · exact handle_of_refused ((answers c).trans refused)

/-- A slot that a popped address was left in is not seen, and neither is an address refused because
the stack was full or because it was too wide. -/
theorem stale_slot_unseen :
    let worn := (initial (.empty 2)).afterCalls [.push 7, .push 9, .push 300, .pop, .push 70000]
    let clean := (initial (.empty 2)).afterCalls [.push 7]
    let more : List StackCall := [.push 5, .push 6, .pop, .pop, .pop]
    worn.stack.slots ≠ clean.stack.slots ∧ clean.stack.depth = 2 ∧ clean.addresses = [7] ∧
      clean.replies more = worn.replies more ∧
      worn.replies more = [.ok none, .error (.fault (.stackOverflow 2)), .ok (some 5),
        .ok (some 7), .error (.fault .stackUnderflow)] := by
  intro worn clean more
  have depth : clean.stack.depth = 2 := by decide +kernel
  have held : clean.addresses = [7] := by decide +kernel
  obtain ⟨-, -, -, -, -, -, alike⟩ :=
    stack_refines_list 2 [.push 7, .push 9, .push 300, .pop, .push 70000]
  exact ⟨by decide +kernel, depth, held, (alike clean depth held more).1, by decide +kernel⟩

end Chip8.Registers
