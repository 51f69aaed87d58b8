import Mathlib.Tactic.Common
import Chip8.Machine.Memory

set_option autoImplicit false
set_option relaxedAutoImplicit false

namespace Chip8.Memory

variable {m m' : Memory} {address length : Int} {cause : Cause}

private theorem check_of_within (within : m.Within address length) :
    m.check address length = .ok () := if_pos within

private theorem check_of_not_within (outside : ¬ m.Within address length) :
    m.check address length = .error (.outOfBounds address length) := if_neg outside

theorem ensure_of_within (within : m.Within address length) : ensure address length m = .ok () m :=
  demand_of within _ m

theorem ensure_of_not_within (outside : ¬ m.Within address length) :
    ensure address length m = .error (.outOfBounds address length) m :=
  demand_of_not outside _ m

/-! Runs of cells. What replaces a run that lies within the row and is as long as it leaves the row
at its length; any other would not. -/

section Splice

variable {α : Type} {row cells : List α} {start k : Nat}

private theorem splice_of_within (within : start + cells.length ≤ row.length) :
    splice row start (start + cells.length) cells =
      row.take start ++ cells ++ row.drop (start + cells.length) := by
  have first : edge row.length start = start := by
    rw [edge, if_neg (by omega)]
    omega
  have last : edge row.length (start + cells.length) = start + cells.length := by
    rw [edge, if_neg (by omega)]
    omega
  rw [splice, first, last, Nat.max_eq_right (Nat.le_add_right _ _)]

theorem length_splice (within : start + cells.length ≤ row.length) :
    (splice row start (start + cells.length) cells).length = row.length := by
  rw [splice_of_within within, List.length_append, List.length_append, List.length_take,
    List.length_drop]
  omega

theorem getElem?_splice_outside (within : start + cells.length ≤ row.length)
    (outside : k < start ∨ start + cells.length ≤ k) :
    (splice row start (start + cells.length) cells)[k]? = row[k]? := by
  rw [splice_of_within within]
  rcases outside with before | behind
  · rw [List.append_assoc, List.getElem?_append_left (by rw [List.length_take]; omega),
      List.getElem?_take_of_lt before]
  · rw [List.getElem?_append_right (by rw [List.length_append, List.length_take]; omega),
      List.length_append, List.length_take, List.getElem?_drop]
    congr 1
    omega

theorem getElem?_splice_inside (within : start + cells.length ≤ row.length)
    (inside : k < cells.length) :
    (splice row start (start + cells.length) cells)[start + k]? = cells[k]? := by
  have front : (row.take start).length = start := by
    rw [List.length_take]
    omega
  rw [splice_of_within within, List.append_assoc, List.getElem?_append_right (by omega), front,
    Nat.add_sub_cancel_left, List.getElem?_append_left inside]

theorem getElem?_splice_front (within : 0 + cells.length ≤ row.length) (inside : k < row.length) :
    (splice row (0 : Nat) ((0 : Nat) + cells.length) cells)[k]? = some (cells.getD k row[k]) := by
  rw [List.getD_eq_getElem?_getD]
  by_cases replaced : k < cells.length
  · have here := getElem?_splice_inside within replaced
    rw [Nat.zero_add] at here
    rw [here, List.getElem?_eq_getElem replaced, Option.getD_some]
  · have kept : 0 + cells.length ≤ k := by omega
    rw [getElem?_splice_outside within (.inr kept), List.getElem?_eq_getElem inside,
      List.getElem?_eq_none (Nat.le_of_not_lt replaced), Option.getD_none]

end Splice

/-- A block is put in place once it was found to lie within, and not before. -/
theorem storing_of_within {bytes : List UInt8} (within : m.Within address bytes.length) :
    storing address bytes m = .ok () (m.withBlock address bytes) :=
  bind_of_ok (ensure_of_within within) _

theorem storing_of_not_within {bytes : List UInt8} (outside : ¬ m.Within address bytes.length) :
    storing address bytes m = .error (.outOfBounds address bytes.length) m :=
  bind_of_error (ensure_of_not_within outside) _

theorem store_eq (m : Memory) (address : Int) (bytes : List UInt8) :
    m.store address bytes =
      if m.Within address bytes.length then .ok (m.withBlock address bytes)
      else .error (.outOfBounds address bytes.length) := by
  rw [store, settled]
  by_cases within : m.Within address bytes.length
  · rw [storing_of_within within, if_pos within]
    rfl
  · rw [storing_of_not_within within, if_neg within]
    rfl

section Block

variable {bytes : List UInt8} {k : Nat}

/-- The length of memory is kept since the block lies within it. -/
theorem size_withBlock (within : m.Within address bytes.length) :
    (m.withBlock address bytes).size = m.size := by
  obtain ⟨low, -, high⟩ := within
  obtain ⟨start, rfl⟩ := Int.eq_ofNat_of_zero_le low
  have fits : start + bytes.length ≤ m.cells.toList.length := by
    have size : (m.cells.toList.length : Int) = m.size := congrArg _ Array.length_toList
    omega
  rw [withBlock, Memory.size, List.size_toArray, length_splice fits]
  exact Array.length_toList

theorem getElem?_withBlock_outside (within : m.Within address bytes.length)
    (outside : (k : Int) < address ∨ address + bytes.length ≤ k) :
    (m.withBlock address bytes).cells[k]? = m.cells[k]? := by
  obtain ⟨low, -, high⟩ := within
  obtain ⟨start, rfl⟩ := Int.eq_ofNat_of_zero_le low
  have fits : start + bytes.length ≤ m.cells.toList.length := by
    have size : (m.cells.toList.length : Int) = m.size := congrArg _ Array.length_toList
    omega
  rw [withBlock, List.getElem?_toArray, getElem?_splice_outside fits (by omega),
    Array.getElem?_toList]

theorem getElem?_withBlock_inside (within : m.Within address bytes.length)
    (inside : k < bytes.length) :
    (m.withBlock address bytes).cells[address.toNat + k]? = bytes[k]? := by
  obtain ⟨low, -, high⟩ := within
  obtain ⟨start, rfl⟩ := Int.eq_ofNat_of_zero_le low
  have fits : start + bytes.length ≤ m.cells.toList.length := by
    have size : (m.cells.toList.length : Int) = m.size := congrArg _ Array.length_toList
    omega
  rw [withBlock, List.getElem?_toArray]
  exact getElem?_splice_inside fits inside

end Block

theorem store_of_not_within {bytes : List UInt8} (outside : ¬ m.Within address bytes.length) :
    m.store address bytes = .error (.outOfBounds address bytes.length) := by
  rw [store_eq, if_neg outside]

theorem size_store {bytes : List UInt8} (store : m.store address bytes = .ok m') :
    m'.size = m.size := by
  rw [store_eq] at store
  split at store
  · rename_i within
    cases store
    exact size_withBlock within
  · cases store

theorem store_error {bytes : List UInt8} (store : m.store address bytes = .error cause) :
    cause = .outOfBounds address bytes.length ∧ ¬ m.Within address bytes.length := by
  rw [store_eq] at store
  split at store <;> cases store
  rename_i outside
  exact ⟨rfl, outside⟩

theorem get?_store_outside {bytes : List UInt8} (store : m.store address bytes = .ok m') {a : Int}
    (outside : a < address ∨ address + bytes.length ≤ a) : m'.get? a = m.get? a := by
  rw [store_eq] at store
  split at store
  · rename_i within
    cases store
    unfold get?
    split
    · rfl
    · exact getElem?_withBlock_outside within (by omega)
  · cases store

theorem get?_store_inside {bytes : List UInt8} (store : m.store address bytes = .ok m') {k : Nat}
    (inside : k < bytes.length) : m'.get? (address + k) = bytes[k]? := by
  rw [store_eq] at store
  split at store
  · rename_i within
    have low := within.1
    cases store
    have place : (address + k).toNat = address.toNat + k := by omega
    rw [get?, if_neg (by omega), place]
    exact getElem?_withBlock_inside within inside
  · cases store

theorem ext_get? (same : ∀ a, m'.get? a = m.get? a) : m' = m := by
  obtain ⟨cells⟩ := m
  obtain ⟨cells'⟩ := m'
  congr 1
  apply Array.ext_getElem?
  intro k
  have at_k (cells : Array UInt8) : get? ⟨cells⟩ k = cells[k]? :=
    if_neg (Int.not_lt.mpr (Int.natCast_nonneg k))
  rw [← at_k, ← at_k]
  exact same k

theorem store_of_present {bytes : List UInt8} (within : m.Within address bytes.length)
    (present : ∀ k < bytes.length, m.get? (address + (k : Nat)) = bytes[k]?) :
    m.store address bytes = .ok m := by
  have store := store_eq m address bytes
  rw [if_pos within] at store
  rw [store]
  refine congrArg Except.ok (ext_get? fun a => ?_)
  by_cases inside : address ≤ a ∧ a < address + bytes.length
  · obtain ⟨k, rfl⟩ : ∃ k : Nat, a = address + k := ⟨(a - address).toNat, by omega⟩
    have below : k < bytes.length := by omega
    rw [get?_store_inside store below, present k below]
  · exact get?_store_outside store (by omega)

theorem length_readBlock {bytes : List UInt8} (read : m.readBlock address length = .ok bytes) :
    (bytes.length : Int) = length := by
  by_cases within : m.Within address length
  · rw [readBlock, check_of_within within] at read
    cases read
    obtain ⟨nonneg, positive, fits⟩ := within
    have size : (m.cells.size : Int) = m.size := rfl
    rw [Array.length_toList, Array.size_extract]
    omega
  · rw [readBlock, check_of_not_within within] at read
    cases read

theorem readBlock_of_within (within : m.Within address length) :
    ∃ bytes, m.readBlock address length = .ok bytes := by
  rw [readBlock, check_of_within within]
  exact ⟨_, rfl⟩

theorem readBlock_error (read : m.readBlock address length = .error cause) :
    cause = .outOfBounds address length ∧ ¬ m.Within address length := by
  by_cases within : m.Within address length
  · rw [readBlock, check_of_within within] at read
    cases read
  · rw [readBlock, check_of_not_within within] at read
    cases read
    exact ⟨rfl, within⟩

theorem readBlock_of_not_within (outside : ¬ m.Within address length) :
    m.readBlock address length = .error (.outOfBounds address length) := by
  rw [readBlock, check_of_not_within outside]
  rfl

theorem readBlock_ok {bytes : List UInt8}
    (read : m.readBlock address length = .ok bytes) : m.Within address length := by
  by_contra outside
  rw [readBlock_of_not_within outside] at read
  cases read

theorem readWord_of_within (within : m.Within address 2) :
    m.readWord address = .ok (UInt16.ofNat ((m.cells.getD address.toNat 0).toNat * 256 +
      (m.cells.getD (address.toNat + 1) 0).toNat)) := by
  rw [readWord, check_of_within within]
  rfl

theorem readWord_of_not_within (outside : ¬ m.Within address 2) :
    m.readWord address = .error (.outOfBounds address 2) := by
  rw [readWord, check_of_not_within outside]
  rfl

theorem readWord_ok {word : UInt16} (read : m.readWord address = .ok word) :
    m.Within address 2 := by
  by_contra outside
  rw [readWord, check_of_not_within outside] at read
  cases read

theorem readWord_error (read : m.readWord address = .error cause) :
    cause = .outOfBounds address 2 ∧ ¬ m.Within address 2 := by
  by_cases within : m.Within address 2
  · rw [readWord, check_of_within within] at read
    cases read
  · rw [readWord, check_of_not_within within] at read
    cases read
    exact ⟨rfl, within⟩

theorem get?_eq_some_iff {b : UInt8} :
    m.get? address = some b ↔ 0 ≤ address ∧ m.cells[address.toNat]? = some b := by
  unfold get?
  split
  · simp
    omega
  · simp
    omega

theorem read_ok {b : UInt8} (read : m.read address = .ok b) :
    m.Within address 1 ∧ m.get? address = some b := by
  by_cases within : m.Within address 1
  · obtain ⟨low, -, fits⟩ := within
    have inside : address.toNat < m.cells.size := by
      have size : (m.cells.size : Int) = m.size := rfl
      omega
    rw [Memory.read, check_of_within ⟨low, by decide, fits⟩] at read
    cases read
    refine ⟨⟨low, by decide, fits⟩, get?_eq_some_iff.mpr ⟨low, ?_⟩⟩
    simp [inside]
  · rw [Memory.read, check_of_not_within within] at read
    cases read

theorem read_error (read : m.read address = .error cause) :
    cause = .outOfBounds address 1 ∧ ¬ m.Within address 1 := by
  by_cases within : m.Within address 1
  · rw [Memory.read, check_of_within within] at read
    cases read
  · rw [Memory.read, check_of_not_within within] at read
    cases read
    exact ⟨rfl, within⟩

theorem getElem?_readBlock {bytes : List UInt8} (read : m.readBlock address length = .ok bytes)
    {k : Nat} (inside : k < bytes.length) : bytes[k]? = m.get? (address + k) := by
  by_cases within : m.Within address length
  · rw [readBlock, check_of_within within] at read
    cases read
    obtain ⟨nonneg, -, -⟩ := within
    have place : (address + k).toNat = address.toNat + k := by omega
    rw [Array.length_toList, Array.size_extract] at inside
    rw [get?, if_neg (by omega), place, Array.getElem?_toList, Array.getElem?_extract,
      if_pos inside]
  · rw [readBlock, check_of_not_within within] at read
    cases read

theorem readWord_eq_ok_iff {word : UInt16} :
    m.readWord address = .ok word ↔
      ∃ high low, m.get? address = some high ∧ m.get? (address + 1) = some low ∧
        word.toNat = high.toNat * 256 + low.toNat := by
  have joined (high low : UInt8) :
      (UInt16.ofNat (high.toNat * 256 + low.toNat)).toNat = high.toNat * 256 + low.toNat := by
    have bound := high.toNat_lt
    have bound' := low.toNat_lt
    rw [UInt16.toNat_ofNat']
    omega
  have size_eq : (m.cells.size : Int) = m.size := rfl
  constructor
  · intro read
    obtain ⟨nonneg, -, fits⟩ := readWord_ok read
    rw [readWord_of_within ⟨nonneg, by decide, fits⟩] at read
    cases read
    have next : (address + 1).toNat = address.toNat + 1 := by omega
    have inside : address.toNat + 1 < m.cells.size := by omega
    refine ⟨_, _, get?_eq_some_iff.mpr ⟨nonneg, ?_⟩, get?_eq_some_iff.mpr ⟨by omega, ?_⟩,
      joined _ _⟩
    · simp [Nat.lt_of_succ_lt inside]
    · simp [next, inside]
  · rintro ⟨high, low, first, second, value⟩
    rw [get?_eq_some_iff] at first second
    obtain ⟨nonneg, first⟩ := first
    have next : (address + 1).toNat = address.toNat + 1 := by omega
    rw [next] at second
    obtain ⟨inside, -⟩ := Array.getElem?_eq_some_iff.mp second.2
    have within : m.Within address 2 := ⟨nonneg, by decide, by omega⟩
    rw [readWord_of_within within, Array.getD_eq_getD_getElem?, Array.getD_eq_getD_getElem?,
      first, second.2]
    exact congrArg Except.ok (UInt16.toNat.inj ((joined high low).trans value.symm))

theorem placing_of_long {program : List UInt8} {offset : Int}
    (long : m.size < offset + program.length) :
    placing program offset m =
      .error (.programTooLong offset program.length (m.size - offset)) m :=
  bind_of_error (demand_of_not (by omega) _ m) _

theorem placing_of_fits {program : List UInt8} {offset : Int}
    (fits : offset + program.length ≤ m.size) :
    placing program offset m = storing offset program m :=
  bind_of_ok (demand_of fits _ m) _

theorem place_of_fits {program : List UInt8} {offset : Nat}
    (fits : offset + program.length ≤ m.size) :
    m.place program offset = .ok (m.withBlock offset program) := by
  have within : m.Within offset program.length := ⟨by omega, by omega, by omega⟩
  rw [Memory.place, settled, placing_of_fits (by omega), storing_of_within within]
  rfl

theorem place_of_long {program : List UInt8} {offset : Nat}
    (long : m.size < offset + program.length) :
    m.place program offset =
      .error (.programTooLong offset program.length (m.size - offset)) := by
  rw [Memory.place, settled, placing_of_long (by omega)]
  rfl

theorem size_place {program : List UInt8} {offset : Int}
    (place : m.place program offset = .ok m') : m'.size = m.size := by
  by_cases fits : offset + program.length ≤ m.size
  · rw [Memory.place, settled, placing_of_fits fits] at place
    exact size_store place
  · rw [Memory.place, settled, placing_of_long (by omega)] at place
    cases place

end Chip8.Memory
