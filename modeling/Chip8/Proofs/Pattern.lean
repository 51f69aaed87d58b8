import Mathlib.Data.List.Forall2
import Mathlib.Tactic.Common
import Chip8.Instruction

set_option autoImplicit false
set_option relaxedAutoImplicit false

namespace Chip8.Instruction

/-- Whether a character of a pattern stands for a digit: `X`, `Y` and `N` stand for any, every other
character for the digit that it writes. -/
def standsFor (c : Char) (d : Fin 16) : Bool :=
  c ∈ ['X', 'Y', 'N'] || c == (Nat.digitChar d).toUpper

def digitAt (w place : Nat) : Fin 16 := ⟨(w >>> (4 * place)) % 16, Nat.mod_lt _ (by decide)⟩

def digits (w : Nat) : List (Fin 16) := [3, 2, 1, 0].map (digitAt w)

/-- Whether the characters of a pattern stand for the four digits of a word. -/
def Fits (pattern : String) (w : Nat) : Prop :=
  List.Forall₂ (fun c d => standsFor c d = true) pattern.toList (digits w)

instance (pattern : String) (w : Nat) : Decidable (Fits pattern w) :=
  inferInstanceAs (Decidable (List.Forall₂ _ _ _))

private theorem digitAt_and (a b place : Nat) :
    (digitAt (a &&& b) place).val = (digitAt a place).val &&& (digitAt b place).val := by
  simp only [digitAt, Nat.shiftRight_and_distrib]
  exact Nat.and_mod_two_pow (n := 4)

private theorem eq_iff_digitAt {a b : Nat} (ha : a < 65536) (hb : b < 65536) :
    a = b ↔ ∀ place ∈ [3, 2, 1, 0], (digitAt a place).val = (digitAt b place).val := by
  constructor
  · rintro rfl place -
    rfl
  · intro same
    simp only [List.mem_cons, List.not_mem_nil, or_false, forall_eq_or_imp, forall_eq,
      digitAt] at same
    omega

namespace Table

/-- An entry agrees with the pattern of its operation on every digit at every place. -/
def Entry.Agrees (e : Entry) : Prop :=
  e.mask < 65536 ∧ e.bits < 65536 ∧
    List.Forall₂
      (fun c (place : Nat) => ∀ d : Fin 16,
        d.val &&& (digitAt e.mask place).val = (digitAt e.bits place).val ↔ standsFor c d = true)
      e.opcode.pattern.toList [3, 2, 1, 0]

instance (e : Entry) : Decidable e.Agrees := inferInstanceAs (Decidable (_ ∧ _))

theorem entries_agree : ∀ e ∈ entries, e.Agrees := by decide +kernel

private theorem Entry.covers_iff (e : Entry) (w : Nat) :
    e.covers w = true ↔ w &&& e.mask = e.bits := by
  simp [Entry.covers, masked]

theorem Entry.Agrees.covers_iff_fits {e : Entry} (agrees : e.Agrees) (w : Nat) :
    e.covers w = true ↔ Fits e.opcode.pattern w := by
  obtain ⟨mask, bits, places⟩ := agrees
  have small : w &&& e.mask < 65536 := Nat.lt_of_le_of_lt Nat.and_le_right mask
  rw [e.covers_iff, eq_iff_digitAt small bits, Fits, digits, List.forall₂_map_right_iff]
  simp only [digitAt_and]
  generalize e.opcode.pattern.toList = cs, [3, 2, 1, 0] = order at places ⊢
  induction places with
  | nil => simp
  | cons agree _ ih =>
    rw [List.forall_mem_cons, List.forall₂_cons]
    exact and_congr (agree _) ih

/-- Two entries that cover a word in common agree on the bits that both look at. -/
def Entry.Overlaps (e e' : Entry) : Prop := e.bits &&& e'.mask = e'.bits &&& e.mask

instance (e e' : Entry) : Decidable (e.Overlaps e') := inferInstanceAs (Decidable (_ = _))

theorem Entry.overlaps_of_covers {e e' : Entry} {w : Nat} (covers : e.covers w = true)
    (covers' : e'.covers w = true) : e.Overlaps e' := by
  rw [Entry.covers_iff] at covers covers'
  rw [Entry.Overlaps, ← covers, ← covers']
  rw [Nat.and_assoc, Nat.and_assoc, Nat.and_comm e.mask]

/-- Only the entry for `0NNN` overlaps an entry above it. -/
theorem entries_overlap :
    entries.Pairwise fun e e' => e.Overlaps e' → e'.opcode = .sys := by decide +kernel

private theorem exists_entry {op : Opcode} (known : op ≠ .unknown) :
    ∃ e ∈ entries, e.opcode = op := by
  cases op <;> first | exact absurd rfl known | decide

theorem entry_known : ∀ e ∈ entries, e.opcode ≠ .unknown := by decide

theorem covers_of_lookup {table : List Entry} {w : Int} (known : lookup table w ≠ .unknown) :
    ∃ e ∈ table, e.covers w = true ∧ e.opcode = lookup table w := by
  induction table with
  | nil => exact absurd rfl known
  | cons e rest ih =>
    rw [lookup] at known ⊢
    split
    · rename_i covers
      exact ⟨e, List.mem_cons_self, covers, rfl⟩
    · rename_i uncovered
      rw [if_neg uncovered] at known
      obtain ⟨e', mem, found⟩ := ih known
      exact ⟨e', List.mem_cons_of_mem e mem, found⟩

theorem lookup_known {table : List Entry} {e : Entry} {w : Int}
    (known : ∀ e ∈ table, e.opcode ≠ .unknown) (mem : e ∈ table) (covers : e.covers w = true) :
    lookup table w ≠ .unknown := by
  induction table with
  | nil => cases mem
  | cons first rest ih =>
    obtain ⟨known_first, known_rest⟩ := List.forall_mem_cons.mp known
    rw [lookup]
    split
    · exact known_first
    · rename_i uncovered
      rcases List.mem_cons.mp mem with rfl | mem
      · exact absurd covers uncovered
      · exact ih known_rest mem

/-- An entry that covers a word gives it its operation, unless that is `0NNN`: nothing above the
entry covers the word as well. -/
theorem lookup_of_covers {table : List Entry} {e : Entry} {w : Nat}
    (apart : table.Pairwise fun e e' => e.Overlaps e' → e'.opcode = .sys) (mem : e ∈ table)
    (covers : e.covers w = true) (plain : e.opcode ≠ .sys) : lookup table w = e.opcode := by
  induction table with
  | nil => cases mem
  | cons first rest ih =>
    obtain ⟨above, below⟩ := List.pairwise_cons.mp apart
    rw [lookup]
    split
    · rename_i covers'
      rcases List.mem_cons.mp mem with rfl | mem
      · rfl
      · exact absurd (above e mem (Entry.overlaps_of_covers covers' covers)) plain
    · rename_i uncovered
      rcases List.mem_cons.mp mem with rfl | mem
      · exact absurd covers uncovered
      · exact ih below mem

end Table

open Table

theorem word_decode (w : UInt16) : (decode w.toNat).word = w := by
  have small : (w.toNat : Int) % 2 ^ 16 = w.toNat := by
    have bound := w.toNat_lt
    omega
  rw [decode, UInt16.ofInt, small, Int.toNat_natCast, UInt16.ofNat_toNat]

theorem n_decode (w : UInt16) : (decode w.toNat).n = w.toNat % 16 :=
  congrArg (fun word : UInt16 => word.toNat % 16) (word_decode w)

theorem x_decode (w : UInt16) : (decode w.toNat).x.val = w.toNat / 256 % 16 :=
  congrArg (fun word : UInt16 => word.toNat / 256 % 16) (word_decode w)

theorem opcode_decode (w : UInt16) : (decode w.toNat).opcode = Opcode.ofWord w.toNat :=
  congrArg (fun word : UInt16 => Opcode.ofWord word.toNat) (word_decode w)

theorem fits_of_known {w : UInt16} (known : (decode w.toNat).opcode ≠ .unknown) :
    Fits (decode w.toNat).opcode.pattern w.toNat := by
  rw [opcode_decode, Opcode.ofWord] at known ⊢
  obtain ⟨e, mem, covers, op⟩ := covers_of_lookup known
  rw [← op]
  exact ((entries_agree e mem).covers_iff_fits w.toNat).mp covers

theorem covered_of_fits {op : Opcode} {w : Nat} (fits : Fits op.pattern w) :
    ∃ e ∈ entries, e.opcode = op ∧ e.covers w = true := by
  have known : op ≠ .unknown := by
    rintro rfl
    -- its pattern has characters that stand for no digit
    have none : ∀ d : Fin 16, standsFor '?' d = false := by decide
    have first : standsFor '?' (digitAt w 3) = true := (List.forall₂_cons.mp fits).1
    rw [none] at first
    cases first
  obtain ⟨e, mem, rfl⟩ := exists_entry known
  exact ⟨e, mem, rfl, ((entries_agree e mem).covers_iff_fits w).mpr fits⟩

/-- A word has an operation other than `0NNN` exactly if the pattern of the operation fits it. -/
theorem opcode_eq_iff {op : Opcode} (known : op ≠ .unknown) (plain : op ≠ .sys) (w : UInt16) :
    (decode w.toNat).opcode = op ↔ Fits op.pattern w.toNat := by
  constructor
  · rintro rfl
    exact fits_of_known known
  · intro fits
    obtain ⟨e, mem, rfl, covers⟩ := covered_of_fits fits
    rw [opcode_decode]
    exact lookup_of_covers entries_overlap mem covers plain

theorem opcode_unknown_iff (w : UInt16) :
    (decode w.toNat).opcode = .unknown ↔ ∀ op : Opcode, ¬ Fits op.pattern w.toNat := by
  constructor
  · intro unknown op fits
    obtain ⟨e, mem, -, covers⟩ := covered_of_fits fits
    rw [opcode_decode, Opcode.ofWord] at unknown
    exact lookup_known entry_known mem covers unknown
  · intro unfit
    by_contra known
    exact unfit _ (fits_of_known known)

end Chip8.Instruction
