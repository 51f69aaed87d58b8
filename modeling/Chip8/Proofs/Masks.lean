import Mathlib.Data.Int.Bitwise
import Mathlib.Data.List.Pairwise
import Chip8.Proofs.Pattern

/-!
The table of masks on any whole number. The masks look at no bit above the low sixteen, and of two
patterns that fit one word the one is `0NNN` and the other a full-width pattern. So any table of the
same entries that has the full-width ones above the one for `0NNN` gives the same operations.
-/

set_option autoImplicit false
set_option relaxedAutoImplicit false

namespace Chip8

/-- The two operations whose patterns leave no digit open. -/
def Opcode.FullWidth (op : Opcode) : Prop := op = clearScreen ∨ op = ret

instance (op : Opcode) : Decidable op.FullWidth := inferInstanceAs (Decidable (_ ∨ _))

namespace Instruction

def lowWord (w : Int) : Nat := (w % 65536).toNat

theorem lowWord_cast (w : Int) : (lowWord w : Int) = w % 65536 :=
  Int.toNat_of_nonneg (Int.emod_nonneg w (by decide))

theorem lowWord_lt (w : Int) : lowWord w < 65536 := by
  have cast := lowWord_cast w
  omega

private theorem testBit_natCast_lowWord (w : Int) (k : Nat) :
    (lowWord w : Int).testBit k = (decide (k < 16) && w.testBit k) := by
  cases w with
  | ofNat n => exact Nat.testBit_mod_two_pow n 16 k
  | negSucc n =>
    -- its low word is as far below the highest one as `n` is above zero
    have low : lowWord (Int.negSucc n) = 2 ^ 16 - (n % 2 ^ 16 + 1) := by
      have cast := lowWord_cast (Int.negSucc n)
      rw [Int.negSucc_emod n (by decide)] at cast
      omega
    have below : n % 2 ^ 16 < 2 ^ 16 := Nat.mod_lt n (by decide)
    change (lowWord (Int.negSucc n)).testBit k = (decide (k < 16) && !n.testBit k)
    rw [low, Nat.testBit_two_pow_sub_succ below, Nat.testBit_mod_two_pow]
    cases decide (k < 16) <;> rfl

namespace Table

private theorem testBit_masked (mask : Nat) (w : Int) (k : Nat) :
    (masked mask w).testBit k = (mask.testBit k && w.testBit k) := by
  cases w with
  | ofNat n => exact (Nat.testBit_and n mask k).trans (Bool.and_comm _ _)
  | negSucc n =>
    change (mask ^^^ (n &&& mask)).testBit k = (mask.testBit k && !n.testBit k)
    rw [Nat.testBit_xor, Nat.testBit_and]
    cases mask.testBit k <;> cases n.testBit k <;> rfl

/-- The bits under a mask are those of endless two's complement. -/
theorem masked_eq_land (mask : Nat) (w : Int) : (masked mask w : Int) = Int.land w mask := by
  cases w with
  | ofNat n => rfl
  | negSucc n =>
    have bits : masked mask (Int.negSucc n) = Nat.ldiff mask n := by
      apply Nat.eq_of_testBit_eq
      intro k
      rw [testBit_masked, Nat.testBit_ldiff]
      rfl
    exact congrArg Nat.cast bits

theorem masked_lowWord {mask : Nat} (narrow : mask < 65536) (w : Int) :
    masked mask w = masked mask (lowWord w) := by
  apply Nat.eq_of_testBit_eq
  intro k
  rw [testBit_masked, testBit_masked, testBit_natCast_lowWord]
  by_cases low : k < 16
  · simp [low]
  · have wide : 2 ^ 16 ≤ 2 ^ k := Nat.pow_le_pow_right (by decide) (by omega)
    have beyond : mask.testBit k = false :=
      Nat.testBit_lt_two_pow (Nat.lt_of_lt_of_le narrow wide)
    rw [beyond, Bool.false_and, Bool.false_and]

private theorem Entry.covers_iff_land (e : Entry) (w : Int) :
    e.covers w = true ↔ Int.land w e.mask = e.bits := by
  rw [Entry.covers, beq_iff_eq, ← masked_eq_land, Int.natCast_inj]

private theorem lookup_lowWord {table : List Entry} (narrow : ∀ e ∈ table, e.mask < 65536)
    (w : Int) :
    lookup table w = lookup table (lowWord w) := by
  induction table with
  | nil => rfl
  | cons e rest ih =>
    obtain ⟨first, others⟩ := List.forall_mem_cons.mp narrow
    rw [lookup, lookup, Entry.covers, Entry.covers, masked_lowWord first, ih others]

section Lookup

variable {table : List Entry} {w : Nat}

private theorem lookup_eq_unknown_iff (known : ∀ e ∈ table, e.opcode ≠ .unknown) :
    lookup table w = .unknown ↔ ∀ e ∈ table, ¬ e.covers w = true := by
  constructor
  · intro unknown e mem covers
    exact lookup_known known mem covers unknown
  · intro uncovered
    by_contra found
    obtain ⟨e, mem, covers, -⟩ := covers_of_lookup found
    exact uncovered e mem covers

/-- An operation is found exactly if an entry for it covers the word and, should it be `0NNN`, no
entry for another one does. The order of the table is gone from this. -/
theorem lookup_eq_iff (known : ∀ e ∈ table, e.opcode ≠ .unknown)
    (apart : table.Pairwise fun e e' => e.Overlaps e' → e'.opcode = .sys) {op : Opcode}
    (some_op : op ≠ .unknown) :
    lookup table w = op ↔
      (∃ e ∈ table, e.opcode = op ∧ e.covers w = true) ∧
        (op = .sys → ∀ e ∈ table, e.covers w = true → e.opcode = .sys) := by
  constructor
  · rintro rfl
    obtain ⟨e, mem, covers, found⟩ := covers_of_lookup some_op
    refine ⟨⟨e, mem, found, covers⟩, fun sys e' mem' covers' => ?_⟩
    by_contra plain
    have other : lookup table w = e'.opcode := lookup_of_covers apart mem' covers' plain
    exact plain (other.symm.trans sys)
  · rintro ⟨⟨e, mem, rfl, covers⟩, alone⟩
    by_cases plain : e.opcode = .sys
    · obtain ⟨e', mem', covers', found⟩ := covers_of_lookup (lookup_known known mem covers)
      rw [← found, plain]
      exact alone plain e' mem' covers'
    · exact lookup_of_covers apart mem covers plain

end Lookup

/-- Of two entries that overlap, one is for `0NNN` and the other for a full-width pattern. -/
def Entry.Nests (e e' : Entry) : Prop :=
  e.Overlaps e' →
    e.opcode.FullWidth ∧ e'.opcode = .sys ∨ e.opcode = .sys ∧ e'.opcode.FullWidth

instance (e e' : Entry) : Decidable (e.Nests e') := inferInstanceAs (Decidable (_ → _))

theorem Entry.Nests.symm {e e' : Entry} (nests : e.Nests e') : e'.Nests e := by
  intro overlap
  exact (nests overlap.symm).symm.imp And.symm And.symm

private theorem entries_nest : entries.Pairwise Entry.Nests := by decide +kernel

/-- The entries for the full-width patterns stand above the one for `0NNN`. -/
def FullWidthFirst (table : List Entry) : Prop :=
  table.Pairwise fun above below => above.opcode = .sys → ¬ below.opcode.FullWidth

instance (table : List Entry) : Decidable (FullWidthFirst table) :=
  inferInstanceAs (Decidable (List.Pairwise _ _))

theorem FullWidthFirst.apart {table : List Entry} (first : FullWidthFirst table)
    (perm : table.Perm entries) :
    table.Pairwise fun e e' => e.Overlaps e' → e'.opcode = .sys := by
  have nest : table.Pairwise Entry.Nests := (perm.pairwise_iff Entry.Nests.symm).mpr entries_nest
  refine List.Pairwise.imp₂ ?_ nest first
  intro above below nests ordered overlap
  rcases nests overlap with ⟨-, sys⟩ | ⟨sys, full⟩
  · exact sys
  · exact absurd full (ordered sys)

/-- Moving entries about changes no operation as long as the full-width ones stay first. -/
theorem lookup_perm {table : List Entry} (perm : table.Perm entries)
    (first : FullWidthFirst table) (w : Nat) : lookup table w = lookup entries w := by
  have known : ∀ e ∈ table, e.opcode ≠ .unknown := fun e mem => entry_known e (perm.mem_iff.mp mem)
  by_cases unknown : lookup entries w = .unknown
  · rw [unknown, lookup_eq_unknown_iff known]
    intro e mem
    exact (lookup_eq_unknown_iff entry_known).mp unknown e (perm.mem_iff.mp mem)
  · rw [lookup_eq_iff known (first.apart perm) unknown]
    simp only [perm.mem_iff]
    exact (lookup_eq_iff entry_known entries_overlap unknown).mp rfl

end Table

open Table

private theorem narrow_entries :
    ∀ e ∈ entries, e.mask < 65536 := fun e mem => (entries_agree e mem).1

private theorem ofWord_lowWord (w : Int) : Opcode.ofWord w = Opcode.ofWord (lowWord w) :=
  lookup_lowWord narrow_entries w

private theorem toNat_word_decode (w : Int) : (decode w).word.toNat = lowWord w := by
  have low : decode w = ⟨UInt16.ofNat (lowWord w), _⟩ := rfl
  rw [low, UInt16.toNat_ofNat', Nat.mod_eq_of_lt (lowWord_lt w)]

private theorem opcode_decode_lowWord (w : Int) : (decode w).opcode = Opcode.ofWord (lowWord w) :=
  congrArg (fun n : Nat => Opcode.ofWord n) (toNat_word_decode w)

section Fits

variable {op op' : Opcode} {w : Nat}

private theorem fits_iff_covered :
    Fits op.pattern w ↔ ∃ e ∈ entries, e.opcode = op ∧ e.covers w = true := by
  refine ⟨covered_of_fits, ?_⟩
  rintro ⟨e, mem, rfl, covers⟩
  exact ((entries_agree e mem).covers_iff_fits w).mp covers

private theorem fits_apart (fits : Fits op.pattern w) (fits' : Fits op'.pattern w) :
    op = op' ∨ (op.FullWidth ∧ op' = .sys) ∨ (op = .sys ∧ op'.FullWidth) := by
  obtain ⟨e, mem, rfl, covers⟩ := covered_of_fits fits
  obtain ⟨e', mem', rfl, covers'⟩ := covered_of_fits fits'
  by_cases same : e = e'
  · exact .inl (congrArg Entry.opcode same)
  · have : Std.Symm Entry.Nests := ⟨fun _ _ => Entry.Nests.symm⟩
    exact .inr (entries_nest.forall mem mem' same (Entry.overlaps_of_covers covers covers'))

/-- The pattern of an operation fits a word and, should it be `0NNN`, no full-width one does. -/
def Chosen (op : Opcode) (w : Nat) : Prop :=
  Fits op.pattern w ∧ (op = .sys → ∀ full : Opcode, full.FullWidth → ¬ Fits full.pattern w)

private theorem ofWord_eq_iff (known : op ≠ .unknown) : Opcode.ofWord w = op ↔ Chosen op w := by
  rw [Opcode.ofWord, lookup_eq_iff entry_known entries_overlap known, ← fits_iff_covered, Chosen]
  refine and_congr_right fun fits => forall_congr' fun sys => ?_
  subst sys
  constructor
  · rintro alone full wide fits'
    obtain ⟨e, mem, rfl, covers⟩ := covered_of_fits fits'
    rw [alone e mem covers] at wide
    exact absurd wide (by decide)
  · intro untaken e mem covers
    have fits' : Fits e.opcode.pattern w := fits_iff_covered.mpr ⟨e, mem, rfl, covers⟩
    rcases fits_apart fits' fits with same | ⟨wide, -⟩ | ⟨sys, -⟩
    · exact same
    · exact absurd fits' (untaken _ wide)
    · exact sys

end Fits

private theorem operands_eq_digits (i : Instruction) :
    (digits i.word.toNat).map Fin.val = [i.kind, i.x.val, i.y.val, i.n] ∧
      i.word.toNat = ((i.kind * 16 + i.x) * 16 + i.y) * 16 + i.n ∧
      i.nn.toNat = i.y * 16 + i.n ∧ i.nnn = (i.x * 16 + i.y) * 16 + i.n := by
  have bound := i.word.toNat_lt
  have low : i.nn.toNat = i.word.toNat % 256 := UInt16.toNat_toUInt8 i.word
  have highest : i.word.toNat / 4096 % 16 = i.kind := Nat.mod_eq_of_lt (by omega)
  refine ⟨?_, ?_, ?_, ?_⟩
  · simp only [digits, digitAt, List.map_cons, List.map_nil, Nat.shiftRight_eq_div_pow]
    rw [← highest]
    simp [x, y, n]
  all_goals
    simp only [kind, x, y, n, nnn] at *
    omega

private theorem decode_emod (w : Int) : decode (w % 65536) = decode w := by
  have low : lowWord (w % 65536) = lowWord w := congrArg Int.toNat (Int.emod_emod w 65536)
  have word : (decode (w % 65536)).word = (decode w).word := by
    rw [← UInt16.toNat_inj, toNat_word_decode, toNat_word_decode, low]
  exact congrArg (fun word => Instruction.mk word (Opcode.ofWord word.toNat)) word

/-- The masks mean what the patterns say. Of any whole number the low 16 bits decide. The operation
is the one whose pattern fits their four digits, where `00E0` and `00EE` come before `0NNN` and no
other two patterns fit the same digits; and the operands are those digits. -/
theorem masks_mean_patterns (w : Int) :
    Opcode.ofWord w = Opcode.ofWord (w % 65536) ∧ decode w = decode (w % 65536) ∧
      let i := decode w
      (i.word.toNat : Int) = w % 65536 ∧ i.opcode = Opcode.ofWord w ∧
        (∀ e : Entry, e.covers w = true ↔ Int.land w e.mask = e.bits) ∧
        (∀ op : Opcode, op ≠ .unknown → (Opcode.ofWord w = op ↔ Chosen op i.word.toNat)) ∧
        (Opcode.ofWord w = .unknown ↔ ∀ op : Opcode, ¬ Fits op.pattern i.word.toNat) ∧
        (∀ op op' : Opcode, Fits op.pattern i.word.toNat → Fits op'.pattern i.word.toNat →
          op = op' ∨ (op.FullWidth ∧ op' = .sys) ∨ (op = .sys ∧ op'.FullWidth)) ∧
        (∀ table : List Entry, table.Perm entries → FullWidthFirst table →
          lookup table w = Opcode.ofWord w) ∧
        (digits i.word.toNat).map Fin.val = [i.kind, i.x.val, i.y.val, i.n] ∧
        i.word.toNat = ((i.kind * 16 + i.x) * 16 + i.y) * 16 + i.n ∧
        i.nn.toNat = i.y * 16 + i.n ∧ i.nnn = (i.x * 16 + i.y) * 16 + i.n := by
  refine ⟨?_, (decode_emod w).symm, ?_⟩
  · rw [ofWord_lowWord, lowWord_cast]
  intro i
  have word : i.word.toNat = lowWord w := toNat_word_decode w
  have op : i.opcode = Opcode.ofWord w := (opcode_decode_lowWord w).trans (ofWord_lowWord w).symm
  refine ⟨?_, op, fun e => e.covers_iff_land w, fun op known => ?_, ?_, fun _ _ => fits_apart, ?_,
    operands_eq_digits i⟩
  · rw [word, lowWord_cast]
  · rw [ofWord_lowWord, word, ofWord_eq_iff known]
  · rw [ofWord_lowWord, ← word, ← opcode_decode]
    exact opcode_unknown_iff i.word
  · intro table perm first
    have narrow : ∀ e ∈ table, e.mask < 65536 := fun e mem => narrow_entries e (perm.mem_iff.mp mem)
    rw [lookup_lowWord narrow, lookup_perm perm first, ofWord_lowWord]
    rfl

theorem negative_word_clears :
    let table := (entries.drop 3).reverse ++ entries.take 3
    table.Perm entries ∧ FullWidthFirst table ∧ Chosen .clearScreen 0x00E0 ∧
      Fits Opcode.sys.pattern 0x00E0 ∧ Opcode.ofWord (-65312) = .clearScreen ∧
      lookup table (-65312) = .clearScreen := by
  intro table
  have perm : table.Perm entries := by decide +kernel
  have first : FullWidthFirst table := by decide +kernel
  have chosen : Chosen .clearScreen 0x00E0 := ⟨by decide +kernel, fun sys => by cases sys⟩
  obtain ⟨-, -, -, -, -, op, -, -, moved, -⟩ := masks_mean_patterns (-65312)
  have clears : Opcode.ofWord (-65312) = .clearScreen := (op .clearScreen (by decide)).mpr chosen
  exact ⟨perm, first, chosen, by decide +kernel, clears, (moved table perm first).trans clears⟩

end Instruction

end Chip8
