import Mathlib.Data.Int.ModEq
import Chip8.Proofs.Failure
import Chip8.Proofs.Sprite

set_option autoImplicit false
set_option relaxedAutoImplicit false

namespace Chip8

namespace Display

variable {width height column line : Nat}

private theorem wrap_inj {length a b : Nat} {start : Int} (inside : a < length)
    (inside' : b < length)
    (same : (start + a) % length = (start + b) % length) : a = b := by
  have congruent : (a : Int) ≡ b [ZMOD length] := Int.ModEq.add_left_cancel' start same
  have equal : (a : Int) = b := by
    rw [← Int.emod_eq_of_lt (Int.natCast_nonneg a) (Int.ofNat_lt.mpr inside), congruent,
      Int.emod_eq_of_lt (Int.natCast_nonneg b) (Int.ofNat_lt.mpr inside')]
  exact Int.ofNat_inj.mp equal

/-- A sprite that fits the display hits no pixel twice. -/
theorem hits_le_one {rows : List Int} (wide : 8 ≤ width) (tall : rows.length ≤ height) (x y : Int)
    (clip : Bool) (column line : Nat) : hits width height x y rows clip column line ≤ 1 := by
  rw [hits, Finset.card_le_one]
  intro q mem q' mem'
  obtain ⟨-, place⟩ := (Finset.mem_filter.mp mem).2
  obtain ⟨-, place'⟩ := (Finset.mem_filter.mp mem').2
  have bound := q.2.isLt
  have bound' := q'.2.isLt
  cases clip with
  | true =>
    rw [if_pos rfl] at place place'
    refine Prod.ext (Fin.ext ?_) (Fin.ext ?_) <;> omega
  | false =>
    rw [if_neg Bool.false_ne_true] at place place'
    refine Prod.ext (Fin.ext ?_) (Fin.ext ?_)
    · exact wrap_inj (q.1.isLt.trans_le tall) (q'.1.isLt.trans_le tall)
        (place.2.symm.trans place'.2)
    · exact wrap_inj (bound.trans_le wide) (bound'.trans_le wide) (place.1.symm.trans place'.1)

/-- Whether some set pixel of a sprite lands on a pixel of the display. -/
def Covered (width height : Nat) (x y : Int) (rows : List Int) (clip : Bool) (column line : Nat) :
    Prop :=
  ∃ q, Hits width height x y rows clip column line q

instance (width height : Nat) (x y : Int) (rows : List Int) (clip : Bool) (column line : Nat) :
    Decidable (Covered width height x y rows clip column line) :=
  inferInstanceAs (Decidable (∃ q, Hits width height x y rows clip column line q))

private theorem hits_pos_iff {x y : Int} {rows : List Int} {clip : Bool} :
    1 ≤ hits width height x y rows clip column line ↔
      Covered width height x y rows clip column line := by
  rw [hits, Nat.one_le_iff_ne_zero, Finset.card_ne_zero, Finset.filter_nonempty_iff]
  exact exists_congr fun q => and_iff_right (Finset.mem_univ q)

section Twice

variable (columns : 0 < width) (lines : 0 < height) (d : Display width height) (x y : Int)
  (rows : List Int) (clip : Bool)

include columns lines

private theorem lit_draw_draw (column line : Nat) :
    ((d.draw x y rows clip).1.draw x y rows clip).1.lit column line = d.lit column line := by
  by_cases inside : column < width ∧ line < height
  · obtain ⟨inside, inside'⟩ := inside
    rw [lit_draw columns lines _ x y rows clip inside inside',
      lit_draw columns lines d x y rows clip inside inside', Bool.xor_assoc, Bool.xor_self,
      Bool.xor_false]
  · have dark (d : Display width height) : d.lit column line = false := by
      unfold lit
      grind
    rw [dark, dark]

variable (wide : 8 ≤ width) (tall : rows.length ≤ height)

include wide tall

private theorem draw_hit_iff_covered :
    (d.draw x y rows clip).2 = true ↔ ∃ column < width, ∃ line < height,
      Covered width height x y rows clip column line ∧ d.lit column line = true := by
  rw [draw_hit_iff columns lines]
  simp only [← hits_pos_iff]
  have once := hits_le_one wide tall x y clip
  constructor
  · rintro ⟨column, inside, line, inside', covered | twice⟩
    · exact ⟨column, inside, line, inside', covered⟩
    · exact absurd twice (Nat.not_le.mpr (Nat.lt_succ_of_le (once column line)))
  · rintro ⟨column, inside, line, inside', covered⟩
    exact ⟨column, inside, line, inside', .inl covered⟩

/-- A second drawing puts out what the first one has lit. -/
theorem redraw_hit_iff_covered :
    ((d.draw x y rows clip).1.draw x y rows clip).2 = true ↔
      ∃ column < width, ∃ line < height,
        Covered width height x y rows clip column line ∧ d.lit column line = false := by
  rw [draw_hit_iff_covered columns lines _ x y rows clip wide tall]
  refine exists_congr fun column => and_congr_right fun inside =>
    exists_congr fun line => and_congr_right fun inside' => and_congr_right fun covered => ?_
  have one : hits width height x y rows clip column line = 1 :=
    Nat.le_antisymm (hits_le_one wide tall x y clip column line) (hits_pos_iff.mpr covered)
  rw [lit_draw columns lines d x y rows clip inside inside', one]
  simp

end Twice

end Display

namespace Machine

open Instruction (Fits decode)

variable {m : Machine} {w : UInt16}

def sprite (m : Machine) (w : UInt16) : List Int :=
  (List.range (w.toNat % 16)).map fun r : Nat =>
    (((m.memory.get? (m.regs.index + r)).getD 0).toNat : Int)

def drawing (m : Machine) (w : UInt16) : Display displayWidth displayHeight × Bool :=
  m.display.draw (m.v (decode w.toNat).x).toNat (m.v (decode w.toNat).y).toNat (m.sprite w)
    m.dialect.clipSprites

def Covers (m : Machine) (w : UInt16) (column line : Nat) : Prop :=
  Display.Covered displayWidth displayHeight (m.v (decode w.toNat).x).toNat
    (m.v (decode w.toNat).y).toNat (m.sprite w) m.dialect.clipSprites column line

instance (m : Machine) (w : UInt16) (column line : Nat) : Decidable (m.Covers w column line) :=
  inferInstanceAs (Decidable (Display.Covered _ _ _ _ _ _ _ _))

private theorem length_sprite (m : Machine) (w : UInt16) : (m.sprite w).length = w.toNat % 16 := by
  rw [sprite, List.length_map, List.length_range]

private theorem sprite_of_read {bytes : List UInt8}
    (read : m.memory.readBlock m.regs.index (decode w.toNat).n = .ok bytes) :
    (bytes.map fun b => (b.toNat : Int)) = m.sprite w := by
  have total : bytes.length = w.toNat % 16 := by
    have length := Memory.length_readBlock read
    rw [Instruction.n_decode] at length
    exact Int.ofNat_inj.mp length
  refine List.ext_getElem ?_ fun r inside inside' => ?_
  · rw [List.length_map, length_sprite, total]
  · rw [List.length_map] at inside
    have byte := Memory.getElem?_readBlock read inside
    rw [List.getElem?_eq_getElem inside] at byte
    simp only [sprite, List.getElem_map, List.getElem_range, ← byte, Option.getD_some]

def afterDraw (m : Machine) (w : UInt16) : Machine :=
  ({ m.past with display := (m.drawing w).1 }.setFlag (m.drawing w).2).goOn

private theorem step_of_sprite (holds : m.Holds w) (op : (decode w.toNat).opcode = .draw)
    (within : m.memory.Within m.regs.index (decode w.toNat).n) :
    m.step = (m.afterDraw w, .ok (decode w.toNat)) := by
  obtain ⟨bytes, read⟩ := Memory.readBlock_of_within within
  have granted : m.past.memory.readBlock m.past.regs.index (decode w.toNat).n = .ok bytes := read
  have run : (perform (decode w.toNat)).run m.past =
      .ok ⟨⟩ ({ m.past with display := (m.drawing w).1 }.setFlag (m.drawing w).2) := by
    rw [perform, op, drawing, ← sprite_of_read read]
    dsimp only
    rw [drawSprite, EStateM.run_bind, run_ask, granted]
    rfl
  exact step_of_run (fetch_eq_ok_iff.mpr holds) run

private theorem v_afterDraw (m : Machine) (w : UInt16) (k : Fin 16) :
    (m.afterDraw w).v k =
      if k = Registers.flag then (if (m.drawing w).2 then 1 else 0) else m.v k :=
  v_setV { m.past with display := (m.drawing w).1 } Registers.flag k _

private theorem flag_afterDraw (m : Machine) (w : UInt16) :
    (m.afterDraw w).v Registers.flag = 1 ↔ (m.drawing w).2 = true := by
  rw [v_afterDraw, if_pos rfl]
  cases (m.drawing w).2 <;> decide

private theorem drawing_afterDraw (column : (decode w.toNat).x ≠ Registers.flag)
    (line : (decode w.toNat).y ≠ Registers.flag) :
    (m.afterDraw w).drawing w =
      (m.drawing w).1.draw (m.v (decode w.toNat).x).toNat (m.v (decode w.toNat).y).toNat
        (m.sprite w) m.dialect.clipSprites := by
  rw [drawing, v_afterDraw, v_afterDraw, if_neg column, if_neg line]
  rfl

/-- A word that draws a sprite, carried out twice in a row, leaves the picture as it found it. The
first drawing sets the flag if the sprite covers a pixel that was lit, the second if it covers one
that was not. -/
theorem second_drawing_erases {s : Settings} (reached : Reached s m) (holds : m.Holds w)
    (again : m.past.Holds w) (fits : Fits "DXYN" w.toNat) (column : (decode w.toNat).x ≠ 15)
    (line : (decode w.toNat).y ≠ 15) (inside : m.regs.index + (w.toNat % 16 : Nat) ≤ 4096) :
    ∃ m₁ m₂, m.step = (m₁, .ok (decode w.toNat)) ∧ m₁.step = (m₂, .ok (decode w.toNat)) ∧
      (∀ column line, m₂.display.lit column line = m.display.lit column line) ∧
      (m₁.v 15 = 1 ↔ ∃ column < displayWidth, ∃ line < displayHeight,
        m.Covers w column line ∧ m.display.lit column line = true) ∧
      (m₂.v 15 = 1 ↔ ∃ column < displayWidth, ∃ line < displayHeight,
        m.Covers w column line ∧ m.display.lit column line = false) := by
  have op : (decode w.toNat).opcode = .draw :=
    (Instruction.opcode_eq_iff (by decide) (by decide) w).mpr fits
  have sound := reached.sound
  have within : m.memory.Within m.regs.index (decode w.toNat).n := by
    have size : (m.memory.size : Int) = 4096 := by rw [sound.size]; rfl
    rw [Instruction.n_decode]
    exact ⟨sound.index.1, Int.natCast_nonneg _, inside.trans_eq size.symm⟩
  have few : (m.sprite w).length ≤ displayHeight := by
    rw [length_sprite]
    exact (Nat.le_of_lt (Nat.mod_lt _ (by decide))).trans (by decide : 16 ≤ displayHeight)
  have second : (m.afterDraw w).step = ((m.afterDraw w).afterDraw w, .ok (decode w.toNat)) :=
    step_of_sprite again op within
  have redrawn := drawing_afterDraw (m := m) column line
  refine ⟨m.afterDraw w, (m.afterDraw w).afterDraw w, step_of_sprite holds op within, second,
    ?_, ?_, ?_⟩
  · intro column line
    change ((m.afterDraw w).drawing w).1.lit column line = _
    rw [redrawn]
    exact Display.lit_draw_draw (by decide) (by decide) _ _ _ _ _ column line
  · refine (flag_afterDraw m w).trans ?_
    exact Display.draw_hit_iff_covered (by decide) (by decide) _ _ _ _ _ (by decide) few
  · refine (flag_afterDraw (m.afterDraw w) w).trans ?_
    rw [redrawn]
    exact Display.redraw_hit_iff_covered (by decide) (by decide) _ _ _ _ _ (by decide) few

/-- A machine that has drawn a zero across a corner of the display and is about to draw a one over
it twice. -/
def beforeRedraw : Machine :=
  (loaded [0x60, 0x3E, 0x61, 0x1E, 0xD0, 0x15, 0xA0, 0x05, 0xD0, 0x15, 0xD0, 0x15]).after
    [.step, .step, .step, .step]

set_option maxRecDepth 20000 in
theorem one_over_zero_erased :
    ∃ m₁ m₂, beforeRedraw.step = (m₁, .ok (decode 0xD015)) ∧
      m₁.step = (m₂, .ok (decode 0xD015)) ∧ m₁.v 15 = 1 ∧ m₂.v 15 = 1 ∧
      ∀ column line, m₂.display.lit column line = beforeRedraw.display.lit column line := by
  have reached : Reached .default beforeRedraw := (reached_loaded _).after _
  have holds : beforeRedraw.Holds 0xD015 := ⟨0xD0, 0x15, rfl, rfl, rfl⟩
  have again : beforeRedraw.past.Holds 0xD015 := ⟨0xD0, 0x15, rfl, rfl, rfl⟩
  obtain ⟨m₁, m₂, first, second, restored, flag, flag'⟩ :=
    second_drawing_erases reached holds again (by decide +kernel) (by decide +kernel)
      (by decide +kernel) (by decide +kernel)
  -- the top row of the one meets the zero, the row below it falls into its gap
  have places : (beforeRedraw.Covers 0xD015 0 30 ∧ beforeRedraw.display.lit 0 30 = true) ∧
      beforeRedraw.Covers 0xD015 0 31 ∧ beforeRedraw.display.lit 0 31 = false := by
    decide +kernel
  obtain ⟨lit, dark⟩ := places
  exact ⟨m₁, m₂, first, second, flag.mpr ⟨0, by decide, 30, by decide, lit⟩,
    flag'.mpr ⟨0, by decide, 31, by decide, dark⟩, restored⟩

end Machine

end Chip8
