import Mathlib.Tactic.Ring
import Chip8.Window
import Chip8.Proofs.Display

set_option autoImplicit false
set_option relaxedAutoImplicit false

namespace Chip8

section Blocks

variable {α β : Type} {l : List α} {f : α → List β} {k : Nat}

private theorem length_flatMap_of_even (even : ∀ a ∈ l, (f a).length = k) :
    (l.flatMap f).length = l.length * k := by
  rw [List.length_flatMap, List.map_congr_left even, List.map_const', List.sum_replicate_nat]

private theorem getElem?_flatMap_of_even (even : ∀ a ∈ l, (f a).length = k) (i : Nat) {j : Nat}
    (inside : j < k) : (l.flatMap f)[i * k + j]? = l[i]?.bind fun a => (f a)[j]? := by
  induction l generalizing i with
  | nil => rfl
  | cons a l ih =>
    obtain ⟨first, others⟩ := List.forall_mem_cons.mp even
    rw [List.flatMap_cons]
    cases i with
    | zero =>
      rw [Nat.zero_mul, Nat.zero_add, List.getElem?_append_left (first.symm ▸ inside)]
      rfl
    | succ i =>
      have past : (i + 1) * k + j = (f a).length + (i * k + j) := by rw [first]; ring
      rw [past, List.getElem?_append_right (Nat.le_add_right _ _), Nat.add_sub_cancel_left,
        ih others]
      rfl

def enlarge (scale : Nat) (l : List α) : List α := l.flatMap (List.replicate scale)

private theorem length_enlarge (scale : Nat) (l : List α) :
    (enlarge scale l).length = l.length * scale :=
  length_flatMap_of_even fun _ _ => List.length_replicate

private theorem getElem?_enlarge {scale : Nat} {i : Nat} (inside : i < l.length * scale) :
    (enlarge scale l)[i]? = l[i / scale]? := by
  have positive : 0 < scale := Nat.pos_of_lt_mul_left inside
  have rest : i % scale < scale := Nat.mod_lt i positive
  have place : i / scale * scale + i % scale = i := Nat.div_add_mod' i scale
  calc (enlarge scale l)[i]?
    _ = (enlarge scale l)[i / scale * scale + i % scale]? := by rw [place]
    _ = l[i / scale]?.bind fun a => (List.replicate scale a)[i % scale]? :=
      getElem?_flatMap_of_even (fun _ _ => List.length_replicate) _ rest
    _ = l[i / scale]? := by
      simp only [List.getElem?_replicate_of_lt rest, Option.bind_fun_some]

end Blocks

namespace Picture

variable {width scale : Nat} {rows : List (List Bool)}

def pixelBytes (isLit : Bool) : List UInt8 := (pixel isLit).data.toList

def rowBytes (scale : Nat) (row : List Bool) : List UInt8 := (enlarge scale row).flatMap pixelBytes

private theorem toList_appendTimes (acc bytes : ByteArray) (n : Nat) :
    (appendTimes acc bytes n).data.toList =
      acc.data.toList ++ (List.replicate n bytes.data.toList).flatten := by
  induction n generalizing acc with
  | zero => exact (List.append_nil _).symm
  | succ n ih =>
    rw [appendTimes, ih, ByteArray.toList_data_append, List.replicate_succ, List.flatten_cons,
      List.append_assoc]

private theorem toList_appendRow (scale : Nat) (acc : ByteArray) (row : List Bool) :
    (appendRow scale acc row).data.toList = acc.data.toList ++ rowBytes scale row := by
  induction row generalizing acc with
  | nil => exact (List.append_nil _).symm
  | cons p row ih =>
    rw [appendRow, ih, toList_appendTimes, rowBytes, rowBytes, enlarge, enlarge, List.flatMap_cons,
      List.flatMap_append, List.flatMap_replicate, List.append_assoc]
    rfl

private theorem toList_appendRows (scale : Nat) (acc : ByteArray) (rows : List (List Bool)) :
    (appendRows scale acc rows).data.toList =
      acc.data.toList ++ (enlarge scale rows).flatMap (rowBytes scale) := by
  induction rows generalizing acc with
  | nil => exact (List.append_nil _).symm
  | cons row rows ih =>
    rw [appendRows, ih, toList_appendTimes, toList_appendRow, enlarge, enlarge, List.flatMap_cons,
      List.flatMap_append, List.flatMap_replicate, List.append_assoc]
    rfl

private theorem toList_render (rows : List (List Bool)) (scale : Nat) :
    (render rows scale).data.toList = (enlarge scale rows.reverse).flatMap (rowBytes scale) :=
  toList_appendRows scale .empty rows.reverse

private theorem length_pixelBytes (isLit : Bool) : (pixelBytes isLit).length = 4 := rfl

private theorem length_rowBytes (scale : Nat) (row : List Bool) :
    (rowBytes scale row).length = row.length * scale * 4 := by
  rw [rowBytes, length_flatMap_of_even fun p _ => length_pixelBytes p, length_enlarge]

private theorem length_rowBytes_of_mem (even : ∀ row ∈ rows, row.length = width) :
    ∀ row ∈ enlarge scale rows.reverse, (rowBytes scale row).length = width * scale * 4 := by
  intro row mem
  obtain ⟨row', listed, copies⟩ := List.mem_flatMap.mp mem
  obtain rfl := List.eq_of_mem_replicate copies
  rw [length_rowBytes, even row (List.mem_reverse.mp listed)]

private theorem size_render (even : ∀ row ∈ rows, row.length = width) :
    (render rows scale).size = 4 * width * rows.length * scale * scale := by
  calc (render rows scale).size
    _ = (render rows scale).data.toList.length := rfl
    _ = rows.reverse.length * scale * (width * scale * 4) := by
      rw [toList_render, length_flatMap_of_even (length_rowBytes_of_mem even), length_enlarge]
    _ = 4 * width * rows.length * scale * scale := by
      rw [List.length_reverse]
      ring

/-- Each byte of a picture is one of the pixel that it is drawn for. -/
theorem getElem?_render (even : ∀ row ∈ rows, row.length = width) {column line channel : Nat}
    (inside : column < width * scale) (inside' : line < rows.length * scale)
    (four : channel < 4) :
    (render rows scale).data[(line * width * scale + column) * 4 + channel]? =
      rows[rows.length - 1 - line / scale]?.bind fun row =>
        row[column / scale]?.bind fun p => (pixelBytes p)[channel]? := by
  have place : (line * width * scale + column) * 4 + channel =
      line * (width * scale * 4) + (column * 4 + channel) := by ring
  have above : line / scale < rows.length := Nat.div_lt_of_lt_mul (by rwa [Nat.mul_comm])
  have inRow : ∀ row ∈ rows, (rowBytes scale row)[column * 4 + channel]? =
      row[column / scale]?.bind fun p => (pixelBytes p)[channel]? := by
    intro row mem
    rw [rowBytes, getElem?_flatMap_of_even (fun p _ => length_pixelBytes p) _ four,
      getElem?_enlarge (by rwa [even row mem])]
  rw [← Array.getElem?_toList, toList_render, place,
    getElem?_flatMap_of_even (length_rowBytes_of_mem even) _ (by omega),
    getElem?_enlarge (by rwa [List.length_reverse]), List.getElem?_reverse above]
  cases found : rows[rows.length - 1 - line / scale]? with
  | none => rfl
  | some row => exact inRow row (List.mem_of_getElem? found)

private theorem getElem?_pixelBytes (isLit : Bool) {channel : Nat} (four : channel < 4) :
    (pixelBytes isLit)[channel]? =
      some (if channel = 3 then 255 else if isLit then 255 else 0) := by
  cases isLit
  all_goals
    revert channel
    decide

private theorem side_int (scale : Nat) : side (.int scale) = .ok scale := by
  simp [side, Json.number?]

end Picture

namespace Display

variable {width height : Nat} {d : Display width height} {x y : Nat}

private theorem length_rows (d : Display width height) : d.rows.length = height := by
  simp [rows]

private theorem length_of_mem_rows (d : Display width height) :
    ∀ row ∈ d.rows, row.length = width := by
  simp [rows]

private theorem getElem?_rows (inside : y < height) (d : Display width height) :
    d.rows[y]? = some ((List.range width).map fun x => d.lit x y) := by
  simp [rows, inside]

private theorem getElem?_row (inside : x < width) (d : Display width height) (y : Nat) :
    ((List.range width).map fun x => d.lit x y)[x]? = some (d.lit x y) := by
  simp [inside]

def lines (d : Display width height) : List (List Char) := d.render.toList.splitOn '\n'

private theorem lines_eq (tall : 0 < height) (d : Display width height) :
    d.lines = d.rows.map fun row => row.map mark := by
  have whole : d.render.toList = ['\n'].intercalate (d.rows.map fun row => row.map mark) := by
    have text (row : List Bool) : (String.ofList (row.map mark)).toList = row.map mark :=
      String.toList_ofList
    rw [render, String.toList_intercalate, List.map_map, Function.comp_def]
    simp only [text]
    rfl
  rw [lines, whole]
  refine List.splitOn_intercalate '\n' ?_ ?_
  · rw [List.forall_mem_map]
    intro row _ marked
    obtain ⟨p, -, newline⟩ := List.mem_map.mp marked
    cases p <;> cases newline
  · rw [← List.length_pos_iff, List.length_map, d.length_rows]
    exact tall

private theorem cellAt_eq_lit (inside : x < width) (inside' : y < height)
    (near : x + y * width < 2 ^ 63)
    (d : Display width height) : d.cellAt x y = .ok (d.lit x y) := by
  have place : (x : Int) + y * width = ((y * width + x : Nat) : Int) := by
    push_cast
    ring
  have cell := cell_lt inside inside'
  have named : position (width * height) (x + y * width) = .ok (y * width + x) := by
    rw [place, position, if_neg (by omega)]
    dsimp only
    rw [if_neg (Int.natCast_nonneg _).not_gt, if_neg (by omega), Int.toNat_natCast]
  rw [cellAt, named, lit, decide_eq_true inside, decide_eq_true inside']
  rfl

/-- All views of a display agree: the bytes of a picture at any scale, the bottom row first, the
characters of the text, and the pixels that a host sees. -/
theorem views_agree (tall : 0 < height) (d : Display width height) :
    (∀ scale : Nat, Picture.side (.int scale) = .ok scale ∧
      (Picture.render d.rows scale).size = 4 * width * height * scale * scale ∧
      ∀ column < width * scale, ∀ line < height * scale, ∀ channel < 4,
        (Picture.render d.rows scale).data[(line * width * scale + column) * 4 + channel]? =
          some (if channel = 3 then 255
            else if d.lit (column / scale) (height - 1 - line / scale) then 255 else 0)) ∧
    (d.lines.length = height ∧ ∀ y < height, ∃ text, d.lines[y]? = some text ∧
      text.length = width ∧ ∀ x < width, text[x]? = some (if d.lit x y then '#' else '.')) ∧
    ∀ x < width, ∀ y < height, x + y * width < 2 ^ 63 → d.cellAt x y = .ok (d.lit x y) := by
  have even := d.length_of_mem_rows
  refine ⟨fun scale => ⟨Picture.side_int scale, ?_, ?_⟩, ⟨?_, ?_⟩, ?_⟩
  · rw [Picture.size_render even, d.length_rows]
  · intro column inside line inside' channel four
    have wide : column / scale < width := Nat.div_lt_of_lt_mul (by rwa [Nat.mul_comm])
    have below : height - 1 - line / scale < height :=
      (Nat.sub_le _ _).trans_lt (Nat.sub_one_lt_of_lt tall)
    rw [Picture.getElem?_render even inside (by rwa [d.length_rows]) four, d.length_rows,
      getElem?_rows below, Option.bind_some, getElem?_row wide, Option.bind_some,
      Picture.getElem?_pixelBytes _ four]
  · rw [lines_eq tall, List.length_map, d.length_rows]
  · intro y inside
    rw [lines_eq tall, List.getElem?_map, getElem?_rows inside]
    refine ⟨_, rfl, by simp, fun x inside => ?_⟩
    rw [List.getElem?_map, getElem?_row inside]
    rfl
  · exact fun x inside y inside' near => cellAt_eq_lit inside inside' near d

/-- Three columns and two rows: the first pixel of the upper row is lit, and the others of the lower
one. -/
def corners : Display 3 2 := ⟨#v[true, false, false, false, true, true], true⟩

theorem corners_agree :
    0 < 2 ∧ (Picture.render corners.rows 2).size = 96 ∧
      (Picture.render corners.rows 2).data[0]? = some 0 ∧
      (Picture.render corners.rows 2).data[16]? = some 255 ∧
      (Picture.render corners.rows 2).data[48]? = some 255 ∧
      (∃ text, corners.lines[1]? = some text ∧ text[2]? = some '#') ∧
      corners.cellAt 0 0 = .ok true := by
  obtain ⟨pictures, ⟨-, lines⟩, pixels⟩ := views_agree (by decide) corners
  obtain ⟨-, size, bytes⟩ := pictures 2
  obtain ⟨text, found, -, marks⟩ := lines 1 (by decide)
  refine ⟨by decide, size, ?_, ?_, ?_, ⟨text, found, ?_⟩, ?_⟩
  · exact bytes 0 (by decide) 0 (by decide) 0 (by decide)
  · exact bytes 4 (by decide) 0 (by decide) 0 (by decide)
  · exact bytes 0 (by decide) 2 (by decide) 0 (by decide)
  · exact marks 2 (by decide)
  · exact pixels 0 (by decide) 0 (by decide) (by decide)

end Display

end Chip8
