import Chip8.Decimal
import Chip8.Json.Printer
import Chip8.Text

set_option autoImplicit false
set_option relaxedAutoImplicit false

namespace Chip8

namespace Decimal

def inNumber (c : Char) : Bool :=
  isDigit c || c == '.' || c == 'e' || c == 'E' || c == '+' || c == '-'

variable {ds : List Char}

theorem isDigit_of_mem_toDigits {n : Nat} {c : Char} (mem : c ∈ Nat.toDigits 10 n) :
    isDigit c = true := by
  have digit := Nat.isDigit_of_mem_toDigits (by decide) (by decide) mem
  simpa [isDigit, Char.isDigit, Char.le_def] using digit

theorem inNumber_of_isDigit {c : Char} (digit : isDigit c = true) : inNumber c = true := by
  simp [inNumber, digit]

private theorem inNumber_toDigits (n : Nat) : ∀ c ∈ Nat.toDigits 10 n, inNumber c :=
  fun _ mem => inNumber_of_isDigit (isDigit_of_mem_toDigits mem)

private theorem inNumber_replicate_zero (n : Nat) : ∀ c ∈ List.replicate n '0', inNumber c := by
  intro c mem
  rw [List.eq_of_mem_replicate mem]
  rfl

private theorem inNumber_padDigits (width n : Nat) : ∀ c ∈ padDigits width n, inNumber c :=
  List.forall_mem_append.mpr ⟨inNumber_replicate_zero _, inNumber_toDigits n⟩

private theorem inNumber_dropZeros (each : ∀ c ∈ ds, inNumber c) :
    ∀ c ∈ dropZeros ds, inNumber c := by
  unfold dropZeros
  split
  · exact List.all_eq_true.mp rfl
  · intro c mem
    have kept := (List.dropWhile_sublist _).subset (List.mem_reverse.mp mem)
    exact each c (List.mem_reverse.mp kept)

private theorem inNumber_positional (each : ∀ c ∈ ds, inNumber c) (point : Int) :
    ∀ c ∈ positional ds point, inNumber c := by
  unfold positional
  dsimp only
  split
  · simp only [List.forall_mem_cons, List.forall_mem_append]
    exact ⟨rfl, rfl, inNumber_replicate_zero _, each⟩
  · split
    · simp only [List.forall_mem_append]
      exact ⟨⟨each, inNumber_replicate_zero _⟩, List.all_eq_true.mp rfl⟩
    · simp only [List.forall_mem_cons, List.forall_mem_append]
      exact ⟨fun c mem => each c (List.mem_of_mem_take mem), rfl,
        fun c mem => each c (List.mem_of_mem_drop mem)⟩

private theorem inNumber_scientific (each : ∀ c ∈ ds, inNumber c) (exponent : Int) :
    ∀ c ∈ scientific ds exponent, inNumber c := by
  unfold scientific
  simp only [List.forall_mem_append, List.forall_mem_cons]
  refine ⟨⟨⟨fun c mem => each c (List.mem_of_mem_take mem), ?_⟩, rfl, ?_, nofun⟩,
    inNumber_padDigits 2 _⟩
  · split
    · nofun
    · simp only [List.forall_mem_cons]
      exact ⟨rfl, fun c mem => each c (List.mem_of_mem_drop mem)⟩
  · split <;> rfl

theorem inNumber_renderFinite (negative : Bool) (m : Nat) (e : Int) :
    ∀ c ∈ (renderFinite negative m e).toList, inNumber c := by
  unfold renderFinite
  generalize shortest m e = found
  obtain ⟨n, exponent⟩ := found
  rw [String.toList_ofList]
  simp only [List.forall_mem_append]
  refine ⟨by cases negative <;> exact List.all_eq_true.mp rfl, ?_⟩
  split
  · exact List.all_eq_true.mp rfl
  · have digits := inNumber_dropZeros (inNumber_toDigits n)
    split
    · exact inNumber_positional digits _
    · exact inNumber_scientific digits _

theorem inNumber_int (n : Int) : ∀ c ∈ (toString n).toList, inNumber c := by
  rw [Int.toString_eq_repr, Int.repr_eq_if]
  split
  · rw [Nat.toList_repr]
    exact inNumber_toDigits _
  · rw [String.toList_append, Nat.toList_repr]
    exact List.forall_mem_append.mpr ⟨List.all_eq_true.mp rfl, inNumber_toDigits _⟩

end Decimal

namespace Text

/-- An ASCII character other than a carriage return. -/
def Plain (c : Char) : Prop := c.toNat < 128 ∧ c ≠ '\r'

instance (c : Char) : Decidable (Plain c) := inferInstanceAs (Decidable (_ ∧ _))

private theorem plain_of_all {cs : List Char} (all : (cs.all fun c => decide (Plain c)) = true) :
    ∀ c ∈ cs, Plain c :=
  fun c mem => of_decide_eq_true (List.all_eq_true.mp all c mem)

private theorem unifyLines_plain {cs : List Char} (plain : ∀ c ∈ cs, Plain c) :
    Utf8.unifyLines cs = cs := by
  induction cs with
  | nil => rfl
  | cons c cs ih =>
    obtain ⟨⟨-, other⟩, rest⟩ := List.forall_mem_cons.mp plain
    rw [Utf8.unifyLines, ih rest]
    · exact fun _ carriage => absurd carriage other
    · exact other

private theorem utf8EncodeChar_plain {c : Char} (plain : Plain c) :
    String.utf8EncodeChar c = [UInt8.ofNat c.toNat] := by
  have small : c.toNat < 128 := plain.1
  exact if_pos (Nat.le_of_lt_succ small)

private theorem character?_plain {c : Char} (plain : Plain c) (bs : List UInt8) :
    Utf8.character? (UInt8.ofNat c.toNat) bs = .ok (c, bs) := by
  have small : c.toNat < 128 := plain.1
  have same : (UInt8.ofNat c.toNat).toNat = c.toNat := by
    rw [UInt8.toNat_ofNat']
    omega
  rw [Utf8.character?, same, if_pos small, Char.ofNat_toNat]

private theorem bytes_plain {cs : List Char} (plain : ∀ c ∈ cs, Plain c) :
    (String.ofList cs).toUTF8.data.toList = cs.map fun c => UInt8.ofNat c.toNat := by
  rw [String.toUTF8_eq_toByteArray, String.toByteArray_ofList, List.utf8Encode,
    List.toList_data_toByteArray]
  induction cs with
  | nil => rfl
  | cons c cs ih =>
    obtain ⟨first, rest⟩ := List.forall_mem_cons.mp plain
    rw [List.flatMap_cons, utf8EncodeChar_plain first, ih rest]
    rfl

private theorem decodeFrom_plain {cs : List Char} (plain : ∀ c ∈ cs, Plain c) (position : Nat)
    (acc : List Char) :
    Utf8.decodeFrom cs.length position (cs.map fun c => UInt8.ofNat c.toNat) acc =
      .ok (acc.reverse ++ cs) := by
  induction cs generalizing position acc with
  | nil =>
    rw [List.append_nil]
    rfl
  | cons c cs ih =>
    obtain ⟨first, rest⟩ := List.forall_mem_cons.mp plain
    rw [List.map_cons, List.length_cons, Utf8.decodeFrom, character?_plain first]
    dsimp only
    rw [ih rest, List.reverse_cons, List.append_assoc]
    rfl

private theorem decode_plain {text : String} (plain : ∀ c ∈ text.toList, Plain c) :
    Utf8.decode text.toUTF8.data.toList = .ok text := by
  have bytes := bytes_plain plain
  rw [String.ofList_toList] at bytes
  rw [Utf8.decode, bytes, List.length_map, decodeFrom_plain plain, List.reverse_nil,
    List.nil_append]
  exact congrArg Except.ok String.ofList_toList

private theorem plain_of_inNumber {c : Char} (number : Decimal.inNumber c = true) : Plain c := by
  simp only [Decimal.inNumber, Decimal.isDigit, Bool.or_eq_true, Bool.and_eq_true, beq_iff_eq,
    decide_eq_true_eq] at number
  rcases number with ((((⟨low, high⟩ | rfl) | rfl) | rfl) | rfl) | rfl
  · have below : c.toNat ≤ '9'.toNat := high
    have above : '0'.toNat ≤ c.toNat := low
    refine ⟨Nat.lt_of_le_of_lt below (by decide), ?_⟩
    rintro rfl
    exact absurd above (by decide)
  all_goals decide

end Text

namespace Json

open Text (Plain plain_of_all)

private theorem digit_of_mem_toDigits {b n : Nat} (base : 1 < b) {c : Char}
    (mem : c ∈ Nat.toDigits b n) :
    ∃ d < b, c = d.digitChar := by
  induction n using Nat.base_induction b base with
  | single m small =>
    rw [Nat.toDigits_of_lt_base small, List.mem_singleton] at mem
    exact ⟨m, small, mem⟩
  | digit m k small positive ih =>
    rw [← Nat.toDigits_append_toDigits base positive small, List.mem_append,
      Nat.toDigits_of_lt_base small, List.mem_singleton] at mem
    rcases mem with front | rfl
    · exact ih front
    · exact ⟨k, small, rfl⟩

private theorem plain_digitChar : ∀ d < 16, Plain d.digitChar := by decide

private theorem plain_unicodeCode (n : Nat) : ∀ c ∈ unicodeCode n, Plain c := by
  have filled : ∀ c ∈ Text.Hexadecimal.fill 4 (Nat.toDigits 16 n), Plain c := by
    refine List.forall_mem_append.mpr ⟨fun c mem => ?_, fun c mem => ?_⟩
    · rw [List.eq_of_mem_replicate mem]
      decide
    · obtain ⟨d, small, rfl⟩ := digit_of_mem_toDigits (by decide) mem
      exact plain_digitChar d small
  simp only [unicodeCode, List.forall_mem_cons]
  exact ⟨by decide, by decide, filled⟩

private theorem plain_escapeChar (x : Char) : ∀ c ∈ escapeChar x, Plain c := by
  unfold escapeChar
  iterate 7 split; · exact plain_of_all rfl
  split
  · rename_i _ printable
    intro c mem
    rw [List.mem_singleton.mp mem]
    refine ⟨Nat.lt_trans printable.2 (by decide), ?_⟩
    rintro rfl
    exact absurd printable.1 (by decide)
  · split
    · exact plain_unicodeCode _
    · exact List.forall_mem_append.mpr ⟨plain_unicodeCode _, plain_unicodeCode _⟩

private theorem plain_escapePiece (p : Text.Piece) : ∀ c ∈ escapePiece p, Plain c := by
  cases p with
  | char x => exact plain_escapeChar x
  | high n => exact plain_unicodeCode _
  | low n => exact plain_unicodeCode _

private theorem plain_renderPieces (ps : List Text.Piece) :
    ∀ c ∈ (renderPieces ps).toList, Plain c := by
  rw [renderPieces, String.toList_ofList]
  simp only [List.forall_mem_append, List.forall_mem_cons]
  refine ⟨⟨by decide, fun c mem => ?_⟩, by decide, nofun⟩
  obtain ⟨p, -, escaped⟩ := List.mem_flatMap.mp mem
  exact plain_escapePiece p c escaped

private theorem plain_renderFloat (x : Float) : ∀ c ∈ (renderFloat x).toList, Plain c := by
  unfold renderFloat
  generalize Decimal.Binary64.ofFloat x = value
  cases value with
  | nan => exact plain_of_all rfl
  | infinite negative => cases negative <;> exact plain_of_all rfl
  | finite negative m e =>
    exact fun c mem => Text.plain_of_inNumber (Decimal.inNumber_renderFinite negative m e c mem)

private theorem plain_renderScalar (v : Json) : ∀ c ∈ (renderScalar v).toList, Plain c := by
  cases v with
  | null => exact plain_of_all rfl
  | array items | object members =>
    rw [renderScalar]
    exact plain_of_all rfl
  | bool b => cases b <;> exact plain_of_all rfl
  | int n => exact fun c mem => Text.plain_of_inNumber (Decimal.inNumber_int n c mem)
  | float x => exact plain_renderFloat x
  | string s => exact plain_renderPieces _
  | broken text => exact plain_renderPieces text.pieces

private theorem plain_lineBreak (level : Nat) : ∀ c ∈ (lineBreak level).toList, Plain c := by
  rw [lineBreak, String.toList_ofList]
  refine List.forall_mem_cons.mpr ⟨by decide, fun c mem => ?_⟩
  rw [List.eq_of_mem_replicate mem]
  decide

private theorem plain_intercalate {separator : String} {lines : List String}
    (between : ∀ c ∈ separator.toList, Plain c) (each : ∀ l ∈ lines, ∀ c ∈ l.toList, Plain c) :
    ∀ c ∈ (separator.intercalate lines).toList, Plain c := by
  induction lines with
  | nil => nofun
  | cons line lines ih =>
    obtain ⟨first, rest⟩ := List.forall_mem_cons.mp each
    cases lines with
    | nil =>
      rw [String.intercalate_singleton]
      exact first
    | cons next lines =>
      rw [String.intercalate_cons_cons, String.toList_append, String.toList_append]
      exact List.forall_mem_append.mpr ⟨List.forall_mem_append.mpr ⟨first, between⟩, ih rest⟩

private theorem plain_bracket {level : Nat} {left right : String} {lines : List String}
    (opening : ∀ c ∈ left.toList, Plain c) (closing : ∀ c ∈ right.toList, Plain c)
    (each : ∀ l ∈ lines, ∀ c ∈ l.toList, Plain c) :
    ∀ c ∈ (bracket level left right lines).toList, Plain c := by
  unfold bracket
  split
  · rw [String.toList_append]
    exact List.forall_mem_append.mpr ⟨opening, closing⟩
  · have separator : ∀ c ∈ ("," ++ lineBreak (level + 1)).toList, Plain c := by
      rw [String.toList_append]
      exact List.forall_mem_append.mpr ⟨plain_of_all rfl, plain_lineBreak _⟩
    simp only [String.toList_append, List.forall_mem_append]
    exact ⟨⟨⟨⟨opening, plain_lineBreak _⟩, plain_intercalate separator each⟩, plain_lineBreak _⟩,
      closing⟩

mutual

private theorem plain_renderAt (level : Nat) : ∀ v, ∀ c ∈ (renderAt level v).toList, Plain c
  | .null => plain_renderScalar .null
  | .bool b => plain_renderScalar (.bool b)
  | .int n => plain_renderScalar (.int n)
  | .float x => plain_renderScalar (.float x)
  | .string s => plain_renderScalar (.string s)
  | .broken text => plain_renderScalar (.broken text)
  | .array items => by
    rw [renderAt]
    exact plain_bracket (plain_of_all rfl) (plain_of_all rfl)
      (plain_renderItemsAt (level + 1) items)
  | .object members => by
    rw [renderAt]
    exact plain_bracket (plain_of_all rfl) (plain_of_all rfl)
      (plain_renderMembersAt (level + 1) members)

private theorem plain_renderItemsAt (level : Nat) :
    ∀ items, ∀ l ∈ renderItemsAt level items, ∀ c ∈ l.toList, Plain c
  | [] => nofun
  | item :: items => by
    rw [renderItemsAt]
    exact List.forall_mem_cons.mpr ⟨plain_renderAt level item, plain_renderItemsAt level items⟩

private theorem plain_renderMembersAt (level : Nat) :
    ∀ members, ∀ l ∈ renderMembersAt level members, ∀ c ∈ l.toList, Plain c
  | [] => nofun
  | (name, value) :: members => by
    rw [renderMembersAt]
    refine List.forall_mem_cons.mpr ⟨?_, plain_renderMembersAt level members⟩
    simp only [String.toList_append, List.forall_mem_append]
    exact ⟨⟨plain_renderPieces _, plain_of_all rfl⟩, plain_renderAt level value⟩

end

/-- A file that a value was written to is read as the text that was written. -/
theorem decode_renderIndented (v : Json) :
    Text.Utf8.decode v.renderIndented.toUTF8.data.toList = .ok v.renderIndented :=
  Text.decode_plain (plain_renderAt 0 v)

theorem unifyLines_renderIndented (v : Json) :
    String.ofList (Text.Utf8.unifyLines v.renderIndented.toList) = v.renderIndented := by
  rw [renderIndented, Text.unifyLines_plain (plain_renderAt 0 v), String.ofList_toList]

end Json

end Chip8
