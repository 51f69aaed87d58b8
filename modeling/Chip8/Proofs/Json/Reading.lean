import Chip8.Json.Reader
import Chip8.Proofs.Json.Ascii

set_option autoImplicit false
set_option relaxedAutoImplicit false

namespace Chip8

namespace Json

open Text (Piece)
open Text.Hexadecimal (fill)

/-- A reader finds a thing at the start of a text and leaves the rest, wherever the text begins. -/
def Finds {α : Type} (reader : Cursor → Except ReadError (α × Cursor)) (text rest : List Char)
    (a : α) : Prop :=
  ∀ p, ∃ q, reader ⟨text ++ rest, p⟩ = .ok (a, ⟨rest, q⟩)

def blank (c : Char) : Bool := c == ' ' || c == '\t' || c == '\n' || c == '\r'

def Solid (cs : List Char) : Prop := ∀ c ∈ cs.head?, blank c = false

theorem solid_of_head {c : Char} (solid : blank c = false) (cs : List Char) : Solid (c :: cs) := by
  rintro _ ⟨⟩
  exact solid

theorem skipSpace_append {blanks cs : List Char} (white : ∀ c ∈ blanks, blank c) (solid : Solid cs)
    (p : Nat) : (Cursor.mk (blanks ++ cs) p).skipSpace = ⟨cs, p + blanks.length⟩ := by
  have space : (blanks ++ cs).takeWhile blank = blanks := by
    rw [List.takeWhile_append_of_pos white]
    cases cs with
    | nil => exact List.append_nil blanks
    | cons c cs =>
      have head : ¬ blank c = true := by simp [solid c rfl]
      rw [List.takeWhile_cons_of_neg head, List.append_nil]
  have skipped : (Cursor.mk (blanks ++ cs) p).skipSpace =
      (Cursor.mk (blanks ++ cs) p).skip ((blanks ++ cs).takeWhile blank).length := rfl
  rw [skipped, space, Cursor.skip, List.drop_left]

theorem skipSpace_solid {cs : List Char} (solid : Solid cs) (p : Nat) :
    (Cursor.mk cs p).skipSpace = ⟨cs, p⟩ := by
  have none : ∀ c ∈ ([] : List Char), blank c := nofun
  exact skipSpace_append none solid p

/-- A text without a byte order mark is read as the value that is all of it but white space. -/
theorem read_eq_ok_iff {text : String} {v : Json} (unmarked : text.toList.head? ≠ some '\uFEFF') :
    Json.read text = .ok v ↔
      ∃ c, valueAt (text.toList.length + 1) (Cursor.mk text.toList 0).skipSpace = .ok (v, c) ∧
        c.skipSpace.rest = [] := by
  unfold Json.read
  generalize text.toList = cs at unmarked
  split
  · exact absurd rfl unmarked
  · cases found : valueAt (cs.length + 1) (Cursor.mk cs 0).skipSpace with
    | error reason => exact ⟨nofun, fun ⟨_, failed, _⟩ => nomatch failed⟩
    | ok result =>
      obtain ⟨value, c⟩ := result
      have outcome : ∀ c : Cursor, (if c.rest.isEmpty then Except.ok value else c.fail .extra) =
          .ok v ↔ value = v ∧ c.rest = [] := by
        intro c
        cases c.rest <;> simp [Cursor.fail]
      refine (outcome c.skipSpace).trans ⟨?_, ?_⟩
      · rintro ⟨rfl, all⟩
        exact ⟨c, rfl, all⟩
      · rintro ⟨_, ⟨⟩, all⟩
        exact ⟨rfl, all⟩

theorem read_of_finds {text : String} {v : Json} (solid : Solid text.toList)
    (unmarked : text.toList.head? ≠ some '\uFEFF')
    (found : Finds (valueAt (text.toList.length + 1)) text.toList [] v) :
    Json.read text = .ok v := by
  obtain ⟨q, value⟩ := found 0
  rw [List.append_nil] at value
  refine (read_eq_ok_iff unmarked).mpr ⟨⟨[], q⟩, ?_, rfl⟩
  rw [skipSpace_solid solid, value]

private theorem fill_succ_toDigits (width n : Nat) (wide : 0 < width) :
    fill (width + 1) (Nat.toDigits 16 n) =
      fill width (Nat.toDigits 16 (n / 16)) ++ [(n % 16).digitChar] := by
  rcases Nat.lt_or_ge n 16 with small | large
  · obtain ⟨w, rfl⟩ := Nat.exists_eq_add_one.mpr wide
    rw [Nat.div_eq_of_lt small, Nat.mod_eq_of_lt small, Nat.toDigits_of_lt_base small,
      Nat.toDigits_zero]
    simp only [fill, List.length_singleton, Nat.add_sub_cancel, List.replicate_succ']
  · rw [Nat.toDigits_of_base_le (by decide) large]
    simp only [fill, List.length_append, List.length_singleton, Nat.add_sub_add_right,
      List.append_assoc]

private theorem fill_toDigits {n : Nat} (small : n < 0x10000) :
    fill 4 (Nat.toDigits 16 n) =
      [(n / 16 / 16 / 16).digitChar, (n / 16 / 16 % 16).digitChar, (n / 16 % 16).digitChar,
        (n % 16).digitChar] := by
  have first : n / 16 / 16 / 16 < 16 := by omega
  rw [fill_succ_toDigits 3 n (by decide), fill_succ_toDigits 2 _ (by decide),
    fill_succ_toDigits 1 _ (by decide), Nat.toDigits_of_lt_base first]
  rfl

private theorem hexDigit?_digitChar : ∀ d < 16, hexDigit? d.digitChar = some d := by decide

private theorem fourHex?_fill {n : Nat} (small : n < 0x10000) (rest : List Char) :
    fourHex? (fill 4 (Nat.toDigits 16 n) ++ rest) = some n := by
  rw [fill_toDigits small]
  simp only [List.cons_append, fourHex?]
  rw [hexDigit?_digitChar _ (by omega), hexDigit?_digitChar _ (by omega),
    hexDigit?_digitChar _ (by omega), hexDigit?_digitChar _ (by omega)]
  simp
  omega

private theorem length_fill {n : Nat} (small : n < 0x10000) :
    (fill 4 (Nat.toDigits 16 n)).length = 4 := by
  rw [fill_toDigits small]
  rfl

private theorem finds_unicodeEscape {n : Nat} (small : n < 0x10000) {rest : List Char}
    (more : rest ≠ []) :
    Finds unicodeEscape (fill 4 (Nat.toDigits 16 n)) rest (.ofCode n) := by
  intro p
  have length := length_fill small
  have left : 0 < rest.length := List.length_pos_iff.mpr more
  have enough : ¬ (fill 4 (Nat.toDigits 16 n) ++ rest).length < 5 := by
    rw [List.length_append]
    omega
  refine ⟨p + 4, ?_⟩
  unfold unicodeEscape
  dsimp only
  rw [if_neg enough, fourHex?_fill small, Cursor.skip, List.drop_left' length]

private theorem stringBody_code {n : Nat} (small : n < 0x10000) {rest : List Char}
    (more : rest ≠ [])
    (start rounds p : Nat) (acc : List Piece) :
    ∃ q, stringBody start (rounds + 1) ⟨unicodeCode n ++ rest, p⟩ acc =
      stringBody start rounds ⟨rest, q⟩ (.ofCode n :: acc) := by
  obtain ⟨q, read⟩ := finds_unicodeEscape small more (p + 2)
  refine ⟨q, ?_⟩
  have unfolded : stringBody start (rounds + 1) ⟨unicodeCode n ++ rest, p⟩ acc =
      (unicodeEscape ⟨fill 4 (Nat.toDigits 16 n) ++ rest, p + 2⟩ >>= fun r =>
        stringBody start rounds r.2 (r.1 :: acc)) := rfl
  rw [unfolded, read]
  rfl

private theorem stringBody_literal {c : Char} (quote : c ≠ '"') (backslash : c ≠ '\\')
    (printable : 32 ≤ c.toNat) (start rounds : Nat) (rest : List Char) (p : Nat)
    (acc : List Piece) :
    stringBody start (rounds + 1) ⟨c :: rest, p⟩ acc =
      stringBody start rounds ⟨rest, p + 1⟩ (.char c :: acc) := by
  rw [stringBody]
  split <;> simp_all
  rw [if_neg (by omega)]
  rfl

private theorem whole_of_char (c : Char) :
    c.toNat < 0xD800 ∨ (0xDFFF < c.toNat ∧ c.toNat < 0x110000) :=
  c.valid

private theorem ofCode_toNat (c : Char) : Piece.ofCode c.toNat = .char c := by
  have whole := whole_of_char c
  rw [Piece.ofCode, if_neg (by omega), if_neg (by omega), Char.ofNat_toNat]

private theorem ofCode_high (n : Fin 0x400) : Piece.ofCode (0xD800 + n.val) = .high n := by
  have small := n.isLt
  rw [Piece.ofCode, if_pos (by omega), Nat.add_sub_cancel_left, Fin.ofNat_val_eq_self]

private theorem ofCode_low (n : Fin 0x400) : Piece.ofCode (0xDC00 + n.val) = .low n := by
  have small := n.isLt
  rw [Piece.ofCode, if_neg (by omega), if_pos (by omega), Nat.add_sub_cancel_left,
    Fin.ofNat_val_eq_self]

/-- The pieces that are read of a piece that was written: a character past the 16-bit codes is
written as its two halves. -/
def halves : Piece → List Piece
  | .char c =>
    if c.toNat < 0x10000 then [.char c]
    else
      [.ofCode (0xD800 + (c.toNat - 0x10000) / 0x400),
        .ofCode (0xDC00 + (c.toNat - 0x10000) % 0x400)]
  | half => [half]

private theorem stringBody_escapeChar {c : Char} (small : c.toNat < 0x10000) (start rounds : Nat)
    {rest : List Char} (more : rest ≠ []) (p : Nat) (acc : List Piece) :
    ∃ q, stringBody start (rounds + 1) ⟨escapeChar c ++ rest, p⟩ acc =
      stringBody start rounds ⟨rest, q⟩ (.char c :: acc) := by
  unfold escapeChar
  by_cases quote : (c == '"') = true
  · rw [eq_of_beq quote]
    exact ⟨_, rfl⟩
  by_cases backslash : (c == '\\') = true
  · rw [eq_of_beq backslash]
    exact ⟨_, rfl⟩
  rw [if_neg quote, if_neg backslash]
  iterate 5
    split
    · rename_i same
      rw [eq_of_beq same]
      exact ⟨_, rfl⟩
  split
  · rename_i printable
    exact ⟨p + 1, stringBody_literal (by simpa using quote) (by simpa using backslash) printable.1
      start rounds rest p acc⟩
  · have read := stringBody_code small more start rounds p acc
    rw [ofCode_toNat] at read
    exact read

private theorem escapeChar_of_large {c : Char} (large : ¬ c.toNat < 0x10000) :
    escapeChar c = unicodeCode (0xD800 + (c.toNat - 0x10000) / 0x400) ++
      unicodeCode (0xDC00 + (c.toNat - 0x10000) % 0x400) := by
  have other (d : Char) (below : d.toNat < 0x10000) : ¬ (c == d) = true := by
    rw [beq_iff_eq]
    rintro rfl
    exact large below
  unfold escapeChar
  rw [if_neg (other _ (by decide)), if_neg (other _ (by decide)), if_neg (other _ (by decide)),
    if_neg (other _ (by decide)), if_neg (other _ (by decide)), if_neg (other _ (by decide)),
    if_neg (other _ (by decide)), if_neg (by omega), if_neg large]

/-- A piece that was written is read in as many rounds as it has codes. -/
theorem stringBody_escapePiece (start rounds : Nat) (piece : Piece) {rest : List Char}
    (more : rest ≠ []) (p : Nat) (acc : List Piece) :
    ∃ q, stringBody start (rounds + (halves piece).length) ⟨escapePiece piece ++ rest, p⟩ acc =
      stringBody start rounds ⟨rest, q⟩ ((halves piece).reverse ++ acc) := by
  cases piece with
  | char c =>
    by_cases small : c.toNat < 0x10000
    · rw [halves, if_pos small]
      exact stringBody_escapeChar small start rounds more p acc
    · have range := whole_of_char c
      rw [halves, if_neg small, escapePiece, escapeChar_of_large small, List.append_assoc]
      have low : unicodeCode (0xDC00 + (c.toNat - 0x10000) % 0x400) ++ rest ≠ [] :=
        List.cons_ne_nil _ _
      obtain ⟨q, first⟩ := stringBody_code (n := 0xD800 + (c.toNat - 0x10000) / 0x400) (by omega)
        low start (rounds + 1) p acc
      obtain ⟨q', second⟩ := stringBody_code (n := 0xDC00 + (c.toNat - 0x10000) % 0x400)
        (by omega) more start rounds q (.ofCode (0xD800 + (c.toNat - 0x10000) / 0x400) :: acc)
      exact ⟨q', first.trans second⟩
  | high n =>
    have read := stringBody_code (n := 0xD800 + n.val) (by omega) more start rounds p acc
    rw [ofCode_high] at read
    exact read
  | low n =>
    have read := stringBody_code (n := 0xDC00 + n.val) (by omega) more start rounds p acc
    rw [ofCode_low] at read
    exact read

private theorem stringBody_escaped (start : Nat) (ps : List Piece) (rest : List Char)
    (rounds p : Nat)
    (acc : List Piece) (enough : (ps.flatMap halves).length < rounds) :
    ∃ q, stringBody start rounds ⟨ps.flatMap escapePiece ++ '"' :: rest, p⟩ acc =
      .ok (acc.reverse ++ ps.flatMap halves, ⟨rest, q⟩) := by
  induction ps generalizing rounds p acc with
  | nil =>
    obtain ⟨r, rfl⟩ := Nat.exists_eq_add_one.mpr (Nat.zero_lt_of_lt enough)
    refine ⟨p + 1, ?_⟩
    rw [List.flatMap_nil, List.flatMap_nil, List.append_nil]
    rfl
  | cons piece ps ih =>
    rw [List.flatMap_cons, List.length_append] at enough
    obtain ⟨r, rfl⟩ := Nat.exists_eq_add_of_le' (show (halves piece).length ≤ rounds by omega)
    have more : ps.flatMap escapePiece ++ '"' :: rest ≠ [] := by simp
    obtain ⟨q, first⟩ := stringBody_escapePiece start r piece more p acc
    obtain ⟨q', read⟩ := ih r q ((halves piece).reverse ++ acc) (by omega)
    refine ⟨q', ?_⟩
    rw [List.flatMap_cons, List.append_assoc, first, read, List.reverse_append,
      List.reverse_reverse, List.append_assoc, List.flatMap_cons]

private theorem length_halves_le (piece : Piece) :
    (halves piece).length ≤ (escapePiece piece).length := by
  unfold halves escapePiece escapeChar unicodeCode
  grind

private theorem length_le_escaped (ps : List Piece) :
    (ps.flatMap halves).length ≤ (ps.flatMap escapePiece).length := by
  induction ps with
  | nil => exact Nat.le_refl 0
  | cons piece ps ih =>
    have shorter := length_halves_le piece
    rw [List.flatMap_cons, List.flatMap_cons, List.length_append, List.length_append]
    omega

theorem finds_string (ps : List Piece) (rest : List Char) :
    Finds stringAt (renderPieces ps).toList rest (ps.flatMap halves) := by
  intro p
  rw [renderPieces, String.toList_ofList, List.cons_append, List.cons_append, List.append_assoc,
    List.singleton_append]
  have enough : (ps.flatMap halves).length <
      ('"' :: (ps.flatMap escapePiece ++ '"' :: rest)).length := by
    have shorter := length_le_escaped ps
    rw [List.length_cons, List.length_append]
    omega
  exact stringBody_escaped p ps rest _ (p + 1) [] enough

private theorem put_halves (piece : Piece) (ps : List Piece) :
    (halves piece).foldr Text.put ps = Text.put piece ps := by
  cases piece with
  | char c =>
    by_cases small : c.toNat < 0x10000
    · rw [halves, if_pos small]
      rfl
    · have range := whole_of_char c
      have high : (c.toNat - 0x10000) / 0x400 < 0x400 := by omega
      have low : (c.toNat - 0x10000) % 0x400 < 0x400 := by omega
      have code : 0x10000 + (c.toNat - 0x10000) / 0x400 * 0x400 +
          (c.toNat - 0x10000) % 0x400 = c.toNat := by omega
      have first := ofCode_high ⟨_, high⟩
      have second := ofCode_low ⟨_, low⟩
      have joined : Text.paired ⟨_, high⟩ ⟨_, low⟩ = c := by
        rw [Text.paired, code, Char.ofNat_toNat]
      rw [halves, if_neg small, first, second]
      exact congrArg (fun d => Piece.char d :: ps) joined
  | high n => rfl
  | low n => rfl

private theorem join_halves (ps : List Piece) : Text.join (ps.flatMap halves) = Text.join ps := by
  induction ps with
  | nil => rfl
  | cons piece ps ih =>
    change List.foldr Text.put [] ((piece :: ps).flatMap halves) = Text.put piece (Text.join ps)
    rw [List.flatMap_cons, List.foldr_append, ← put_halves, ← ih]
    rfl

private theorem join_chars (cs : List Char) : Text.join (cs.map Piece.char) = cs.map .char := by
  induction cs with
  | nil => rfl
  | cons c cs ih =>
    change Text.put (.char c) (Text.join (cs.map .char)) = _
    rw [ih]
    rfl

private theorem chars?_chars (cs : List Char) : Text.chars? (cs.map Piece.char) = some cs := by
  induction cs with
  | nil => rfl
  | cons c cs ih =>
    rw [List.map_cons, Text.chars?, ih]
    rfl

theorem ofPieces_string (s : String) :
    ofPieces ((s.toList.map Piece.char).flatMap halves) = .string s := by
  have whole : Text.chars? (Text.join ((s.toList.map Piece.char).flatMap halves)) =
      some s.toList := by
    rw [join_halves, join_chars, chars?_chars]
  unfold ofPieces
  split
  · rename_i cs found
    rw [whole] at found
    cases found
    rw [String.ofList_toList]
  · rename_i broken
    rw [whole] at broken
    cases broken

theorem ofPieces_broken (text : Text.Broken) :
    ofPieces (text.pieces.flatMap halves) = .broken text := by
  have joined : Text.join (text.pieces.flatMap halves) = text.pieces :=
    (join_halves _).trans text.joined
  unfold ofPieces
  split
  · rename_i cs found
    rw [joined, text.broken] at found
    cases found
  · congr

theorem nameOf_string (s : String) : nameOf ((s.toList.map Piece.char).flatMap halves) = s := by
  have shown : (s.toList.map Piece.char).map Piece.shown = s.toList := by
    rw [List.map_map]
    exact List.map_id _
  rw [nameOf, join_halves, join_chars, shown, String.ofList_toList]

end Json

end Chip8
