import Chip8.Proofs.Json.Reading

set_option autoImplicit false
set_option relaxedAutoImplicit false

namespace Chip8

namespace Json

def minusPart : List Char → List Char
  | '-' :: _ => ['-']
  | _ => []

structure NumberText where
  sign : List Char
  whole : List Char
  fraction : List Char
  exponent : List Char

namespace NumberText

def of (cs : List Char) : NumberText :=
  let sign := minusPart cs
  let body := cs.drop sign.length
  let whole := wholePart body
  let fraction := fractionPart (body.drop whole.length)
  ⟨sign, whole, fraction, exponentPart (body.drop (whole.length + fraction.length))⟩

def length (t : NumberText) : Nat :=
  t.sign.length + t.whole.length + t.fraction.length + t.exponent.length

def read (t : NumberText) (after : Cursor) : Except ReadError (Json × Cursor) :=
  if t.fraction.isEmpty && t.exponent.isEmpty then
    if t.whole.length > Decimal.digitLimit then .error (.longInteger t.whole.length)
    else
      let n : Int := Decimal.digitsValue t.whole
      .ok (.int (if t.sign.isEmpty then n else -n), after)
  else
    let places := t.fraction.drop 1
    let power := (Decimal.exponent? (t.exponent.drop 1)).getD 0
    let x := Decimal.scale (Decimal.digitsValue (t.whole ++ places)) (power - places.length)
    .ok (.float (if t.sign.isEmpty then x else -x), after)

end NumberText

theorem numberAt_eq (c : Cursor) :
    numberAt c =
      if (NumberText.of c.rest).whole.isEmpty then c.fail .value
      else (NumberText.of c.rest).read (c.skip (NumberText.of c.rest).length) := rfl

theorem NumberText.read_ok {t : NumberText} {c after : Cursor} {v : Json}
    (read : t.read after = .ok (v, c)) (d : Cursor) : c = after ∧ t.read d = .ok (v, d) := by
  unfold NumberText.read at read ⊢
  split at read
  · rename_i plain
    rw [if_pos plain]
    split at read
    · cases read
    · rename_i short
      rw [if_neg short]
      cases read
      exact ⟨rfl, rfl⟩
  · rename_i pointed
    rw [if_neg pointed]
    cases read
    exact ⟨rfl, rfl⟩

/-- A text does not go on with a character that a number could go on with. -/
def Ends (rest : List Char) : Prop := ∀ c ∈ rest.head?, Decimal.inNumber c = false

theorem ends_nil : Ends [] := nofun

theorem Ends.of_head {c : Char} (other : Decimal.inNumber c = false) (cs : List Char) :
    Ends (c :: cs) := by
  rintro _ ⟨⟩
  exact other

section Ends

variable {cs rest : List Char} (ends : Ends rest)
include ends

private theorem Ends.head_ne {c d : Char} {tail : List Char} (shape : rest = c :: tail)
    (number : Decimal.inNumber d = true) : c ≠ d := by
  rintro rfl
  have other := ends c (by rw [shape]; rfl)
  rw [number] at other
  cases other

private theorem takeWhile_of_ends : rest.takeWhile Decimal.isDigit = [] := by
  cases shape : rest with
  | nil => rfl
  | cons c tail =>
    refine List.takeWhile_cons_of_neg fun digit => ?_
    exact ends.head_ne shape (Decimal.inNumber_of_isDigit digit) rfl

private theorem takeWhile_append_of_ends :
    (cs ++ rest).takeWhile Decimal.isDigit = cs.takeWhile Decimal.isDigit := by
  induction cs with
  | nil => exact takeWhile_of_ends ends
  | cons c cs ih =>
    rw [List.cons_append, List.takeWhile_cons, List.takeWhile_cons, ih]

private theorem wholePart_append (some : cs ≠ []) : wholePart (cs ++ rest) = wholePart cs := by
  obtain ⟨c, tail, rfl⟩ := List.exists_cons_of_ne_nil some
  by_cases zero : c = '0'
  · rw [zero]
    rfl
  · have digits : ∀ cs, wholePart (c :: cs) = (c :: cs).takeWhile Decimal.isDigit := by
      intro cs
      unfold wholePart
      split <;> simp_all
    rw [List.cons_append, digits, digits, ← List.cons_append, takeWhile_append_of_ends ends]

private theorem fractionPart_append : fractionPart (cs ++ rest) = fractionPart cs := by
  have other : ∀ c tail, c ≠ '.' → fractionPart (c :: tail) = [] := by
    intro c tail noPoint
    unfold fractionPart
    split
    · simp_all
    · rfl
  cases cs with
  | nil =>
    cases shape : rest with
    | nil => rfl
    | cons c tail => exact other c tail (ends.head_ne shape rfl)
  | cons c tail =>
    by_cases point : c = '.'
    · rw [point, List.cons_append, fractionPart, fractionPart, takeWhile_append_of_ends ends]
    · rw [List.cons_append, other c _ point, other c _ point]

private theorem exponentPart_append : exponentPart (cs ++ rest) = exponentPart cs := by
  cases cs with
  | nil =>
    cases shape : rest with
    | nil => rfl
    | cons c tail =>
      have small : c ≠ 'e' := ends.head_ne shape rfl
      have capital : c ≠ 'E' := ends.head_ne shape rfl
      simp [exponentPart, small, capital]
  | cons mark tail =>
    cases tail with
    | nil =>
      have none : ∀ cs, cs.takeWhile Decimal.isDigit = [] →
          (∀ s ∈ cs.head?, (s == '+' || s == '-') = false) → exponentPart (mark :: cs) = [] := by
        intro cs digits unsigned
        cases cs with
        | nil => simp [exponentPart]
        | cons s cs => simp [exponentPart, unsigned s rfl, digits]
      rw [List.singleton_append, none rest (takeWhile_of_ends ends), none [] rfl nofun]
      intro s head
      have other := ends s head
      simp only [Decimal.inNumber, Bool.or_eq_false_iff] at other
      simp [other]
    | cons s tail =>
      cases signed : s == '+' || s == '-' with
      | true =>
        simp only [List.cons_append, exponentPart, signed, if_true, List.length_singleton,
          List.drop_succ_cons, List.drop_zero, takeWhile_append_of_ends ends]
      | false =>
        have digits : (s :: tail ++ rest).takeWhile Decimal.isDigit =
            (s :: tail).takeWhile Decimal.isDigit := takeWhile_append_of_ends ends
        rw [List.cons_append] at digits
        simp [List.cons_append, exponentPart, signed, digits]

end Ends

private theorem minusPart_append {cs : List Char} (some : cs ≠ []) (rest : List Char) :
    minusPart (cs ++ rest) = minusPart cs := by
  obtain ⟨c, tail, rfl⟩ := List.exists_cons_of_ne_nil some
  by_cases minus : c = '-'
  · rw [minus]
    rfl
  · have other : ∀ cs, minusPart (c :: cs) = [] := by
      intro cs
      unfold minusPart
      split
      · simp_all
      · rfl
    rw [List.cons_append, other, other]

private theorem length_digits (cs : List Char) :
    (cs.takeWhile Decimal.isDigit).length ≤ cs.length :=
  (List.takeWhile_sublist _).length_le

private theorem length_minusPart (cs : List Char) : (minusPart cs).length ≤ cs.length := by
  unfold minusPart
  split <;> simp

private theorem length_wholePart (cs : List Char) : (wholePart cs).length ≤ cs.length := by
  unfold wholePart
  split
  · simp
  · exact length_digits cs

private theorem length_fractionPart (cs : List Char) : (fractionPart cs).length ≤ cs.length := by
  unfold fractionPart
  split
  · rename_i cs
    have digits := length_digits cs
    split
    · exact Nat.zero_le _
    · rename_i ds _ shape
      simp only [List.length_cons]
      omega
  · exact Nat.zero_le _

private theorem length_exponentPart (cs : List Char) : (exponentPart cs).length ≤ cs.length := by
  cases cs with
  | nil => exact Nat.le_refl 0
  | cons mark tail =>
    cases tail with
    | nil => simp [exponentPart]
    | cons s tail =>
      have digits := length_digits tail
      have signless := length_digits (s :: tail)
      cases signed : s == '+' || s == '-' with
      | true =>
        simp only [exponentPart, signed, if_true, List.length_singleton, List.drop_succ_cons,
          List.drop_zero]
        grind
      | false =>
        simp only [exponentPart, signed, Bool.false_eq_true, if_false, List.length_nil,
          List.drop_zero]
        grind

namespace NumberText

variable {cs : List Char}

private theorem length_le (cs : List Char) : (of cs).length ≤ cs.length := by
  have sign := length_minusPart cs
  have whole := length_wholePart (cs.drop (of cs).sign.length)
  have fraction := length_fractionPart
    ((cs.drop (of cs).sign.length).drop (of cs).whole.length)
  have exponent := length_exponentPart
    ((cs.drop (of cs).sign.length).drop ((of cs).whole.length + (of cs).fraction.length))
  simp only [List.length_drop] at whole fraction exponent
  unfold length
  unfold of at *
  dsimp only at *
  omega

private theorem of_append {rest : List Char} (ends : Ends rest) (some : (of cs).whole ≠ []) :
    of (cs ++ rest) = of cs := by
  have fits := length_le cs
  have text : cs ≠ [] := by
    rintro rfl
    exact some rfl
  have body : cs.drop (of cs).sign.length ≠ [] := by
    intro nothing
    refine some ?_
    change wholePart (cs.drop (of cs).sign.length) = []
    rw [nothing]
    rfl
  have parts : minusPart (cs ++ rest) = minusPart cs := minusPart_append text rest
  unfold length of at fits
  unfold of at body ⊢
  dsimp only at fits body ⊢
  have sign : (minusPart cs).length ≤ cs.length := by omega
  rw [parts, List.drop_append_of_le_length sign, wholePart_append ends body,
    List.drop_append_of_le_length, fractionPart_append ends, List.drop_append_of_le_length,
    exponentPart_append ends]
  · rw [List.length_drop]
    omega
  · rw [List.length_drop]
    omega

end NumberText

private theorem numberAt_append {cs rest : List Char} {v : Json} {p : Nat} {c : Cursor}
    (ends : Ends rest)
    (read : numberAt ⟨cs, p⟩ = .ok (v, c)) (p' : Nat) :
    ∃ q, numberAt ⟨cs ++ rest, p'⟩ = .ok (v, ⟨c.rest ++ rest, q⟩) := by
  rw [numberAt_eq] at read
  split at read
  · cases read
  · rename_i some
    have same := NumberText.of_append ends (by simpa using some)
    obtain ⟨place, -⟩ := NumberText.read_ok read ⟨[], 0⟩
    refine ⟨p' + (NumberText.of cs).length, ?_⟩
    rw [numberAt_eq]
    dsimp only
    rw [same, if_neg some, Cursor.skip,
      List.drop_append_of_le_length (NumberText.length_le cs), place]
    exact (NumberText.read_ok read _).2

/-- A text is that of a number if the reader of numbers takes all of it. -/
structure Spells (text : List Char) (v : Json) : Prop where
  plain : ∀ c ∈ text, Decimal.inNumber c
  whole : ∃ q, numberAt ⟨text, 0⟩ = .ok (v, ⟨[], q⟩)

theorem Spells.finds {text rest : List Char} {v : Json} (spells : Spells text v)
    (ends : Ends rest) : Finds numberAt text rest v := by
  intro p
  obtain ⟨q, read⟩ := spells.whole
  exact numberAt_append ends read p

private theorem digitsValue_toDigits (n : Nat) : Decimal.digitsValue (Nat.toDigits 10 n) = n := by
  have same : ∀ ds k, List.foldl (fun n d => n * 10 + (d.toNat - '0'.toNat)) k ds =
      Nat.ofDigitChars 10 ds k := by
    intro ds
    induction ds with
    | nil => exact fun k => rfl
    | cons d ds ih =>
      intro k
      rw [List.foldl_cons, ih, Nat.ofDigitChars_cons, Nat.mul_comm]
  rw [Decimal.digitsValue, same, Nat.ofDigitChars_ten_toDigits]

/-- No number but zero is written with a zero in front. -/
theorem zero_of_toDigits {n : Nat} {cs : List Char} (shape : Nat.toDigits 10 n = '0' :: cs) :
    n = 0 := by
  induction n using Nat.base_induction 10 (by decide) generalizing cs with
  | single m small =>
    rw [Nat.toDigits_of_lt_base small] at shape
    injection shape with first
    exact Nat.digitChar_eq_zero.mp first
  | digit m k small positive ih =>
    rw [← Nat.toDigits_append_toDigits (by decide) positive small] at shape
    obtain ⟨c, tail, front⟩ := List.exists_cons_of_ne_nil (Nat.toDigits_ne_nil (n := m) (b := 10))
    rw [front, List.cons_append] at shape
    injection shape with first
    rw [first] at front
    have zero := ih front
    omega

private theorem wholePart_toDigits (n : Nat) :
    wholePart (Nat.toDigits 10 n) = Nat.toDigits 10 n := by
  unfold wholePart
  split
  · rename_i shape
    have zero := zero_of_toDigits shape
    rw [zero]
    rfl
  · have all : (Nat.toDigits 10 n ++ []).takeWhile Decimal.isDigit = Nat.toDigits 10 n ++ [] :=
      List.takeWhile_append_of_pos fun c mem => Decimal.isDigit_of_mem_toDigits mem
    rwa [List.append_nil] at all

private theorem of_digits (n : Nat) :
    NumberText.of (Nat.toDigits 10 n) = ⟨[], Nat.toDigits 10 n, [], []⟩ := by
  have unsigned : minusPart (Nat.toDigits 10 n) = [] := by
    unfold minusPart
    split
    · rename_i tail shape
      have digit : Decimal.isDigit '-' = true :=
        Decimal.isDigit_of_mem_toDigits (n := n) (by rw [shape]; exact List.mem_cons_self)
      exact absurd digit (by decide)
    · rfl
  simp only [NumberText.of, unsigned, List.length_nil, List.drop_zero, wholePart_toDigits,
    List.drop_length, Nat.add_zero, fractionPart, exponentPart]

private theorem of_minus_digits (n : Nat) :
    NumberText.of ('-' :: Nat.toDigits 10 n) = ⟨['-'], Nat.toDigits 10 n, [], []⟩ := by
  simp only [NumberText.of, minusPart, List.length_singleton, List.drop_succ_cons, List.drop_zero,
    wholePart_toDigits, List.drop_length, List.length_nil, Nat.add_zero, fractionPart,
    exponentPart]

private theorem read_digits {n : Nat} (short : (Nat.toDigits 10 n).length ≤ Decimal.digitLimit)
    (sign : List Char) (after : Cursor) :
    (NumberText.mk sign (Nat.toDigits 10 n) [] []).read after =
      .ok (.int (if sign.isEmpty then n else -n), after) := by
  simp only [NumberText.read, List.isEmpty_nil, Bool.and_self, if_true, digitsValue_toDigits]
  exact if_neg (Nat.not_lt.mpr short)

/-- A whole number with no more digits than are read is read from its text. -/
theorem spells_int {n : Int}
    (short : (Nat.toDigits 10 n.natAbs).length ≤ Decimal.digitLimit) :
    Spells (toString n).toList (.int n) := by
  refine ⟨Decimal.inNumber_int n, ?_⟩
  cases n with
  | ofNat m =>
    change (Nat.toDigits 10 m).length ≤ Decimal.digitLimit at short
    have text : (toString (Int.ofNat m)).toList = Nat.toDigits 10 m := Nat.toList_repr
    refine ⟨(Nat.toDigits 10 m).length, ?_⟩
    rw [numberAt_eq, text, of_digits, read_digits short, if_neg (by simp)]
    simp [Cursor.skip, NumberText.length]
  | negSucc m =>
    change (Nat.toDigits 10 (m + 1)).length ≤ Decimal.digitLimit at short
    have text : (toString (Int.negSucc m)).toList = '-' :: Nat.toDigits 10 (m + 1) := by
      rw [Int.toString_eq_repr, Int.repr, String.toList_append, Nat.toList_repr]
      rfl
    refine ⟨1 + (Nat.toDigits 10 (m + 1)).length, ?_⟩
    rw [numberAt_eq, text, of_minus_digits, read_digits short, if_neg (by simp)]
    simp [Cursor.skip, NumberText.length, Int.negSucc_eq, Nat.add_comm]

private theorem ne_of_inNumber {c d : Char} (number : Decimal.inNumber c)
    (other : Decimal.inNumber d = false) : c ≠ d := by
  rintro rfl
  rw [number] at other
  cases other

private theorem solid_of_inNumber {cs : List Char} (each : ∀ c ∈ cs, Decimal.inNumber c) :
    Solid cs := by
  intro c head
  have number := each c (List.mem_of_mem_head? head)
  have other : ∀ d, Decimal.inNumber d = false → c ≠ d := fun d => ne_of_inNumber number
  simp [blank, other ' ' rfl, other '\t' rfl, other '\n' rfl, other '\r' rfl]

private theorem unmarked_of_inNumber {cs : List Char} (each : ∀ c ∈ cs, Decimal.inNumber c) :
    cs.head? ≠ some '\uFEFF' := by
  intro head
  exact ne_of_inNumber (each _ (List.mem_of_mem_head? head)) rfl rfl

theorem valueAt_scalar {c : Char} (scalar : c ∉ ['"', '\x7b', '[']) (depth : Nat) (cs : List Char)
    (p : Nat) : valueAt (depth + 1) ⟨c :: cs, p⟩ = scalarAt ⟨c :: cs, p⟩ := by
  rw [valueAt]
  split <;> simp_all

private theorem scalarAt_of_inNumber {c : Char} {cs : List Char}
    (each : ∀ d ∈ c :: cs, Decimal.inNumber d) (more : c = '-' → cs ≠ []) (rest : List Char)
    (p : Nat) : scalarAt ⟨c :: cs ++ rest, p⟩ = numberAt ⟨c :: cs ++ rest, p⟩ := by
  obtain ⟨first, others⟩ := List.forall_mem_cons.mp each
  have other : ∀ d, Decimal.inNumber d = false → (d == c) = false := fun d letter =>
    beq_eq_false_iff_ne.mpr (ne_of_inNumber first letter).symm
  have second : ('-' == c && ['I', 'n', 'f', 'i', 'n', 'i', 't', 'y'].isPrefixOf (cs ++ rest)) =
      false := by
    by_cases minus : c = '-'
    · obtain ⟨d, tail, rfl⟩ := List.exists_cons_of_ne_nil (more minus)
      have digit : ('I' == d) = false :=
        beq_eq_false_iff_ne.mpr (ne_of_inNumber (others d List.mem_cons_self) rfl).symm
      simp [List.isPrefixOf, digit]
    · simp [Ne.symm minus]
  have none : words.find? (fun w => w.1.toList.isPrefixOf (c :: cs ++ rest)) = none := by
    simp [words, List.isPrefixOf, other 'n' rfl, other 't' rfl, other 'f' rfl, other 'N' rfl,
      other 'I' rfl, second]
  simp only [scalarAt, none]

private theorem valueAt_of_inNumber {c : Char} {cs : List Char}
    (each : ∀ d ∈ c :: cs, Decimal.inNumber d) (more : c = '-' → cs ≠ []) (depth : Nat)
    (rest : List Char) (p : Nat) :
    valueAt (depth + 1) ⟨c :: cs ++ rest, p⟩ = numberAt ⟨c :: cs ++ rest, p⟩ := by
  have first := each c List.mem_cons_self
  have scalar : c ∉ ['"', '\x7b', '['] := by
    simp only [List.mem_cons, List.not_mem_nil, or_false, not_or]
    exact ⟨ne_of_inNumber first rfl, ne_of_inNumber first rfl, ne_of_inNumber first rfl⟩
  rw [List.cons_append, valueAt_scalar scalar, ← List.cons_append]
  exact scalarAt_of_inNumber each more rest p

theorem Spells.cons {text : List Char} {v : Json} (spells : Spells text v) :
    ∃ c cs, text = c :: cs ∧ (c = '-' → cs ≠ []) := by
  obtain ⟨q, read⟩ := spells.whole
  cases text with
  | nil => cases read
  | cons c cs =>
    refine ⟨c, cs, rfl, ?_⟩
    rintro rfl rfl
    cases read

theorem Spells.finds_value {text rest : List Char} {v : Json} (spells : Spells text v)
    (ends : Ends rest) (depth : Nat) : Finds (valueAt (depth + 1)) text rest v := by
  intro p
  obtain ⟨c, cs, shape, more⟩ := spells.cons
  obtain ⟨q, read⟩ := spells.finds ends p
  have plain := spells.plain
  subst shape
  refine ⟨q, ?_⟩
  rw [valueAt_of_inNumber plain more depth rest p, read]

private theorem rest_of_numberAt {cs : List Char} {p : Nat} {v : Json} {c : Cursor}
    (read : numberAt ⟨cs, p⟩ = .ok (v, c)) : ∃ k, c.rest = cs.drop k := by
  rw [numberAt_eq] at read
  split at read
  · cases read
  · obtain ⟨place, -⟩ := NumberText.read_ok read ⟨[], 0⟩
    rw [place]
    exact ⟨_, rfl⟩

/-- A text of such characters that is read as a value is read as a number. -/
theorem spells_of_read {text : String} {v : Json}
    (plain : ∀ c ∈ text.toList, Decimal.inNumber c) (read : Json.read text = .ok v) :
    Spells text.toList v := by
  refine ⟨plain, ?_⟩
  obtain ⟨after, found, all⟩ := (read_eq_ok_iff (unmarked_of_inNumber plain)).mp read
  generalize text.toList = cs at plain found
  rw [skipSpace_solid (solid_of_inNumber plain)] at found
  cases cs with
  | nil => cases found
  | cons c cs =>
    have more : c = '-' → cs ≠ [] := by
      rintro rfl rfl
      cases found
    have value := valueAt_of_inNumber plain more (c :: cs).length [] 0
    rw [List.append_nil] at value
    rw [value] at found
    obtain ⟨k, left⟩ := rest_of_numberAt found
    have solid : Solid after.rest := by
      rw [left]
      exact solid_of_inNumber fun d mem => plain d (List.mem_of_mem_drop mem)
    have stays : after.skipSpace = after := skipSpace_solid solid after.position
    rw [stays] at all
    exact ⟨after.position, by rw [found, ← all]⟩

theorem Spells.read {text : String} {v : Json} (spells : Spells text.toList v) :
    Json.read text = .ok v :=
  read_of_finds (solid_of_inNumber spells.plain) (unmarked_of_inNumber spells.plain)
    (spells.finds_value ends_nil _)

end Json

end Chip8
