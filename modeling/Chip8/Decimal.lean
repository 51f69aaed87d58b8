set_option autoImplicit false
set_option relaxedAutoImplicit false

namespace Chip8.Text.Numeral

/-- The code points of the zeros; the other nine digits follow each. -/
def zeros : List Nat :=
  [ 0x30, 0x660, 0x6F0, 0x7C0, 0x966, 0x9E6, 0xA66, 0xAE6, 0xB66, 0xBE6, 0xC66, 0xCE6, 0xD66,
    0xDE6, 0xE50, 0xED0, 0xF20, 0x1040, 0x1090, 0x17E0, 0x1810, 0x1946, 0x19D0, 0x1A80, 0x1A90,
    0x1B50, 0x1BB0, 0x1C40, 0x1C50, 0xA620, 0xA8D0, 0xA900, 0xA9D0, 0xA9F0, 0xAA50, 0xABF0,
    0xFF10, 0x104A0, 0x10D30, 0x11066, 0x110F0, 0x11136, 0x111D0, 0x112F0, 0x11450, 0x114D0,
    0x11650, 0x116C0, 0x11730, 0x118E0, 0x11950, 0x11C50, 0x11D50, 0x11DA0, 0x16A60, 0x16AC0,
    0x16B50, 0x1D7CE, 0x1D7D8, 0x1D7E2, 0x1D7EC, 0x1D7F6, 0x1E140, 0x1E2F0, 0x1E950, 0x1FBF0 ]

/-- The value of a decimal digit of any script. -/
def digitValue? (c : Char) : Option Nat :=
  (zeros.find? fun z => z ≤ c.toNat && c.toNat < z + 10).map (c.toNat - ·)

/-- Whether a character is a blank of any script. -/
def isBlank (c : Char) : Bool :=
  let n := c.toNat
  (9 ≤ n && n ≤ 13) || (28 ≤ n && n ≤ 32) || n == 0x85 || n == 0xA0 || n == 0x1680 ||
    (0x2000 ≤ n && n ≤ 0x200A) || n == 0x2028 || n == 0x2029 || n == 0x202F || n == 0x205F ||
    n == 0x3000

/-- Whether a character is a blank that may surround a number. -/
def isPadding (c : Char) : Bool := c == ' ' || (9 ≤ c.toNat && c.toNat ≤ 13)

/-- One character in plain form; what no number holds becomes a question mark. -/
def plainChar (c : Char) : Char :=
  if c.toNat < 128 then (if isBlank c then ' ' else c)
  else match digitValue? c with
    | some d => Nat.digitChar d
    | none => if isBlank c then ' ' else '?'

/-- A list without the padding at both ends. -/
def strip (cs : List Char) : List Char :=
  ((cs.dropWhile isPadding).reverse.dropWhile isPadding).reverse

/-- The plain form of a text without the blanks around it. ASCII text is taken as it is. -/
def plain (cs : List Char) : List Char :=
  strip (if cs.all fun c => c.toNat < 128 then cs else cs.map plainChar)

end Chip8.Text.Numeral

/-!
Floating-point numbers as exact values `m * 2 ^ e`, and the roundings of exact quotients that turn
them into whole numbers and into decimals of fixed length.
-/

namespace Chip8.Decimal

/-- What a 64-bit floating-point number stands for. -/
inductive Binary64 where
  | nan
  | infinite (negative : Bool)
  | finite (negative : Bool) (m : Nat) (e : Int)
  deriving DecidableEq, Repr

namespace Binary64

def ofFloat (x : Float) : Binary64 :=
  let bits : Nat := x.toBits.toNat
  let negative := bits / 0x8000000000000000 = 1
  let exponent : Nat := bits / 0x10000000000000 % 0x800
  let fraction : Nat := bits % 0x10000000000000
  if exponent = 2047 then
    if fraction = 0 then .infinite negative else .nan
  else if exponent = 0 then .finite negative fraction (-1074)
  else .finite negative (0x10000000000000 + fraction) ((exponent : Int) - 1075)

end Binary64

/-- The numerator and denominator of `m * 2 ^ e`. -/
def fraction (m : Nat) (e : Int) : Nat × Nat :=
  if e < 0 then (m, 1 <<< e.natAbs) else (m <<< e.natAbs, 1)

/-- A quotient rounded to the nearest whole number, a half to the even neighbour. -/
def roundHalfEven (num den : Nat) : Nat :=
  let q := num / den
  let twice := 2 * (num % den)
  if twice < den ∨ (twice = den ∧ q % 2 = 0) then q else q + 1

/-- Why a floating-point number has no whole counterpart. -/
inductive NotWhole where
  | nan
  | infinite
  deriving DecidableEq, Repr

def signed (negative : Bool) (n : Nat) : Int := if negative then -(n : Int) else n

/-- The whole part of a floating-point number. -/
def truncate (x : Float) : Except NotWhole Int :=
  match Binary64.ofFloat x with
  | .nan => .error .nan
  | .infinite _ => .error .infinite
  | .finite negative m e =>
    let (num, den) := fraction m e
    .ok (signed negative (num / den))

/-- The whole number nearest to a floating-point number, a half going to the even one. -/
def nearest (x : Float) : Except NotWhole Int :=
  match Binary64.ofFloat x with
  | .nan => .error .nan
  | .infinite _ => .error .infinite
  | .finite negative m e =>
    let (num, den) := fraction m e
    .ok (signed negative (roundHalfEven num den))

/-- Decimal digits filled with zeros on the left up to a width. -/
def padDigits (width n : Nat) : List Char :=
  let ds := Nat.toDigits 10 n
  List.replicate (width - ds.length) '0' ++ ds

/-- A floating-point number with a fixed count of places, rounded from its exact value. -/
def fixed (places : Nat) (x : Float) : String :=
  match Binary64.ofFloat x with
  | .nan => "nan"
  | .infinite negative => if negative then "-inf" else "inf"
  | .finite negative m e =>
    let (num, den) := fraction m e
    let unit := Nat.pow 10 places
    let scaled := roundHalfEven (num * unit) den
    let whole := Nat.toDigits 10 (scaled / unit)
    let tail := if places = 0 then [] else '.' :: padDigits places (scaled % unit)
    String.ofList ((if negative then ['-'] else []) ++ whole ++ tail)

end Chip8.Decimal

namespace Chip8.Decimal

def isDigit (c : Char) : Bool := '0' ≤ c && c ≤ '9'

def digitsValue (ds : List Char) : Nat :=
  ds.foldl (fun n d => n * 10 + (d.toNat - '0'.toNat)) 0

/-- Characters without their underscores, if each stands between two digits. -/
def dropUnderscores? (previous : Bool) : List Char → Option (List Char)
  | [] => some []
  | '_' :: c :: cs =>
    if previous && isDigit c then (dropUnderscores? true cs).map (c :: ·) else none
  | c :: cs => if c == '_' then none else (dropUnderscores? (isDigit c) cs).map (c :: ·)

/-- A sign, if there is one, and what follows it. -/
def splitSign : List Char → Bool × List Char
  | '+' :: cs => (false, cs)
  | '-' :: cs => (true, cs)
  | cs => (false, cs)

/-- The most digits that a whole number may be written with. -/
def digitLimit : Nat := 4300

/-- Why a text is no whole number. -/
inductive NotAnInteger where
  | noLiteral
  | tooLong (digits : Nat)
  deriving DecidableEq, Repr

/-- The wording for a whole number that is written with too many digits. -/
def tooLongText (digits : Nat) : String :=
  "Exceeds the limit (" ++ toString digitLimit ++
    " digits) for integer string conversion: value has " ++ toString digits ++
    " digits; use sys.set_int_max_str_digits() to increase the limit"

/-- The whole number that a text spells. -/
def integer (s : String) : Except NotAnInteger Int :=
  let (negative, body) := splitSign (Text.Numeral.plain s.toList)
  match dropUnderscores? false body with
  | none => .error .noLiteral
  | some ds =>
    if ds.isEmpty || !ds.all isDigit then .error .noLiteral
    else if ds.length > digitLimit then .error (.tooLong ds.length)
    else .ok (if negative then -(digitsValue ds : Int) else digitsValue ds)

def infinity : Float := 1.0 / 0.0

/-- The floating-point number nearest to `n * 10 ^ exponent`. Numbers beyond the range are told
apart by their magnitude alone. -/
def scale (n : Nat) (exponent : Int) : Float :=
  if n = 0 then 0.0
  else
    let top := (Nat.toDigits 10 n).length + exponent
    if top > 310 then infinity
    else if top < -330 then 0.0
    else Float.ofScientific n (exponent < 0) exponent.natAbs

/-- The digits at the start of a list and what follows them. -/
def spanDigits (cs : List Char) : List Char × List Char := cs.span isDigit

/-- The exponent that a list spells after its mark, if it spells one to its end. -/
def exponent? (cs : List Char) : Option Int :=
  let (negative, ds) := splitSign cs
  if ds.isEmpty || !ds.all isDigit then none
  else some (if negative then -(digitsValue ds : Int) else digitsValue ds)

/-- The floating-point number that digits, a point and an exponent spell. -/
def unsignedFloat? (cs : List Char) : Option Float :=
  let (whole, rest) := spanDigits cs
  let (places, rest) := match rest with
    | '.' :: cs => spanDigits cs
    | cs => ([], cs)
  if whole.isEmpty && places.isEmpty then none
  else
    let n := digitsValue (whole ++ places)
    match rest with
    | [] => some (scale n (-(places.length : Int)))
    | c :: cs =>
      if c == 'e' || c == 'E' then
        (exponent? cs).map fun e => scale n (e - places.length)
      else none

/-- The floating-point number that a text spells. -/
def float? (s : String) : Option Float :=
  match dropUnderscores? false (Text.Numeral.plain s.toList) with
  | none => none
  | some cs =>
    let (negative, body) := splitSign cs
    let word := String.ofList (body.map Char.toLower)
    let magnitude :=
      if word = "inf" || word = "infinity" then some infinity
      else if word = "nan" then some (0.0 / 0.0)
      else unsignedFloat? body
    magnitude.map fun x => if negative then -x else x

end Chip8.Decimal

/-!
The shortest decimal that reads back as a floating-point number. The reals that round to
`m * 2 ^ e` form an interval; of the grids of one, two, three, … significant digits the first that
has a point in it gives the digits, and of two such points the nearer one.
-/

namespace Chip8.Decimal

/-- The interval of the reals that round to a floating-point number, and that number, all as
numerators over one denominator; the ends belong to it if `closed`. -/
structure Basin where
  low : Nat
  value : Nat
  high : Nat
  den : Nat
  closed : Bool
  deriving DecidableEq, Repr

/-- The interval around `m * 2 ^ e`. Below a power of two numbers lie twice as close. -/
def basin (m : Nat) (e : Int) : Basin :=
  let (unit, den) := fraction 1 (e - 2)
  let below := if m = 0x10000000000000 ∧ -1074 < e then 1 else 2
  ⟨(4 * m - below) * unit, 4 * m * unit, (4 * m + 2) * unit, den, m % 2 = 0⟩

/-- Whether `n * num / den` lies in an interval. -/
def Basin.has (b : Basin) (n num den : Nat) : Bool :=
  let point := n * num * b.den
  let low := b.low * den
  let high := b.high * den
  if b.closed then low ≤ point && point ≤ high else low < point && point < high

/-- The point of the grid of multiples of `num / den` that stands for the interval, if one lies in
it: the nearer neighbour of its middle, of two equally near ones the even one. -/
def Basin.gridPoint? (b : Basin) (num den : Nat) : Option Nat :=
  let q := b.value * den / (b.den * num)
  match b.has q num den, b.has (q + 1) num den with
  | false, false => none
  | true, false => some q
  | false, true => some (q + 1)
  | true, true => some (roundHalfEven (b.value * den) (b.den * num))

/-- The number of digits before the point of a positive quotient; for one below a tenth it is
minus the number of zeros after the point. -/
def magnitude (num den : Nat) : Int :=
  (Nat.toDigits 10 (num * Nat.pow 10 400 / den)).length - 400

/-- Tries the grids of more and more digits, from `digits` on, for a number of rounds. -/
def search (b : Basin) (top : Int) : (rounds digits : Nat) → Nat × Int
  | 0, _ => (0, 0)
  | rounds + 1, digits =>
    let exponent := top - digits
    let (num, den) :=
      if exponent < 0 then (1, Nat.pow 10 exponent.natAbs) else (Nat.pow 10 exponent.natAbs, 1)
    match b.gridPoint? num den with
    | some n => (n, exponent)
    | none => search b top rounds (digits + 1)

/-- The shortest digits of `m * 2 ^ e` for positive `m` as a whole number and the power of ten
that it is to be multiplied by. Seventeen digits always suffice. -/
def shortest (m : Nat) (e : Int) : Nat × Int :=
  let b := basin m e
  search b (magnitude b.value b.den) 17 1

/-- Digits without the zeros at their end, never fewer than one. -/
def dropZeros (ds : List Char) : List Char :=
  match (ds.reverse.dropWhile (· == '0')).reverse with
  | [] => ['0']
  | kept => kept

/-- Digits with a point after the first `point` of them, zeros filled in where digits lack. A
number without places keeps one zero after the point. -/
def positional (ds : List Char) (point : Int) : List Char :=
  if point ≤ 0 then '0' :: '.' :: (List.replicate point.natAbs '0' ++ ds)
  else
    let k := point.natAbs
    if ds.length ≤ k then ds ++ List.replicate (k - ds.length) '0' ++ ['.', '0']
    else ds.take k ++ '.' :: ds.drop k

/-- Digits with the point after the first and an exponent of at least two digits. -/
def scientific (ds : List Char) (exponent : Int) : List Char :=
  let tail := match ds.drop 1 with
    | [] => []
    | rest => '.' :: rest
  let sign := if exponent < 0 then '-' else '+'
  ds.take 1 ++ tail ++ ['e', sign] ++ padDigits 2 exponent.natAbs

/-- The text of a finite floating-point number: positional from `1e-4` up to `1e16`, with an
exponent outside. -/
def renderFinite (negative : Bool) (m : Nat) (e : Int) : String :=
  let sign := if negative then ['-'] else []
  let body :=
    if m = 0 then ['0', '.', '0']
    else
      let (n, exponent) := shortest m e
      let all := Nat.toDigits 10 n
      let point := all.length + exponent
      let ds := dropZeros all
      if -4 < point ∧ point ≤ 16 then positional ds point else scientific ds (point - 1)
  String.ofList (sign ++ body)

end Chip8.Decimal
