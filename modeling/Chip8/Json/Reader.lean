import Chip8.Decimal
import Chip8.Json.Basic

/-!
Reading JSON text. Besides the standard values `NaN`, `Infinity` and `-Infinity` are numbers; of
members with one name the last counts. A refusal names the problem and the place of it.
-/

set_option autoImplicit false
set_option relaxedAutoImplicit false

namespace Chip8.Json

open Text (Piece)

/-- What is wrong at a place of a text. -/
inductive Problem where
  | value
  | name
  | colon
  | comma
  | unterminated
  | control
  | escape
  | unicodeEscape
  | extra
  | byteOrderMark
  deriving DecidableEq, Repr

def Problem.text : Problem → String
  | .value => "Expecting value"
  | .name => "Expecting property name enclosed in double quotes"
  | .colon => "Expecting ':' delimiter"
  | .comma => "Expecting ',' delimiter"
  | .unterminated => "Unterminated string starting at"
  | .control => "Invalid control character at"
  | .escape => "Invalid \\escape"
  | .unicodeEscape => "Invalid \\uXXXX escape"
  | .extra => "Extra data"
  | .byteOrderMark => "Unexpected UTF-8 BOM (decode using utf-8-sig)"

/-- Why a text is no JSON value: a problem at a position, or a whole number that is too long. -/
inductive ReadError where
  | malformed (problem : Problem) (position : Nat)
  | longInteger (digits : Nat)
  deriving DecidableEq, Repr

/-- What is left of a text and how many characters were read before it. -/
structure Cursor where
  rest : List Char
  position : Nat
  deriving DecidableEq, Repr

namespace Cursor

def skip (c : Cursor) (n : Nat) : Cursor := ⟨c.rest.drop n, c.position + n⟩

def skipSpace (c : Cursor) : Cursor :=
  let space := c.rest.takeWhile fun ch => ch == ' ' || ch == '\t' || ch == '\n' || ch == '\r'
  c.skip space.length

def fail {α : Type} (c : Cursor) (p : Problem) : Except ReadError α :=
  .error (.malformed p c.position)

end Cursor

def hexDigit? (c : Char) : Option Nat :=
  if '0' ≤ c && c ≤ '9' then some (c.toNat - '0'.toNat)
  else if 'a' ≤ c && c ≤ 'f' then some (c.toNat - 'a'.toNat + 10)
  else if 'A' ≤ c && c ≤ 'F' then some (c.toNat - 'A'.toNat + 10)
  else none

/-- The number that the first four characters spell in hexadecimal. -/
def fourHex? (cs : List Char) : Option Nat :=
  match cs with
  | a :: b :: c :: d :: _ => do
    let a ← hexDigit? a
    let b ← hexDigit? b
    let c ← hexDigit? c
    let d ← hexDigit? d
    return ((a * 16 + b) * 16 + c) * 16 + d
  | _ => none

/-- Reads a 16-bit code after its mark. The code must not end the text. -/
def unicodeEscape (c : Cursor) : Except ReadError (Piece × Cursor) :=
  let mark : Cursor := ⟨c.rest, c.position - 1⟩
  if c.rest.length < 5 then mark.fail .unicodeEscape
  else match fourHex? c.rest with
    | none => mark.fail .unicodeEscape
    | some code => .ok (.ofCode code, c.skip 4)

/-- The character that a short escape stands for. -/
def shortEscape? : Char → Option Char
  | '"' => some '"'
  | '\\' => some '\\'
  | '/' => some '/'
  | 'b' => some '\x08'
  | 'f' => some '\x0c'
  | 'n' => some '\n'
  | 'r' => some '\r'
  | 't' => some '\t'
  | _ => none

/-- Reads the pieces of a string that began at `start`, up to its closing quote. Every round
passes over a character, so a text has fewer rounds than characters. -/
def stringBody (start : Nat) : (rounds : Nat) → Cursor → List Piece →
    Except ReadError (List Piece × Cursor)
  | 0, _, _ => .error (.malformed .unterminated start)
  | rounds + 1, c, acc =>
    match c.rest with
    | [] => .error (.malformed .unterminated start)
    | '"' :: _ => .ok (acc.reverse, c.skip 1)
    | ['\\'] => .error (.malformed .unterminated start)
    | '\\' :: 'u' :: _ => do
      let (piece, c) ← unicodeEscape (c.skip 2)
      stringBody start rounds c (piece :: acc)
    | '\\' :: e :: _ =>
      match shortEscape? e with
      | some ch => stringBody start rounds (c.skip 2) (.char ch :: acc)
      | none => c.fail .escape
    | ch :: _ =>
      if ch.toNat < 32 then c.fail .control
      else stringBody start rounds (c.skip 1) (.char ch :: acc)

def stringAt (c : Cursor) : Except ReadError (List Piece × Cursor) :=
  stringBody c.position c.rest.length (c.skip 1) []

/-- The characters of the fraction at the start of a list: a point with digits after it. -/
def fractionPart : List Char → List Char
  | '.' :: cs =>
    match cs.takeWhile Decimal.isDigit with
    | [] => []
    | ds => '.' :: ds
  | _ => []

/-- The characters of the exponent at the start of a list: a mark, an optional sign, digits. -/
def exponentPart : List Char → List Char
  | [] => []
  | mark :: cs =>
    if mark == 'e' || mark == 'E' then
      let sign := match cs with
        | s :: _ => if s == '+' || s == '-' then [s] else []
        | [] => []
      match (cs.drop sign.length).takeWhile Decimal.isDigit with
      | [] => []
      | ds => mark :: sign ++ ds
    else []

/-- The digits of a whole number at the start of a list; a zero stands alone. -/
def wholePart (cs : List Char) : List Char :=
  match cs with
  | '0' :: _ => ['0']
  | _ => cs.takeWhile Decimal.isDigit

/-- Reads a number; one with a fraction or an exponent is a floating-point number. -/
def numberAt (c : Cursor) : Except ReadError (Json × Cursor) :=
  let sign := match c.rest with
    | '-' :: _ => ['-']
    | _ => []
  let body := c.rest.drop sign.length
  let whole := wholePart body
  if whole.isEmpty then c.fail .value
  else
    let fraction := fractionPart (body.drop whole.length)
    let exponent := exponentPart (body.drop (whole.length + fraction.length))
    let length := sign.length + whole.length + fraction.length + exponent.length
    let after := c.skip length
    if fraction.isEmpty && exponent.isEmpty then
      if whole.length > Decimal.digitLimit then .error (.longInteger whole.length)
      else
        let n : Int := Decimal.digitsValue whole
        .ok (.int (if sign.isEmpty then n else -n), after)
    else
      let places := fraction.drop 1
      let power := (Decimal.exponent? (exponent.drop 1)).getD 0
      let x := Decimal.scale (Decimal.digitsValue (whole ++ places)) (power - places.length)
      .ok (.float (if sign.isEmpty then x else -x), after)

/-- The words that stand for values. -/
def words : List (String × Json) :=
  [("null", .null), ("true", .bool true), ("false", .bool false), ("NaN", .float (0.0 / 0.0)),
    ("Infinity", .float Decimal.infinity), ("-Infinity", .float (-Decimal.infinity))]

def scalarAt (c : Cursor) : Except ReadError (Json × Cursor) :=
  match words.find? fun w => w.1.toList.isPrefixOf c.rest with
  | some (word, value) => .ok (value, c.skip word.length)
  | none => numberAt c

mutual

/-- Reads a value. No value nests deeper than its text is long, so the depth is the number of
characters at the start. -/
def valueAt : (depth : Nat) → Cursor → Except ReadError (Json × Cursor)
  | 0, c => c.fail .value
  | depth + 1, c =>
    match c.rest with
    | [] => c.fail .value
    | '"' :: _ => (stringAt c).map fun (ps, c) => (ofPieces ps, c)
    | '\x7b' :: _ =>
      let c := (c.skip 1).skipSpace
      match c.rest with
      | '\x7d' :: _ => .ok (.object [], c.skip 1)
      | _ => membersAt depth c []
    | '[' :: _ =>
      let c := (c.skip 1).skipSpace
      match c.rest with
      | ']' :: _ => .ok (.array [], c.skip 1)
      | _ => itemsAt depth c []
    | _ => scalarAt c

/-- Reads the members of an object up to its end. -/
def membersAt : (depth : Nat) → Cursor → List (String × Json) → Except ReadError (Json × Cursor)
  | 0, c, _ => c.fail .name
  | depth + 1, c, acc =>
    match c.rest with
    | '"' :: _ => do
      let (name, c) ← stringAt c
      let c := c.skipSpace
      match c.rest with
      | ':' :: _ =>
        let (value, c) ← valueAt depth (c.skip 1).skipSpace
        let acc := insert acc (nameOf name) value
        let c := c.skipSpace
        match c.rest with
        | '\x7d' :: _ => return (.object acc, c.skip 1)
        | ',' :: _ => membersAt depth (c.skip 1).skipSpace acc
        | _ => c.fail .comma
      | _ => c.fail .colon
    | _ => c.fail .name

/-- Reads the items of an array up to its end. -/
def itemsAt : (depth : Nat) → Cursor → List Json → Except ReadError (Json × Cursor)
  | 0, c, _ => c.fail .value
  | depth + 1, c, acc => do
    let (value, c) ← valueAt depth c
    let c := c.skipSpace
    match c.rest with
    | ']' :: _ => return (.array (value :: acc).reverse, c.skip 1)
    | ',' :: _ => itemsAt depth (c.skip 1).skipSpace (value :: acc)
    | _ => c.fail .comma

end

/-- Reads a text that holds one value and white space, however deep its values nest. A reader that
calls itself at each level gives up at some hundreds of them; that is left out here. -/
def read (text : String) : Except ReadError Json :=
  match text.toList with
  | '\uFEFF' :: _ => .error (.malformed .byteOrderMark 0)
  | cs => do
    let (value, c) ← valueAt (cs.length + 1) (Cursor.mk cs 0).skipSpace
    let c := c.skipSpace
    if c.rest.isEmpty then return value else c.fail .extra

/-- The line and column of a position, both counted from one. -/
def place (text : String) (position : Nat) : Nat × Nat :=
  let before := text.toList.take position
  (before.countP (· == '\n') + 1, (before.reverse.takeWhile (· != '\n')).length + 1)

def ReadError.message (text : String) : ReadError → String
  | .malformed problem position =>
    let (line, column) := place text position
    problem.text ++ ": line " ++ toString line ++ " column " ++ toString column ++
      " (char " ++ toString position ++ ")"
  | .longInteger digits => Decimal.tooLongText digits

end Chip8.Json
