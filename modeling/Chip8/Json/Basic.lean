import Chip8.Decimal
import Chip8.Fault
import Chip8.Text

set_option autoImplicit false
set_option relaxedAutoImplicit false

namespace Chip8

/-- A JSON value. -/
inductive Json where
  | null
  | bool (b : Bool)
  | int (n : Int)
  | float (x : Float)
  | string (s : String)
  /-- A string that holds half a pair. -/
  | broken (text : Text.Broken)
  | array (items : List Json)
  | object (members : List (String × Json))
  deriving Inhabited

namespace Json

/-- Members with one more: a name that is there already keeps its place and takes the new value. -/
def insert (members : List (String × Json)) (name : String) (value : Json) :
    List (String × Json) :=
  match members with
  | [] => [(name, value)]
  | (k, v) :: rest => if k = name then (k, value) :: rest else (k, v) :: insert rest name value

def find? (members : List (String × Json)) (name : String) : Option Json :=
  (members.find? fun m => m.1 = name).map (·.2)

/-- Members without those of a name. -/
def erase (members : List (String × Json)) (name : String) : List (String × Json) :=
  members.filter fun m => m.1 ≠ name

/-- The string of pieces of text. -/
def ofPieces (ps : List Text.Piece) : Json :=
  match whole : Text.chars? (Text.join ps) with
  | some cs => .string (String.ofList cs)
  | none => .broken ⟨Text.join ps, Text.join_join ps, whole⟩

/-- The name that pieces of text spell. Half a pair is not kept: no setting has such a name. -/
def nameOf (ps : List Text.Piece) : String := String.ofList ((Text.join ps).map Text.Piece.shown)

/-- Whether a value counts as true: empty text, empty collections, zero, null and false do not. -/
def truthy : Json → Bool
  | null => false
  | bool b => b
  | int n => n ≠ 0
  | float x => !(x == 0.0)
  | string s => s ≠ ""
  | broken _ => true
  | array items => !items.isEmpty
  | object members => !members.isEmpty

end Json

end Chip8

namespace Chip8

/-- A whole or floating-point number. -/
inductive Number where
  | int (n : Int)
  | float (x : Float)

namespace Number

def nonPositive : Number → Bool
  | int n => n ≤ 0
  | float x => x ≤ 0.0

/-- The nearest floating-point number, if the number is within range. -/
def toFloat? : Number → Option Float
  | int n =>
    let x := Float.ofInt n
    if x.isInf then none else some x
  | float x => some x

def times : Number → Nat → Number
  | int n, k => int (n * k)
  | float x, k => float (x * Float.ofNat k)

def minus : Number → Nat → Number
  | int n, k => int (n - k)
  | float x, k => float (x - Float.ofNat k)

def toJson : Number → Json
  | int n => .int n
  | float x => .float x

end Number

def Json.number? : Json → Option Number
  | .int n => some (.int n)
  | .float x => some (.float x)
  | .bool b => some (.int (if b then 1 else 0))
  | _ => none

end Chip8

namespace Chip8

/-- Why a value stands for no whole number. -/
inductive WholeError where
  | nan
  | infinite
  /-- Text that spells no number, as messages show it. -/
  | noLiteral (shown : String)
  | tooLong (digits : Nat)
  | noNumber
  deriving DecidableEq, Repr

namespace WholeError

def family : WholeError → Misuse.Family
  | nan | noLiteral _ | tooLong _ => .value
  | infinite => .overflow
  | noNumber => .type

def message : WholeError → String
  | nan => "cannot convert float NaN to integer"
  | infinite => "cannot convert float infinity to integer"
  | noLiteral shown => "invalid literal for int() with base 10: " ++ shown
  | tooLong digits => Decimal.tooLongText digits
  | noNumber => "a number is required"

def ofNotWhole : Decimal.NotWhole → WholeError
  | .nan => nan
  | .infinite => infinite

end WholeError

def Json.whole : Json → Except WholeError Int
  | .int n => .ok n
  | .bool b => .ok (if b then 1 else 0)
  | .float x => (Decimal.truncate x).mapError .ofNotWhole
  | .string s =>
    match Decimal.integer s with
    | .ok n => .ok n
    | .error .noLiteral => .error (.noLiteral (Text.Quoted.quoted s))
    | .error (.tooLong digits) => .error (.tooLong digits)
  | .broken text => .error (.noLiteral (Text.Quoted.quotedPieces text.pieces))
  | _ => .error .noNumber

end Chip8
