import Chip8.Decimal
import Chip8.Json.Basic
import Chip8.Text

set_option autoImplicit false
set_option relaxedAutoImplicit false

namespace Chip8.Json

def unicodeCode (n : Nat) : List Char :=
  '\\' :: 'u' :: Text.Hexadecimal.fill 4 (Nat.toDigits 16 n)

/-- A character of a string; what is not printable ASCII is escaped by its 16-bit codes. -/
def escapeChar (c : Char) : List Char :=
  if c == '"' then ['\\', '"']
  else if c == '\\' then ['\\', '\\']
  else if c == '\n' then ['\\', 'n']
  else if c == '\r' then ['\\', 'r']
  else if c == '\t' then ['\\', 't']
  else if c == '\x08' then ['\\', 'b']
  else if c == '\x0c' then ['\\', 'f']
  else if 32 ≤ c.toNat ∧ c.toNat < 127 then [c]
  else if c.toNat < 0x10000 then unicodeCode c.toNat
  else
    let n := c.toNat - 0x10000
    unicodeCode (0xD800 + n / 0x400) ++ unicodeCode (0xDC00 + n % 0x400)

def escapePiece : Text.Piece → List Char
  | .char c => escapeChar c
  | half => unicodeCode half.code

def renderPieces (ps : List Text.Piece) : String :=
  String.ofList ('"' :: ps.flatMap escapePiece ++ ['"'])

def renderString (s : String) : String := renderPieces (s.toList.map .char)

def renderFloat (x : Float) : String :=
  match Decimal.Binary64.ofFloat x with
  | .nan => "NaN"
  | .infinite negative => if negative then "-Infinity" else "Infinity"
  | .finite negative m e => Decimal.renderFinite negative m e

def renderScalar : Json → String
  | .null => "null"
  | .bool b => if b then "true" else "false"
  | .int n => toString n
  | .float x => renderFloat x
  | .string s => renderString s
  | .broken text => renderPieces text.pieces
  | .array _ => "[]"
  | .object _ => "\x7b\x7d"

mutual

def render : Json → String
  | .array items => "[" ++ ",".intercalate (renderItems items) ++ "]"
  | .object members => "\x7b" ++ ",".intercalate (renderMembers members) ++ "\x7d"
  | value => renderScalar value

def renderItems : List Json → List String
  | [] => []
  | item :: items => render item :: renderItems items

def renderMembers : List (String × Json) → List String
  | [] => []
  | (name, value) :: members =>
    (renderString name ++ ":" ++ render value) :: renderMembers members

end

/-- A line end and the indentation of a level, two spaces each. -/
def lineBreak (level : Nat) : String := String.ofList ('\n' :: List.replicate (2 * level) ' ')

/-- Lines between brackets, one level deeper than the brackets; nothing between empty ones. -/
def bracket (level : Nat) (left right : String) (lines : List String) : String :=
  if lines.isEmpty then left ++ right
  else
    left ++ lineBreak (level + 1) ++ ("," ++ lineBreak (level + 1)).intercalate lines ++
      lineBreak level ++ right

mutual

/-- A value on indented lines, itself at a level. -/
def renderAt (level : Nat) : Json → String
  | .array items => bracket level "[" "]" (renderItemsAt (level + 1) items)
  | .object members => bracket level "\x7b" "\x7d" (renderMembersAt (level + 1) members)
  | value => renderScalar value

def renderItemsAt (level : Nat) : List Json → List String
  | [] => []
  | item :: items => renderAt level item :: renderItemsAt level items

def renderMembersAt (level : Nat) : List (String × Json) → List String
  | [] => []
  | (name, value) :: members =>
    (renderString name ++ ": " ++ renderAt level value) :: renderMembersAt level members

end

def renderIndented (value : Json) : String := renderAt 0 value

end Chip8.Json
