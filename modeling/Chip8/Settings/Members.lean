import Chip8.Fault
import Chip8.Instruction
import Chip8.Json.Basic
import Chip8.Text

set_option autoImplicit false
set_option relaxedAutoImplicit false

namespace Chip8

/-- The name of the type of a value in messages. -/
def Json.typeName : Json → String
  | .null => "NoneType"
  | .bool _ => "bool"
  | .int _ => "int"
  | .float _ => "float"
  | .string _ | .broken _ => "str"
  | .array _ => "list"
  | .object _ => "dict"

namespace Settings

/-- Members by name, and the types of the names that are no text. -/
structure Members where
  named : List (String × Json)
  foreign : List String

/-- Why a value has no members. -/
inductive MembersError where
  | notIterable (type : String)
  | notAPair (index : Nat)
  | pairLength (index length : Nat)
  | unhashable (type : String)
  deriving DecidableEq, Repr

namespace MembersError

def family : MembersError → Misuse.Family
  | pairLength _ _ => .value
  | _ => .type

def message : MembersError → String
  | notIterable type => "'" ++ type ++ "' object is not iterable"
  | notAPair index =>
    "cannot convert dictionary update sequence element #" ++ toString index ++ " to a sequence"
  | pairLength index length =>
    "dictionary update sequence element #" ++ toString index ++ " has length " ++
      toString length ++ "; 2 is required"
  | unhashable type => "unhashable type: '" ++ type ++ "'"

end MembersError

/-- Whether a value can be a name. -/
def hashable : Json → Bool
  | .array _ => false
  | .object _ => false
  | _ => true

namespace Members

def put (ms : Members) (name value : Json) : Except MembersError Members :=
  match name with
  | .string s => .ok { ms with named := Json.insert ms.named s value }
  | .broken text => .ok { ms with named := Json.insert ms.named (Json.nameOf text.pieces) value }
  | _ =>
    if hashable name then .ok { ms with foreign := ms.foreign ++ [name.typeName] }
    else .error (.unhashable name.typeName)

/-- What walking through a value yields: items, characters, or the names of members. -/
def walk? : Json → Option (List Json)
  | .array items => some items
  | .string s => some (s.toList.map fun c => .string (String.singleton c))
  | .broken text => some (text.pieces.map fun p => Json.ofPieces [p])
  | .object members => some (members.map fun m => .string m.1)
  | _ => none

/-- Members with those that a list of pairs names, later ones winning; `index` counts the pairs. -/
def putPairs (ms : Members) (index : Nat) : List Json → Except MembersError Members
  | [] => .ok ms
  | item :: items =>
    match walk? item with
    | none => .error (.notAPair index)
    | some [name, value] => do
      let ms ← ms.put name value
      ms.putPairs (index + 1) items
    | some parts => .error (.pairLength index parts.length)

def merge (ms : Members) (value : Json) : Except MembersError Members :=
  match value with
  | .object members =>
    .ok { ms with named := members.foldl (fun acc m => Json.insert acc m.1 m.2) ms.named }
  | _ =>
    match walk? value with
    | none => .error (.notIterable value.typeName)
    | some items => ms.putPairs 0 items

def ofJson (value : Json) : Except MembersError Members := merge ⟨[], []⟩ value

end Members

end Settings

end Chip8

namespace Chip8

/-- The flags of a dialect by name, in the order in which they are written. -/
def Dialect.flags (d : Dialect) : List (String × Bool) :=
  [ ("clip_sprites", d.clipSprites), ("vf_reset", d.logicClearsFlag),
    ("shift_uses_vy", d.shiftReadsY), ("jump_uses_vx", d.jumpReadsX),
    ("load_store_increments_index", d.blockMovesIndex),
    ("index_overflow_flag", d.indexSetsFlag) ]

def Dialect.flagNames : List String := Dialect.modern.flags.map (·.1)

def Dialect.toJson (d : Dialect) : Json := .object (d.flags.map fun (name, b) => (name, .bool b))

namespace Settings

/-- Why members are no dialect. -/
inductive FlagsError where
  | members (reason : MembersError)
  | unknownNames (names : List String)
  | foreignName (type : String)
  | notFlags (names : List String)
  | noMembers
  deriving DecidableEq, Repr

namespace FlagsError

def family : FlagsError → Misuse.Family
  | members reason => reason.family
  | unknownNames _ => .value
  | foreignName _ => .type
  | notFlags _ => .value
  | noMembers => .attribute

def message : FlagsError → String
  | members reason => reason.message
  | unknownNames names => "Unknown quirks: " ++ ", ".intercalate names
  | foreignName type => "sequence item 0: expected str instance, " ++ type ++ " found"
  | notFlags names => "Quirks must be true or false: " ++ ", ".intercalate names
  | noMembers => "a value without members"

end FlagsError

def sortNames (names : List String) : List String := names.mergeSort fun a b => decide (a ≤ b)

def distinctNames (names : List String) : List String := (sortNames names).eraseDups

def unknownFlags (names : List String) : List String :=
  distinctNames (names.filter fun name => !Dialect.flagNames.contains name)

def checkNames (names : List String) (foreign : List String) : Except FlagsError Unit :=
  match foreign, unknownFlags names with
  | type :: _, _ => .error (.foreignName type)
  | [], [] => .ok ()
  | [], unknown => .error (.unknownNames unknown)

def isFlag : Json → Bool
  | .bool _ => true
  | _ => false

/-- A flag among members, or its value in the modern dialect. -/
def flagOf (members : List (String × Json)) (name : String) (default : Bool) : Bool :=
  match Json.find? members name with
  | some (.bool b) => b
  | _ => default

/-- The dialect of members, in which flags that are not named are as in the modern dialect. -/
def dialectOfMembers (ms : Members) : Except FlagsError Dialect := do
  checkNames (ms.named.map (·.1)) ms.foreign
  match ms.named.filter fun m => !isFlag m.2 with
  | [] =>
    let flag := flagOf ms.named
    return {
      clipSprites := flag "clip_sprites" Dialect.modern.clipSprites
      logicClearsFlag := flag "vf_reset" Dialect.modern.logicClearsFlag
      shiftReadsY := flag "shift_uses_vy" Dialect.modern.shiftReadsY
      jumpReadsX := flag "jump_uses_vx" Dialect.modern.jumpReadsX
      blockMovesIndex := flag "load_store_increments_index" Dialect.modern.blockMovesIndex
      indexSetsFlag := flag "index_overflow_flag" Dialect.modern.indexSetsFlag }
  | bad => .error (.notFlags (sortNames (bad.map (·.1))))

/-- The names that are no text among the items of a walk, by type. -/
def foreignNames (items : List Json) : List String :=
  items.filterMap fun item =>
    match item with
    | .string _ | .broken _ => none
    | other => some other.typeName

def textNames (items : List Json) : List String :=
  items.filterMap fun item =>
    match item with
    | .string s => some s
    | .broken text => some (Json.nameOf text.pieces)
    | _ => none

/-- The dialect of a value. Names are looked at before it matters whether the value has members
at all. -/
def dialectOfJson (value : Json) : Except FlagsError Dialect :=
  match value with
  | .object members => dialectOfMembers ⟨members, []⟩
  | _ =>
    match Members.walk? value with
    | none => .error (.members (.notIterable value.typeName))
    | some items =>
      match items.find? fun item => !hashable item with
      | some item => .error (.members (.unhashable item.typeName))
      | none => do
        checkNames (textNames items) (foreignNames items)
        .error .noMembers

end Settings

end Chip8
