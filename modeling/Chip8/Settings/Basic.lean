import Chip8.Json.Basic
import Chip8.Json.Printer
import Chip8.Json.Reader
import Chip8.Pacing
import Chip8.Settings.Members
import Chip8.Text

set_option autoImplicit false
set_option relaxedAutoImplicit false

/-!
The settings of a machine and its window. They are read from JSON with defaults, presets and
overrides layered in that order, and written back with every value as it was given.
-/

namespace Chip8

/-- What can be set. Numbers are kept as they were given; a title and a seed may be any value. -/
structure Settings where
  cpuHz : Json
  timerHz : Json
  stackDepth : Json
  policy : UnknownPolicy
  seed : Json
  dialect : Dialect
  scale : Json
  title : Json

namespace Settings

def default : Settings where
  cpuHz := .int 500
  timerHz := .int 60
  stackDepth := .int 16
  policy := .halt
  seed := .null
  dialect := .modern
  scale := .int 10
  title := .string "CHIP-8 Emulator"

/-- Why values are no settings. -/
inductive Error where
  | flags (reason : FlagsError)
  | members (reason : MembersError)
  | unknownPreset (name : Json)
  | unhashablePreset (type : String)
  | unexpectedField (name : String)
  | foreignField
  | repeatedField (function name : String)
  | repeatedFlags
  | badPolicy (value : Json)
  | notComparable (type : String)
  | rateNotPositive
  | depthNotPositive
  | scaleNotPositive

def quoteScalar : Json → String
  | .null => "None"
  | .bool b => if b then "True" else "False"
  | .int n => toString n
  | .float x =>
    match Decimal.Binary64.ofFloat x with
    | .nan => "nan"
    | .infinite negative => if negative then "-inf" else "inf"
    | .finite negative m e => Decimal.renderFinite negative m e
  | .string s => Text.Quoted.quoted s
  | .broken text => Text.Quoted.quotedPieces text.pieces
  | .array _ => "[]"
  | .object _ => "\x7b\x7d"

mutual

/-- The text of a value in messages, collections item by item. -/
def quote : Json → String
  | .array items => "[" ++ ", ".intercalate (quoteItems items) ++ "]"
  | .object members => "\x7b" ++ ", ".intercalate (quoteMembers members) ++ "\x7d"
  | value => quoteScalar value

def quoteItems : List Json → List String
  | [] => []
  | item :: items => quote item :: quoteItems items

def quoteMembers : List (String × Json) → List String
  | [] => []
  | (name, value) :: members =>
    (Text.Quoted.quoted name ++ ": " ++ quote value) :: quoteMembers members

end

namespace Error

def family : Error → Misuse.Family
  | flags reason => reason.family
  | members reason => reason.family
  | unhashablePreset _ | unexpectedField _ | foreignField | repeatedField _ _ | repeatedFlags
  | notComparable _ => .type
  | unknownPreset _ | badPolicy _ | rateNotPositive | depthNotPositive | scaleNotPositive =>
    .value

def message : Error → String
  | flags reason => reason.message
  | members reason => reason.message
  | unknownPreset name =>
    "Unknown preset " ++ quote name ++ " (choose from " ++
      ", ".intercalate (Dialect.presets.map (·.1)) ++ ")"
  | unhashablePreset type => "unhashable type: '" ++ type ++ "'"
  | unexpectedField name =>
    "MachineConfig.__init__() got an unexpected keyword argument '" ++ name ++ "'"
  | foreignField => "keywords must be strings"
  | repeatedField function name =>
    "MachineConfig." ++ function ++ "() got multiple values for argument '" ++ name ++ "'"
  | repeatedFlags =>
    "chip8vm.config.MachineConfig() got multiple values for keyword argument 'quirks'"
  | badPolicy value =>
    "unknown_opcode must be one of " ++
      ", ".intercalate (UnknownPolicy.all.map UnknownPolicy.name) ++ ", got " ++ quote value
  | notComparable type =>
    "'<=' not supported between instances of '" ++ type ++ "' and 'int'"
  | rateNotPositive => "cpu_hz and timer_hz must be positive"
  | depthNotPositive => "stack_depth must be positive"
  | scaleNotPositive => "scale must be positive"

end Error

/-- Refuses a value that is no positive number; what is said of a number that is not positive is
up to the caller. -/
def checkPositive (value : Json) (otherwise : Error) : Except Error Unit :=
  match value.number? with
  | none => .error (.notComparable value.typeName)
  | some n => if n.nonPositive then .error otherwise else .ok ()

/-- Refuses settings with a number that is not positive: the rates first, then the depth of the
stack, then the scale. -/
def validate (s : Settings) : Except Error Unit := do
  checkPositive s.cpuHz .rateNotPositive
  checkPositive s.timerHz .rateNotPositive
  checkPositive s.stackDepth .depthNotPositive
  checkPositive s.scale .scaleNotPositive

/-- The names of the fields that a caller may give besides the dialect. -/
def fieldNames : List String :=
  ["cpu_hz", "timer_hz", "stack_depth", "unknown_opcode", "seed", "scale", "title"]

def policyOf (value : Json) : Except Error UnknownPolicy :=
  match value with
  | .string name =>
    match UnknownPolicy.ofName? name with
    | some policy => .ok policy
    | none => .error (.badPolicy value)
  | _ => .error (.badPolicy value)

/-- What is said of a name that is no field. One of them is taken by the settings themselves. -/
def misnamed (name : String) : Error :=
  if name = "self" then .repeatedField "__init__" name else .unexpectedField name

def fieldOf (members : List (String × Json)) (name : String) (default : Json) : Json :=
  (Json.find? members name).getD default

/-- Settings of a dialect and fields. Every name must be that of a field before any value is
looked at. -/
def ofFields (dialect : Dialect) (ms : Members) : Except Error Settings :=
  if !ms.foreign.isEmpty then .error .foreignField
  else match ms.named.find? fun m => !fieldNames.contains m.1 with
    | some (name, _) => .error (misnamed name)
    | none => do
      let field := fieldOf ms.named
      let policy ← policyOf (field "unknown_opcode" (.string default.policy.name))
      let settings : Settings := {
        cpuHz := field "cpu_hz" default.cpuHz
        timerHz := field "timer_hz" default.timerHz
        stackDepth := field "stack_depth" default.stackDepth
        policy
        seed := field "seed" default.seed
        dialect
        scale := field "scale" default.scale
        title := field "title" default.title }
      settings.validate
      return settings

def preset (name : Json) : Except Error Dialect :=
  match name with
  | .string s =>
    match Dialect.presets.find? fun p => p.1 = s with
    | some p => .ok p.2
    | none => .error (.unknownPreset name)
  | _ =>
    if hashable name then .error (.unknownPreset name)
    else .error (.unhashablePreset name.typeName)

/-- The settings of a preset with some fields changed. -/
def ofPreset (name : Json) (overrides : List (String × Json)) : Except Error Settings := do
  match overrides.find? fun m => m.1 = "cls" || m.1 = "name" with
  | some (name, _) => .error (.repeatedField "for_preset" name)
  | none => pure ()
  let dialect ← preset name
  match Json.find? overrides "quirks" with
  | some _ => .error .repeatedFlags
  | none => ofFields dialect ⟨overrides, []⟩

/-- The settings of a value: flags over those of its preset, other fields over the defaults. A
preset that counts as false is no preset. -/
def ofJson (value : Json) : Except Error Settings := do
  let ms ← (Members.ofJson value).mapError .members
  let flags := fieldOf ms.named "quirks" (.object [])
  let name := fieldOf ms.named "preset" .null
  let fields := Json.erase (Json.erase ms.named "quirks") "preset"
  let base ← if name.truthy then preset name else .ok default.dialect
  let start : Members := ⟨base.flags.map fun (name, b) => (name, .bool b), []⟩
  let merged ← (start.merge flags).mapError .members
  let dialect ← (dialectOfMembers merged).mapError .flags
  ofFields dialect { ms with named := fields }

/-- The settings as members, in the order in which they are written. -/
def toMembers (s : Settings) : List (String × Json) :=
  [ ("cpu_hz", s.cpuHz), ("timer_hz", s.timerHz), ("stack_depth", s.stackDepth),
    ("unknown_opcode", .string s.policy.name), ("seed", s.seed), ("quirks", s.dialect.toJson),
    ("scale", s.scale), ("title", s.title) ]

def toJson (s : Settings) : Json := .object s.toMembers

def save (s : Settings) : String := s.toJson.renderIndented

end Settings

end Chip8

namespace Chip8.Settings

/-- Why a text or a file holds no settings. -/
inductive LoadError where
  | encoding (reason : Text.Utf8.Error)
  | json (text : String) (reason : Json.ReadError)
  | settings (reason : Error)

def LoadError.message : LoadError → String
  | .encoding reason => reason.message
  | .json text reason => reason.message text
  | .settings reason => reason.message

/-- The settings of a text, whose lines may end in any of the usual ways. -/
def parse (text : String) : Except LoadError Settings := do
  let text := String.ofList (Text.Utf8.unifyLines text.toList)
  let value ← (Json.read text).mapError (.json text)
  (ofJson value).mapError .settings

def load (bytes : List UInt8) : Except LoadError Settings := do
  let text ← (Text.Utf8.decode bytes).mapError .encoding
  parse text

end Chip8.Settings

/-!
Building a machine and its pacer from settings. Settings can be valid and still ask for what no
machine has, such as a stack of two and a half slots.
-/

namespace Chip8.Settings

def stackOf (depth : Json) : Except Misuse CallStack :=
  match depth with
  | .int n => CallStack.ofDepth n
  | _ => .error .notADepth

/-- Why a text that holds half a pair is not written as bytes. -/
def unwritten (text : Text.Broken) : Misuse :=
  let isHalf (p : Text.Piece) : Bool := p.char?.isNone
  let start := (text.pieces.takeWhile fun p => !isHalf p).length
  let halves := (text.pieces.drop start).takeWhile isHalf
  .loneHalves ((halves.head?.map Text.Piece.code).getD 0) start halves.length

/-- The random stream of a seed. A seed that is no whole number leaves the choice open, and the
stream of zero is taken; a text is written as bytes first. -/
def randomOf (seed : Json) : Except Misuse Twister :=
  match seed with
  | .int n => .ok (.ofSeed n)
  | .bool b => .ok (.ofSeed (if b then 1 else 0))
  | .array _ | .object _ => .error .notASeed
  | .broken text => .error (unwritten text)
  | _ => .ok (.ofSeed 0)

def machine (s : Settings) : Except Misuse Machine := do
  let stack ← stackOf s.stackDepth
  let random ← randomOf s.seed
  return .fresh s.dialect s.policy stack random

def pacer (s : Settings) : Except Misuse (Pacer Float) :=
  Pacer.ofRates s.cpuHz s.timerHz Pacer.usualLongest

end Chip8.Settings
