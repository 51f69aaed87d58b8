import Chip8.Decimal
import Chip8.Instruction
import Chip8.Journal
import Chip8.Text

set_option autoImplicit false
set_option relaxedAutoImplicit false

namespace Chip8.CommandLine

open Text.Quoted (quoted)

/-- A flag that takes a value. -/
inductive Flag where
  | config
  | preset
  | cpuHz
  | scale
  | seed
  | unknownOpcode
  | headless
  | logLevel
  deriving DecidableEq, Repr

namespace Flag

/-- The flags in the order in which the help lists them. -/
def all : List Flag := [config, preset, cpuHz, scale, seed, unknownOpcode, headless, logLevel]

def name : Flag → String
  | config => "--config"
  | preset => "--preset"
  | cpuHz => "--cpu-hz"
  | scale => "--scale"
  | seed => "--seed"
  | unknownOpcode => "--unknown-opcode"
  | headless => "--headless"
  | logLevel => "--log-level"

/-- The values that a flag is limited to; none if it takes any. -/
def choices : Flag → List String
  | preset => (Dialect.presets.map (·.1)).mergeSort fun a b => decide (a ≤ b)
  | unknownOpcode => UnknownPolicy.all.map UnknownPolicy.name
  | logLevel => Level.all.map Level.name
  | _ => []

end Flag

/-- The name of the program in its own messages. -/
def programName : String := "chip8vm"

def helpName : String := "--help"

/-- The short form of the flag that asks for help. -/
def helpShort : String := "-h"

def usageText : String :=
  "usage: chip8vm [-h] [--config FILE] [--preset \x7bcosmac-vip,modern\x7d]\n" ++
  "               [--cpu-hz N] [--scale N] [--seed SEED]\n" ++
  "               [--unknown-opcode \x7bhalt,skip\x7d] [--headless SECONDS]\n" ++
  "               [--log-level \x7bDEBUG,INFO,WARNING,ERROR\x7d]\n" ++
  "               rom\n"

def helpText : String :=
  usageText ++
  "\nCHIP-8 virtual machine\n" ++
  "\npositional arguments:\n" ++
  "  rom                   ROM image to run\n" ++
  "\noptions:\n" ++
  "  -h, --help            show this help message and exit\n" ++
  "  --config FILE         JSON machine configuration\n" ++
  "  --preset \x7bcosmac-vip,modern\x7d\n" ++
  "                        quirk preset (default: modern)\n" ++
  "  --cpu-hz N            instructions per second\n" ++
  "  --scale N             window pixels per CHIP-8 pixel\n" ++
  "  --seed SEED           seed for the CXNN random generator\n" ++
  "  --unknown-opcode \x7bhalt,skip\x7d\n" ++
  "                        what to do with an illegal instruction\n" ++
  "  --headless SECONDS    run without a window for SECONDS of emulated time,\n" ++
  "                        then print the display\n" ++
  "  --log-level \x7bDEBUG,INFO,WARNING,ERROR\x7d\n"

/-- What can be wrong with a command line. -/
inductive UsageError where
  /-- A shortened flag that several flags start with. -/
  | ambiguous (text : String) (candidates : List String)
  /-- A flag without the value that it takes. -/
  | missingValue (flag : Flag)
  /-- A value that is no whole number. -/
  | notAnInteger (flag : Flag) (text : String)
  /-- A value that is no number. -/
  | notANumber (flag : Flag) (text : String)
  /-- A value that is not among the choices. -/
  | notAChoice (flag : Flag) (text : String)
  /-- A value for the flag that takes none. -/
  | helpValue (text : String)
  /-- No program to run. -/
  | missingProgram
  /-- Arguments that have no meaning. -/
  | unrecognized (texts : List String)
  deriving DecidableEq, Repr

namespace UsageError

/-- The text of an error that concerns one flag. -/
def about (flag : Flag) (text : String) : String := "argument " ++ flag.name ++ ": " ++ text

def message : UsageError → String
  | ambiguous text candidates =>
    "ambiguous option: " ++ text ++ " could match " ++ ", ".intercalate candidates
  | missingValue flag => about flag "expected one argument"
  | notAnInteger flag text => about flag ("invalid int value: " ++ quoted text)
  | notANumber flag text => about flag ("invalid float value: " ++ quoted text)
  | notAChoice flag text =>
    about flag ("invalid choice: " ++ quoted text ++ " (choose from " ++
      ", ".intercalate (flag.choices.map quoted) ++ ")")
  | helpValue text =>
    "argument " ++ helpShort ++ "/" ++ helpName ++ ": ignored explicit argument " ++ quoted text
  | missingProgram => "the following arguments are required: rom"
  | unrecognized texts => "unrecognized arguments: " ++ " ".intercalate texts

end UsageError

end Chip8.CommandLine

/-!
What each argument of a command line is when looked at alone: a value, a flag, a call for help, or
a flag that does not exist. A flag may be shortened as long as one flag alone starts like it, and
may carry its value after an equals sign. After a double dash everything is a value.
-/

namespace Chip8.CommandLine

/-- An argument by itself. -/
inductive Item where
  | value (text : String)
  /-- A flag, with its value if it carries one. -/
  | flag (flag : Flag) (attached : Option String)
  | help
  /-- A call for help with a value, which it cannot have. -/
  | helpWith (text : String)
  /-- The double dash. -/
  | separator
  /-- A flag that does not exist. -/
  | unknown (text : String)
  deriving DecidableEq, Repr

namespace Item

/-- What a flag name stands for. -/
inductive Target where
  | help
  | flag (flag : Flag)
  deriving DecidableEq, Repr

def Target.name : Target → String
  | help => helpName
  | flag f => f.name

def targets : List Target := .help :: Flag.all.map .flag

/-- The targets whose names start like a text. -/
def startingWith (start : List Char) : List Target :=
  targets.filter fun t => start.isPrefixOf t.name.toList

/-- A target with the value that is attached to it. -/
def ofTarget : Target → Option String → Item
  | .help, none => .help
  | .help, some text => .helpWith text
  | .flag f, attached => .flag f attached

/-- What stands before the first equals sign, and what stands after it if there is one. -/
def splitEquals (cs : List Char) : List Char × Option String :=
  match cs.span (· != '=') with
  | (before, _ :: after) => (before, some (String.ofList after))
  | (before, []) => (before, none)

/-- What the characters after the short call for help make of it. -/
def ofHelpTail : List Char → Item
  | [] => .help
  | '-' :: cs => .helpWith (String.ofList ('-' :: cs))
  | 'h' :: '=' :: cs => .helpWith (String.ofList cs)
  | 'h' :: cs => ofHelpTail cs
  | _ => .help

def isPlainNumber (cs : List Char) : Bool :=
  let isDigit (c : Char) : Bool := (Text.Numeral.digitValue? c).isSome
  match cs.span isDigit with
  | (whole, []) => !whole.isEmpty
  | (_, '.' :: places) => !places.isEmpty && places.all isDigit
  | _ => false

/-- Whether characters are a minus sign and a plain number; a line may end after it. -/
def isNegativeNumber : List Char → Bool
  | '-' :: cs => isPlainNumber (if cs.getLast? = some '\n' then cs.dropLast else cs)
  | _ => false

/-- An argument that starts like a flag but names none in full. -/
def ofUnlisted (text : String) : Item :=
  if isNegativeNumber text.toList || text.toList.contains ' ' then .value text else .unknown text

def ofLong (text : String) : Except UsageError Item :=
  let (start, attached) := splitEquals text.toList
  match targets.find? fun t => t.name.toList = start with
  | some t => .ok (ofTarget t attached)
  | none =>
    match startingWith start with
    | [] => .ok (ofUnlisted text)
    | [t] => .ok (ofTarget t attached)
    | ts => .error (.ambiguous text (ts.map Target.name))

def ofText (text : String) : Except UsageError Item :=
  match text.toList with
  | '-' :: '-' :: _ => ofLong text
  | '-' :: 'h' :: '=' :: cs => .ok (.helpWith (String.ofList cs))
  | '-' :: 'h' :: cs => .ok (ofHelpTail cs)
  | '-' :: _ :: _ => .ok (ofUnlisted text)
  | _ => .ok (.value text)

def ofTexts : List String → Except UsageError (List Item)
  | [] => .ok []
  | text :: texts =>
    if text = "--" then .ok (.separator :: texts.map .value)
    else do
      let item ← ofText text
      let items ← ofTexts texts
      return item :: items

end Item

end Chip8.CommandLine

namespace Chip8.CommandLine

/-- The flags that were given, and how much is to be told. -/
structure Choices where
  config : Option String
  dialect : Option Dialect
  cpuHz : Option Int
  scale : Option Int
  seed : Option Int
  policy : Option UnknownPolicy
  headless : Option Float
  level : Level

def Choices.empty : Choices := ⟨none, none, none, none, none, none, none, .warning⟩

def integerFor (flag : Flag) (text : String) : Except UsageError Int :=
  (Decimal.integer text).mapError fun _ => .notAnInteger flag text

def choiceFor {α : Type} (flag : Flag) (text : String) (found : Option α) : Except UsageError α :=
  match found with
  | some a => .ok a
  | none => .error (.notAChoice flag text)

def Choices.give (c : Choices) (flag : Flag) (text : String) : Except UsageError Choices :=
  match flag with
  | .config => .ok { c with config := some text }
  | .preset => do
    let (_, dialect) ← choiceFor flag text (Dialect.presets.find? fun p => p.1 = text)
    return { c with dialect := some dialect }
  | .cpuHz => do return { c with cpuHz := some (← integerFor flag text) }
  | .scale => do return { c with scale := some (← integerFor flag text) }
  | .seed => do return { c with seed := some (← integerFor flag text) }
  | .unknownOpcode => do
    return { c with policy := some (← choiceFor flag text (UnknownPolicy.ofName? text)) }
  | .headless =>
    match Decimal.float? text with
    | some x => .ok { c with headless := some x }
    | none => .error (.notANumber flag text)
  | .logLevel => do return { c with level := ← choiceFor flag text (Level.ofName? text) }

/-- What a command line asks for. -/
structure Arguments where
  program : String
  choices : Choices

/-- Why there is nothing to run. -/
inductive Stop where
  | help
  | usage (reason : UsageError)

/-- What has been read of a command line. -/
structure Progress where
  program : Option String
  choices : Choices
  extras : List String

def Progress.start : Progress := ⟨none, .empty, []⟩

/-- Reads items in order. A double dash goes with the name of the program next to it. -/
def Progress.read (p : Progress) : List Item → Except Stop Progress
  | [] => .ok p
  | .help :: _ => .error .help
  | .helpWith text :: _ => .error (.usage (.helpValue text))
  | .flag f (some text) :: items =>
    match p.choices.give f text with
    | .error e => .error (.usage e)
    | .ok choices => { p with choices }.read items
  | .flag f none :: .value text :: items =>
    match p.choices.give f text with
    | .error e => .error (.usage e)
    | .ok choices => { p with choices }.read items
  | .flag f none :: _ => .error (.usage (.missingValue f))
  | .unknown text :: items => { p with extras := p.extras ++ [text] }.read items
  | .value text :: items =>
    match p.program, items with
    | none, .separator :: items => { p with program := some text }.read items
    | none, items => { p with program := some text }.read items
    | some _, items => { p with extras := p.extras ++ [text] }.read items
  | .separator :: items =>
    match p.program, items with
    | none, .value text :: items => { p with program := some text }.read items
    | _, items => { p with extras := p.extras ++ ["--"] }.read items

/-- What a command line asks for, once nothing is missing and nothing is left over. -/
def Progress.finish (p : Progress) : Except Stop Arguments :=
  match p.program, p.extras with
  | none, _ => .error (.usage .missingProgram)
  | some program, [] => .ok ⟨program, p.choices⟩
  | some _, extras => .error (.usage (.unrecognized extras))

def Arguments.parse (texts : List String) : Except Stop Arguments := do
  let items ← (Item.ofTexts texts).mapError .usage
  let progress ← Progress.start.read items
  progress.finish

end Chip8.CommandLine
