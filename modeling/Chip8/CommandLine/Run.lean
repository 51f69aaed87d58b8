import Chip8.CommandLine.Arguments
import Chip8.Machine.Watched
import Chip8.Settings.Basic
import Chip8.Text
import Chip8.Window

set_option autoImplicit false
set_option relaxedAutoImplicit false

namespace Chip8.CommandLine

/-- Why a name leads to no bytes. -/
inductive FileError where
  /-- The name holds a character that no name can hold. -/
  | invalidName
  /-- A refusal of the system, with its number. -/
  | refused (code : Nat) (text : String)
  deriving DecidableEq, Repr

namespace FileError

def missing : FileError := refused 2 "No such file or directory"

/-- The way leads through something that is no directory. -/
def notADirectory : FileError := refused 20 "Not a directory"

def directory : FileError := refused 21 "Is a directory"

def nameTooLong : FileError := refused 36 "File name too long"

def message (name : String) : FileError → String
  | invalidName => "embedded null byte"
  | refused code text =>
    "[Errno " ++ toString code ++ "] " ++ text ++ ": " ++ Text.Quoted.quoted name

end FileError

abbrev Files := String → Except FileError (List UInt8)

/-- Files by the path that leads to them from where the program runs. -/
structure Folder where
  files : List (List String × List UInt8)

namespace Folder

/-- The most bytes of a part of a path. -/
def partLimit : Nat := 255

/-- The bytes that a path may not reach. -/
def pathLimit : Nat := 4096

def parts (path : String) : List String :=
  let step (c : Char) : List (List Char) → List (List Char)
    | [] => if c = '/' then [[], []] else [[c]]
    | part :: rest => if c = '/' then [] :: part :: rest else (c :: part) :: rest
  (path.toList.foldr step [[]]).map String.ofList

def ofList (files : List (String × List UInt8)) : Folder :=
  let named (part : String) : Bool := part ≠ "" ∧ part ≠ "."
  ⟨files.map fun (path, content) => ((parts path).filter named, content)⟩

/-- Whether some file lies below a place. -/
def isDirectory (f : Folder) (place : List String) : Bool :=
  place.isEmpty || f.files.any fun (path, _) => place.isPrefixOf path && path ≠ place

def content? (f : Folder) (place : List String) : Option (List UInt8) :=
  (f.files.find? fun (path, _) => path = place).map (·.2)

/-- What the parts of a path lead to from above the folder, where directories are all there is. -/
def above (rest : List String) : Except FileError (List UInt8) :=
  if rest.all fun part => part = "" ∨ part = "." ∨ part = ".." then .error .directory
  else .error .missing

/-- Follows the parts of a path from a directory on. -/
def follow (f : Folder) (place : List String) : List String → Except FileError (List UInt8)
  | [] => .error .directory
  | part :: rest =>
    if part.utf8ByteSize > partLimit then .error .nameTooLong
    else if part = "" ∨ part = "." then f.follow place rest
    else if part = ".." then
      if place.isEmpty then above rest else f.follow place.dropLast rest
    else
      let next := place ++ [part]
      if f.isDirectory next then f.follow next rest
      else
        match f.content? next, rest with
        | none, _ => .error .missing
        | some content, [] => .ok content
        | some _, _ :: _ => .error .notADirectory

def read (f : Folder) : Files := fun name =>
  if name.toList.contains '\x00' then .error .invalidName
  else if name = "" then .error .missing
  else if name.utf8ByteSize ≥ pathLimit then .error .nameTooLong
  else
    match parts name with
    | "" :: rest => above rest
    | path => f.follow [] path

end Folder

end Chip8.CommandLine

namespace Chip8.CommandLine

/-- Why a command line leads to no settings. -/
inductive LayersError where
  | file (name : String) (reason : FileError)
  | content (reason : Settings.LoadError)
  | settings (reason : Settings.Error)

def LayersError.message : LayersError → String
  | file name reason => reason.message name
  | content reason => reason.message
  | settings reason => reason.message

/-- The settings below the flags. An empty name is that of no file. -/
def Choices.base (c : Choices) (files : Files) : Except LayersError Settings :=
  match c.config with
  | none => .ok .default
  | some name =>
    if name = "" then .ok .default
    else do
      let bytes ← (files name).mapError (.file name)
      (Settings.load bytes).mapError .content

def Choices.over (c : Choices) (s : Settings) : Settings :=
  { s with
    dialect := c.dialect.getD s.dialect
    cpuHz := (c.cpuHz.map Json.int).getD s.cpuHz
    scale := (c.scale.map Json.int).getD s.scale
    seed := (c.seed.map Json.int).getD s.seed
    policy := c.policy.getD s.policy }

/-- The settings of a run, checked once the flags are in place. -/
def Choices.settings (c : Choices) (files : Files) : Except LayersError Settings := do
  let base ← c.base files
  let s := c.over base
  s.validate.mapError .settings
  return s

end Chip8.CommandLine

/-!
A run of the program from its command line to its end: what it prints, what it tells on the side,
and how it ends. A run without a window lets the machine go on for a stretch of time and prints the
display; a run with one answers the events that happen to it.
-/

namespace Chip8.CommandLine

/-- What ends a run without an exit code. -/
inductive Crash where
  | misuse (reason : Misuse)
  | count (reason : WholeError)
  | invalidName
  deriving DecidableEq, Repr

namespace Crash

def family : Crash → Misuse.Family
  | misuse reason => reason.family
  | count reason => reason.family
  | invalidName => .value

def message : Crash → String
  | misuse reason => reason.message
  | count reason => reason.message
  | invalidName => FileError.invalidName.message ""

end Crash

/-- How a run ends. -/
inductive Ending where
  | exit (code : Nat)
  | crash (reason : Crash)
  /-- The machine's pacer never comes to an end. -/
  | endless
  deriving DecidableEq, Repr

/-- What a run prints, what it tells on the side, how it ends, and what its window did, from its
opening on. -/
structure Outcome where
  printed : String
  told : String
  ending : Ending
  responses : Option (List Window.Response)

namespace Outcome

def line (text : String) : String := text ++ "\n"

/-- The records of a journal, each on a line. -/
def records (j : Journal) : String := String.join (j.notes.map fun n => line n.render)

/-- A run that prints nothing and opens no window. -/
def silent (journal : Journal) (ending : Ending) : Outcome := ⟨"", records journal, ending, none⟩

/-- A run that ends with a message on the side. -/
def complaint (journal : Journal) (message : String) (code : Nat) : Outcome :=
  ⟨"", records journal ++ line message, .exit code, none⟩

end Outcome

open Outcome (line records silent complaint)

/-- The stretch of time between two frames of a run without a window. -/
def frameTime : Float := 1.0 / 60.0

/-- Lets a machine run for a number of frames, up to the first failure. -/
def runFrames (session : Watched) (pacer : Pacer Float) :
    Nat → Option (Pacer.Outcome Float Watched Fault)
  | 0 => some ⟨pacer, session, .ok 0⟩
  | n + 1 =>
    match session.advance pacer frameTime with
    | some ⟨pacer, session, .ok _⟩ => runFrames session pacer n
    | other => other

/-- A run without a window for a number of seconds. -/
def runHeadless (session : Watched) (settings : Settings) (seconds : Float) : Outcome :=
  match settings.pacer with
  | .error reason => silent session.journal (.crash (.misuse reason))
  | .ok pacer =>
    match Decimal.truncate (seconds / frameTime) with
    | .error reason => silent session.journal (.crash (.count (.ofNotWhole reason)))
    | .ok frames =>
      match runFrames session pacer frames.toNat with
      | none => silent session.journal .endless
      | some ⟨pacer, session, result⟩ =>
        let printed := line session.machine.display.render
        match result with
        | .error (.step fault) =>
          let told := records session.journal ++ line ("Emulation error: " ++ fault.message)
          ⟨printed, told, .exit 1, none⟩
        | .error .backwards => silent session.journal (.crash (.misuse .negativeTime))
        | .ok _ =>
          let note : Note :=
            ⟨.info, .commandLine, "Ran " ++ toString pacer.cycles ++ " cycles"⟩
          ⟨printed, records (session.journal.add note), .exit 0, none⟩

/-- A run with a window to which events happen. -/
def runWindow (session : Watched) (settings : Settings) (events : List Window.Event) : Outcome :=
  match Window.opened session settings with
  | .error reason => silent session.journal (.crash (.misuse reason))
  | .ok window =>
    let opening : Window.Response := window.answer (window.openingCalls settings.title)
    let last := window.after events
    let code := if last.machine.fault.isSome then 1 else 0
    ⟨"", records last.session.journal, .exit code, some (opening :: window.respondAll events)⟩

/-- A machine with the program of a file in place, or how the run ends without it. -/
def loadProgram (machine : Machine) (journal : Journal) (path : String) (files : Files) :
    Except Outcome Watched :=
  let session : Watched := Watched.note ⟨machine, journal⟩ [Cartridge.openNote path]
  let refuse (journal : Journal) (text : String) : Outcome :=
    complaint journal ("Could not load ROM: " ++ text) 1
  match files path with
  | .error .invalidName => .error (silent session.journal (.crash .invalidName))
  | .error reason => .error (refuse session.journal (reason.message path))
  | .ok content =>
    match Cartridge.read path content with
    | .error cause => .error (refuse session.journal cause.toFault.message)
    | .ok program =>
      let session := session.note (Cartridge.readNotes path program)
      match session.load (program.map fun b => (b.toNat : Int)) with
      | (session, none) => .ok session
      | (session, some (.fault cause)) =>
        .error (refuse session.journal cause.toFault.message)
      | (session, some (.misuse reason)) =>
        .error (silent session.journal (.crash (.misuse reason)))

def Arguments.run (a : Arguments) (files : Files) (events : List Window.Event) : Outcome :=
  let journal := Journal.empty a.choices.level
  match a.choices.settings files with
  | .error reason => complaint journal ("Bad configuration: " ++ reason.message) 2
  | .ok settings =>
    match settings.machine with
    | .error reason => silent journal (.crash (.misuse reason))
    | .ok machine =>
      match loadProgram machine journal a.program files with
      | .error outcome => outcome
      | .ok session =>
        match a.choices.headless with
        | some seconds => runHeadless session settings seconds
        | none => runWindow session settings events

def run (texts : List String) (files : Files) (events : List Window.Event) : Outcome :=
  match Arguments.parse texts with
  | .error .help => ⟨helpText, "", .exit 0, none⟩
  | .error (.usage reason) =>
    ⟨"", usageText ++ line (programName ++ ": error: " ++ reason.message), .exit 2, none⟩
  | .ok a => a.run files events

end Chip8.CommandLine
