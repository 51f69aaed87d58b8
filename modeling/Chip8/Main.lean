import Chip8.CommandLine.Run

set_option autoImplicit false
set_option relaxedAutoImplicit false

namespace Chip8.CommandLine

def FileError.ofSystem : IO.Error → FileError
  | .noFileOrDirectory _ _ _ => missing
  | .inappropriateType _ code text => refused code.toNat text
  | .permissionDenied _ code text => refused code.toNat text
  | .resourceExhausted _ code text => refused code.toNat text
  | .invalidArgument _ code text => refused code.toNat text
  | _ => refused 5 "Input/output error"

def readFile (name : String) : IO (Except FileError (List UInt8)) := do
  if name.toList.contains '\x00' then
    return .error .invalidName
  try
    let content ← IO.FS.readBinFile name
    return .ok content.toList
  catch e =>
    return .error (.ofSystem e)

def Arguments.fileNames (a : Arguments) : List String := a.choices.config.toList ++ [a.program]

def readFiles (texts : List String) : IO Files := do
  let names := match Arguments.parse texts with
    | .ok a => a.fileNames
    | .error _ => []
  let found ← names.mapM fun name => do
    return (name, ← readFile name)
  return fun name => ((found.find? fun p => p.1 = name).map (·.2)).getD (.error .missing)

/-- The exit code of a run; one that crashes tells why. -/
def exitCode (ending : Ending) : IO UInt32 :=
  match ending with
  | .exit code => return UInt32.ofNat code
  | .crash reason => do
    IO.eprintln reason.message
    return 1
  | .endless => return 1

end Chip8.CommandLine

def main (args : List String) : IO UInt32 := do
  let files ← Chip8.CommandLine.readFiles args
  let outcome := Chip8.CommandLine.run args files []
  IO.print outcome.printed
  IO.eprint outcome.told
  Chip8.CommandLine.exitCode outcome.ending
