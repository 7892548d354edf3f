import EntityCursor.Command.Basic

/-!
The command line program: reads the files that the arguments name, executes the command and prints
what it leaves behind.
-/

namespace EntityCursor

namespace Program

def helpText : String :=
  "Usage: entity-cursor run --descriptors PATH --data PATH --query PATH [--config PATH]\n" ++
    "       entity-cursor explain --descriptors PATH --query PATH [--config PATH]"

def versionText : String := "entity-cursor 0.1.0"

def readContent (path : String) : IO (Option File) := do
  try
    let bytes ← IO.FS.readBinFile path
    return some (.content bytes)
  catch _ => return none

/-- The file at a path, with the files in it if it is a directory. What cannot be read in a
directory counts as an empty directory, which has no text either. -/
def readFile (path : String) : IO (Option File) := do
  try
    let resolved ← IO.FS.realPath path
    if ← resolved.isDir then
      let entries ← resolved.readDir
      let files ← entries.toList.mapM fun entry => do
        let content ← readContent entry.path.toString
        return (entry.fileName, content.getD (.directory []))
      return some (.directory files)
    else readContent path
  catch _ => return none

def readFiles (command : Command) : IO Command.FileAt := do
  let data :=
    match command.action with
    | .run data => [data]
    | .explain => []
  let paths := command.descriptors :: command.query :: data ++ command.config.toList
  let files ← paths.mapM fun path => do return (path, ← readFile path)
  return fun path => (Fields.get? path files).join

def freshIdentifier : IO Identifier := do
  let bytes ← IO.getRandomBytes 16
  let digits := bytes.toList.flatMap fun byte => [byte.toNat / 16, byte.toNat % 16]
  return ⟨(digits.set 12 4).set 16 (8 + (digits.getD 16 0) % 4)⟩

def withDuration (microseconds : Nat) (journal : Journal) : Journal :=
  let field : String × String → String × String
    | ("elapsed_us", _) => ("elapsed_us", toString microseconds)
    | ("duration_ms", _) => ("duration_ms", toString (microseconds / 1000))
    | other => other
  { journal with
    entries := journal.entries.map fun entry => { entry with fields := entry.fields.map field } }

def runCommand (command : Command) : IO UInt32 := do
  let files ← readFiles command
  let request := Request.internal (← freshIdentifier).text
  let started ← IO.monoNanosNow
  let (result, journal) := command.execute files request "0" {}
  let finished ← IO.monoNanosNow
  let output := Command.output result (withDuration ((finished - started) / 1000) journal)
  output.standardOutput.forM fun line => IO.println line
  output.standardError.forM fun line => IO.eprintln line
  return output.exitCode.toUInt32

end Program

end EntityCursor

def main (arguments : List String) : IO UInt32 := do
  match EntityCursor.Command.read arguments with
  | .ok command => EntityCursor.Program.runCommand command
  | .error .help =>
      IO.println EntityCursor.Program.helpText
      return 0
  | .error .version =>
      IO.println EntityCursor.Program.versionText
      return 0
  | .error .mistake =>
      IO.eprintln EntityCursor.Program.helpText
      return 2
