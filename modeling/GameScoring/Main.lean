import GameScoring.Shell.Program

/-! # The command line

Reads the settings from the environment and the files that the words of the command line name, runs the
program and prints its outcome.
-/
open GameScoring

namespace GameScoring.Shell

def settingNames : List String := Settings.default.entries.map fun e => String.ofList (e.1.toList.map Char.toUpper)

def readVariables : IO Settings.Variables := do
  let found ← settingNames.mapM fun name => do return (name, ← IO.getEnv name)
  return found.filterMap fun e => e.2.map (e.1, ·)

/-- A path that is there but cannot be read as text is taken for a directory. -/
def readEntry (path : String) : IO (Option PathEntry) := do
  try
    return some (.file (← IO.FS.readFile path))
  catch
    | .noFileOrDirectory .. => return none
    | _ => return some .directory

def readWorkspace (words : List String) : IO Workspace := do
  let entries ← words.mapM fun path => do return (path, ← readEntry path)
  return fun path => (entries.lookup path).join

end GameScoring.Shell

open GameScoring.Shell in
def main (words : List String) : IO UInt32 := do
  match Settings.ofVariables (← readVariables) with
  | .faulty complaints =>
    for (field, message) in Settings.sorted complaints do
      IO.eprintln (field ++ ": " ++ message)
    return 1
  | .read settings =>
    let outcome := run settings (← readWorkspace words) words
    IO.print outcome.output
    IO.eprint outcome.errors
    if let some fault := outcome.fault then
      IO.eprintln fault.message
    return UInt32.ofNat outcome.status
