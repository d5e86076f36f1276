import Std.Time.DateTime
import Stepwise.CommandLine.Program

/-!
# The command line

The program reads the files and variables that its arguments name, runs as a function of them, and
then writes and prints what the report says. Forms are not read from disk, so a step that fills one
fails outside a dry run.
-/

namespace Stepwise.CommandLine

/-- The names of the variables that matter. -/
def variableNames : List String :=
  ["HOME", "XDG_CONFIG_HOME", "WORKLINE_CONFIG_PATH"] ++
    Settings.overrides.map Settings.Override.variableName

/-- The variables the program was started with. -/
def readEnvironment : IO Environment := do
  let found ← variableNames.filterMapM fun name => do
    return (← IO.getEnv name).map fun value => (name, value)
  return Environment.ofTexts found

/-- The tree with a file, or without it when there is no place for it. -/
def withFile (files : FileTree) (path : String) (content : ByteArray) : FileTree :=
  (files.place path (.bytes content.toList)).toOption.getD files

/-- Add what is at a path: a file, or the files of a folder. -/
def addPath (files : FileTree) (path : String) : IO FileTree := do
  let place := (← IO.currentDir) / path
  if ← place.isDir then
    let files := (files.makeFolder path).toOption.getD files
    (← place.readDir).foldlM (fun files entry => do
      if ← entry.path.isDir then return files
      else return withFile files (Path.join path entry.fileName) (← IO.FS.readBinFile entry.path))
      files
  else if ← place.pathExists then return withFile files path (← IO.FS.readBinFile place)
  else return files

/-- Write the files that a run has left; these hold text, while those read hold bytes. -/
def writeBack (files : FileTree) : IO Unit :=
  files.forM fun slot =>
    match slot.2 with
    | .file (.text text) => IO.FS.writeFile (String.intercalate "/" slot.1) text
    | _ => return ()

/-- The files that the words name, directly or through the settings. -/
def readFiles (words : List String) (env : Environment) : IO FileTree := do
  match Invocation.ofWords words with
  | .error _ => return []
  | .ok invocation =>
      let files ← addPath [] (invocation.config.getD (Settings.defaultPath env))
      match Settings.load files env invocation.config with
      | .error _ => return files
      | .ok settings => (invocation.command.paths settings).foldlM addPath files

/-- Run the program. -/
def runProgram (words : List String) : IO UInt32 := do
  let env ← readEnvironment
  let files ← readFiles words env
  let time := toString (← Std.Time.Timestamp.now).toMillisecondsSinceUnixEpoch.val
  let report := run words files env time
  writeBack report.files
  (← IO.getStdout).putStr report.output
  match report.error with
  | some reason => (← IO.getStderr).putStrLn ("Error: " ++ reason)
  | none => if report.exit = 2 then (← IO.getStderr).putStr (printed usage)
  return report.exit.toUInt32

end Stepwise.CommandLine

def main (words : List String) : IO UInt32 :=
  Stepwise.CommandLine.runProgram words
