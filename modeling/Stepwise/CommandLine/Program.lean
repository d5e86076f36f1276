import Stepwise.CommandLine.Arguments
import Stepwise.Mail.Delivery
import Stepwise.Session
import Stepwise.Settings

/-!
# The program

What the program does with its arguments, the files it sees and its environment, as a function: it
answers with a report of what it prints and of the files it leaves. A real run has no network:
requests fail, and so does mail as soon as a server for it is set; without a server mail is
dropped. A dry run keeps its records in memory and neither sends nor stores anything.
-/

namespace Stepwise.CommandLine

/-- What the program leaves behind. -/
structure Report where
  exit : Nat
  output : String
  /-- Why the program failed. -/
  error : Option String
  files : FileTree

/-- Why the program fails. -/
inductive Failure where
  | settings
  | poolUnread (path : String)
  | poolShape (path : String)
  | records (path : String)
  | mail
  | run (workflow : String)
  | folder (path : String)
  | document (path : String)
  | unknownSteps (count : Nat)

/-- The failure in words. -/
def Failure.message : Failure → String
  | settings => "failed to load settings"
  | poolUnread path => "failed to read pool file " ++ path
  | poolShape path => "pool file " ++ path ++ " is not a list or map of variables"
  | records path => "failed to read records from " ++ path
  | mail => "failed to configure SMTP"
  | run workflow => "failed to run process '" ++ workflow ++ "'"
  | folder path => "failed to read processes from " ++ path
  | document path => "failed to load " ++ path
  | unknownSteps count =>
      toString count ++ " step(s) have an unknown type and would be skipped"

namespace Report

def ofFailure (files : FileTree) (output : String) (failure : Failure) : Report :=
  ⟨1, output, some failure.message, files⟩

def success (files : FileTree) (output : String) : Report := ⟨0, output, none, files⟩

/-- The report on arguments that make no sense. -/
def misuse (files : FileTree) : Report := ⟨2, "", none, files⟩

end Report

/-- Lines as they are printed. -/
def printed (lines : List String) : String :=
  String.join (lines.map (· ++ "\n"))

/-! ## Running -/

/-- The input in the file at a path; without a path it is empty. -/
def readInput (files : FileTree) : Option String → Except Failure PoolInput
  | none => .ok .empty
  | some path =>
      match files.readText path with
      | .error _ => .error (.poolUnread path)
      | .ok text =>
          match (Json.parse? text).map PoolInput.decode with
          | some (.ok input) => .ok input
          | _ => .error (.poolShape path)

/-- What becomes of every message of a real run. -/
def mailVerdict (settings : Settings) : Except Failure (Except MailError Unit) :=
  match settings.smtp with
  | none => .ok (.ok ())
  | some smtp =>
      match Mail.Mailer.configure smtp settings.mailFrom with
      | .error _ => .error .mail
      | .ok _ => .ok (.error (.transport "no connection"))

/-- The collaborators of a dry run. -/
def dryStage (files : FileTree) (time recordsPath : String) : Except Failure Rehearsal :=
  match RecordFile.read files recordsPath with
  | .error _ => .error (.records recordsPath)
  | .ok records => .ok (.smooth files (.table (RecordTable.ofRecords records)) time)

/-- The collaborators of a real run. -/
def realStage (files : FileTree) (settings : Settings) (time recordsPath : String) :
    Except Failure Rehearsal :=
  match mailVerdict settings with
  | .error failure => .error failure
  | .ok verdict =>
      .ok { Rehearsal.smooth files (.file recordsPath) time with
        mail := ⟨[], verdict⟩
        requests := .replies ⟨[], .error (.transport "no connection")⟩
        forms := .folder settings.filesDir }

/-- Run a workflow and print its result. -/
def runNamed (files : FileTree) (stage : Rehearsal) (folder name : String) (input : PoolInput) :
    Report :=
  match (Session.mk stage (.folder folder)).runNamed name input with
  | .error _ => .ofFailure files "" (.run name)
  | .ok (result, after) =>
      .success after.stage.files (printed [result.toJson.pretty])

/-! ## Looking at workflows -/

/-- The lines on the workflows of a folder. -/
def listLines (folder : String) (workflows : List Workflow) : List String :=
  if workflows.isEmpty then ["No processes found in " ++ folder]
  else workflows.map fun w => w.name ++ "\t" ++ toString w.steps.length ++ " step(s)"

/-- Whether a step has a type that is not known. -/
def isUnknown (step : Step) : Bool := step.kind?.isNone

/-- The line on a step with so many branches around it. -/
def stepLine (line : Nat × Step) : String :=
  String.join (List.replicate (line.1 + 1) "  ") ++ line.2.heading.title ++ " [" ++
    line.2.typeName ++ "]" ++
    if isUnknown line.2 then "  (unknown type, skipped at run time)" else ""

/-- The lines on a workflow. -/
def workflowLines (w : Workflow) : List String :=
  w.name :: w.outline.map stepLine

/-- How many steps of some workflows are of unknown types. -/
def unknownCount (workflows : List Workflow) : Nat :=
  (workflows.flatMap Workflow.outline).countP fun line => isUnknown line.2

/-- Print all steps of some workflows. -/
def validate (files : FileTree) (workflows : List Workflow) : Report :=
  let output := printed (workflows.flatMap workflowLines)
  let count := unknownCount workflows
  if count = 0 then .success files output else .ofFailure files output (.unknownSteps count)

/-! ## Commands -/

/-- Carry out a command. -/
def Command.perform (settings : Settings) (files : FileTree) (time : String) : Command → Report
  | run name pool workflows records dryRun =>
      let recordsPath := records.getD settings.recordsPath
      match readInput files pool with
      | .error failure => .ofFailure files "" failure
      | .ok input =>
          let stage :=
            if dryRun then dryStage files time recordsPath
            else realStage files settings time recordsPath
          match stage with
          | .error failure => .ofFailure files "" failure
          | .ok stage => runNamed files stage (workflows.getD settings.processesDir) name input
  | list workflows =>
      let folder := workflows.getD settings.processesDir
      match WorkflowFolder.list files folder with
      | .error _ => .ofFailure files "" (.folder folder)
      | .ok found => .success files (printed (listLines folder found))
  | validate file =>
      match WorkflowFolder.load files file with
      | .error _ => .ofFailure files "" (.document file)
      | .ok workflows => CommandLine.validate files workflows

/-- The paths of the files and folders that a command reads. -/
def Command.paths (settings : Settings) : Command → List String
  | run _ pool workflows records _ =>
      pool.toList ++ [workflows.getD settings.processesDir, records.getD settings.recordsPath]
  | list workflows => [workflows.getD settings.processesDir]
  | validate file => [file]

/-- The version of the program, as it is printed. -/
def versionLine : String := "workline 0.1.0"

/-- How to use the program. -/
def usage : List String := [
  "Run declarative business processes",
  "",
  "Usage: workline [OPTIONS] <COMMAND>",
  "",
  "Commands:",
  "  run       Run a process by name and print its result as JSON",
  "  list      List the processes found in the processes directory",
  "  validate  Parse a process file and report its steps",
  "",
  "Options:",
  "      --config <CONFIG>  Settings file",
  "  -h, --help             Print help",
  "  -V, --version          Print version"]

/-- Start the program with some words. -/
def run (words : List String) (files : FileTree) (env : Environment) (time : String) : Report :=
  match Invocation.ofWords words with
  | .error .misuse => .misuse files
  | .error .help => .success files (printed usage)
  | .error .version => .success files (printed [versionLine])
  | .ok invocation =>
      match Settings.load files env invocation.config with
      | .error _ => .ofFailure files "" .settings
      | .ok settings => invocation.command.perform settings files time

end Stepwise.CommandLine
