import Stepwise.Files.Path
import Stepwise.Ordered
import Stepwise.Text.Blank

/-!
# The environment

What a program is started with: its variables, and the folders that the system keeps for the user. A
variable counts only when it is a text that is not blank, and then without the blanks around it. A
path that starts with a tilde is taken from the home folder. Paths are texts.
-/

namespace Stepwise

/-- What a variable is set to. -/
inductive VariableValue where
  | text (value : String)
  /-- Bytes that are no text. -/
  | bytes (content : List UInt8) (noText : String.fromUTF8? ⟨content.toArray⟩ = none)

/-- The text that a variable is set to, if it is one. -/
def VariableValue.text? : VariableValue → Option String
  | text value => some value
  | bytes _ _ => none

/-- The environment of a program. The folders are those that the system names, if it names any. -/
structure Environment where
  assigned : Ordered VariableValue
  homeFolder : Option String
  configFolder : Option String

namespace Environment

/-- The trimmed value of a variable, unless it is blank or no text. -/
def value? (env : Environment) (name : String) : Option String :=
  ((env.assigned.find? name).bind VariableValue.text?).bind fun raw =>
    let value := Text.trim raw
    if value == "" then none else some value

/-- The home folder. -/
def home (env : Environment) : String :=
  env.homeFolder.getD "~"

/-- What stands behind a leading tilde and a slash of either kind. -/
def behindTilde? (path : String) : Option String :=
  match path.toList with
  | '~' :: '/' :: rest => some (String.ofList rest)
  | '~' :: '\\' :: rest => some (String.ofList rest)
  | _ => none

/-- A path without blanks around it, a leading tilde replaced by the home folder. -/
def expandTilde (env : Environment) (path : String) : String :=
  let path := Text.trim path
  if path == "~" then env.home
  else
    match behindTilde? path with
    | some rest => Path.join env.home rest
    | none => path

/-- The folder for the settings of programs. -/
def config (env : Environment) : String :=
  env.configFolder.getD "."

/-! ## Folders that variables name -/

/-- An environment in which nothing is set. -/
def empty : Environment := ⟨[], none, none⟩

/-- The home folder that variables name. -/
def namedHome? (assigned : Ordered VariableValue) : Option String :=
  ((assigned.find? "HOME").bind VariableValue.text?).filter (· != "")

/-- The folder for settings that variables name; relative to the current folder it does not count,
and there is one in the home folder. -/
def namedConfig? (assigned : Ordered VariableValue) : Option String :=
  let named := (assigned.find? "XDG_CONFIG_HOME").bind VariableValue.text?
  (named.filter Path.isAbsolute).or ((namedHome? assigned).map fun home => Path.join home ".config")

/-- Set a variable to a text. The folders are those that the variables name then. -/
def set (env : Environment) (name value : String) : Environment :=
  let assigned := env.assigned.set name (.text value)
  ⟨assigned, namedHome? assigned, namedConfig? assigned⟩

/-- The environment of some variables that are texts. -/
def ofTexts (texts : List (String × String)) : Environment :=
  texts.foldl (fun env m => env.set m.1 m.2) empty

instance : Coe (List (String × String)) Environment := ⟨ofTexts⟩

end Environment

end Stepwise
