import Stepwise.Ordered

/-!
# Arguments

The words a program is started with. A command has options with values, flags, and operands that
stand between them in order; two dashes alone end the options. A word that begins with a dash is
neither the value of an option nor an operand, except for a single dash and behind the end of the
options. Reading goes from the left, and the first word that settles the matter decides.
-/

namespace Stepwise.CommandLine

/-- What a word is by its looks. -/
inductive Word where
  | operand (text : String)
  /-- An option by its name, with the value behind an equals sign if there is one. -/
  | option (name : String) (value : Option String)
  | letter (c : Char)
  | endOfOptions

/-- Cut a text at the first equals sign. -/
def cutAtEquals (cs : List Char) : String × Option String :=
  let name := cs.takeWhile (· != '=')
  match cs.drop name.length with
  | [] => (String.ofList name, none)
  | _ :: value => (String.ofList name, some (String.ofList value))

def Word.ofText (text : String) : Word :=
  match text.toList with
  | ['-', '-'] => .endOfOptions
  | '-' :: '-' :: rest => let (name, value) := cutAtEquals rest; .option name value
  | '-' :: c :: _ => .letter c
  | _ => .operand text

/-- Why there is no command to carry out. -/
inductive Stop where
  /-- The words make no sense. -/
  | misuse
  | help
  | version
  deriving DecidableEq

/-- What may stand among some words. The value of an option is the path of a file or a folder. -/
structure Shape where
  options : List String
  flags : List String
  /-- How many operands there can be. -/
  operands : Nat
  /-- What ends reading at once: an option's name, and its letter. -/
  stops : List (String × Char × Stop)

/-- What was read. -/
structure Reading where
  values : Ordered String
  flags : List String
  operands : List String

namespace Reading

def empty : Reading := ⟨[], [], []⟩

/-- Take the value of an option. An option stands once, and its path is not empty. -/
def takeValue (r : Reading) (shape : Shape) (name value : String) : Except Stop Reading :=
  if shape.options.contains name && !r.values.has name && value != "" then
    .ok { r with values := r.values.set name value }
  else .error .misuse

/-- Take an option that has no value. -/
def takeFlag (r : Reading) (shape : Shape) (name : String) : Except Stop Reading :=
  match shape.stops.find? fun stop => stop.1 == name with
  | some (_, _, stop) => .error stop
  | none =>
      if shape.flags.contains name && !r.flags.contains name then
        .ok { r with flags := r.flags ++ [name] }
      else .error .misuse

/-- What a letter behind a single dash means. -/
def stopOf (shape : Shape) (c : Char) : Stop :=
  match shape.stops.find? fun stop => stop.2.1 == c with
  | some (_, _, stop) => stop
  | none => .misuse

/-- Take all words for operands. -/
def takeOperands (r : Reading) (shape : Shape) (words : List String) : Except Stop Reading :=
  let operands := r.operands ++ words
  if operands.length ≤ shape.operands then .ok { r with operands } else .error .misuse

/-- Read words up to the first operand for which there is no place, and give the words from there
on. -/
def ofWords (shape : Shape) (r : Reading) :
    List String → Except Stop (Reading × List String)
  | [] => .ok (r, [])
  | text :: rest =>
      match Word.ofText text with
      | .endOfOptions => (r.takeOperands shape rest).map fun r => (r, [])
      | .letter c => .error (stopOf shape c)
      | .operand text =>
          if r.operands.length < shape.operands then
            ofWords shape { r with operands := r.operands ++ [text] } rest
          else .ok (r, text :: rest)
      | .option name (some value) =>
          match r.takeValue shape name value with
          | .error stop => .error stop
          | .ok r => ofWords shape r rest
      | .option name none =>
          if shape.options.contains name then
            match rest with
            | [] => .error .misuse
            | next :: rest =>
                match Word.ofText next with
                | .operand value =>
                    match r.takeValue shape name value with
                    | .error stop => .error stop
                    | .ok r => ofWords shape r rest
                | _ => .error .misuse
          else
            match r.takeFlag shape name with
            | .error stop => .error stop
            | .ok r => ofWords shape r rest

end Reading

/-- What the program is told to do. -/
inductive Command where
  | run (name : String) (pool workflows records : Option String) (dryRun : Bool)
  | list (workflows : Option String)
  | validate (file : String)

/-- A command, and the file of settings if one is named. -/
structure Invocation where
  config : Option String
  command : Command

/-- The words in front of a command. -/
def outerShape : Shape :=
  ⟨["config"], [], 0, [("help", 'h', .help), ("version", 'V', .version)]⟩

/-- The words behind a command, where the file of settings can be named as well. -/
def Shape.ofCommand (options flags : List String) (operands : Nat) : Shape :=
  ⟨"config" :: options, flags, operands, [("help", 'h', .help)]⟩

namespace Command

/-- The shape of a command. -/
def shape? : String → Option Shape
  | "run" => some (.ofCommand ["pool", "processes", "records"] ["dry-run"] 1)
  | "list" => some (.ofCommand ["processes"] [] 0)
  | "validate" => some (.ofCommand [] [] 1)
  | _ => none

/-- The command of a name and what was read behind it. -/
def ofReading? (name : String) (r : Reading) : Option Command :=
  match name, r.operands with
  | "run", [workflow] =>
      some (run workflow (r.values.find? "pool") (r.values.find? "processes")
        (r.values.find? "records") (r.flags.contains "dry-run"))
  | "list", [] => some (list (r.values.find? "processes"))
  | "validate", [file] => if file == "" then none else some (validate file)
  | _, _ => none

end Command

namespace Invocation

/-- Read a command and its words. Of two files of settings the one named behind the command
counts. -/
def ofCommand (config : Option String) (name : String) (words : List String) :
    Except Stop Invocation :=
  match Command.shape? name with
  | none => .error (if name == "help" then .help else .misuse)
  | some shape =>
      match Reading.ofWords shape .empty words with
      | .error stop => .error stop
      | .ok (r, rest) =>
          match rest, Command.ofReading? name r with
          | [], some command => .ok ⟨(r.values.find? "config").or config, command⟩
          | _, _ => .error .misuse

/-- Read all words. -/
def ofWords (words : List String) : Except Stop Invocation :=
  match Reading.ofWords outerShape .empty words with
  | .error stop => .error stop
  | .ok (_, []) => .error .misuse
  | .ok (r, name :: rest) => ofCommand (r.values.find? "config") name rest

end Invocation

end Stepwise.CommandLine
