import Stepwise.Decode.Document
import Stepwise.Files.Tree
import Stepwise.Settings.Environment

/-!
# Settings

Settings come in three layers: the defaults, a file, and variables of the environment, each layer
over the one before. Once all layers are in place, paths that start with a tilde are expanded and
the settings are checked.
-/

namespace Stepwise

/-- How a connection to a mail server is secured. -/
inductive TlsMode where
  | wrapper
  | starttls
  | none
  deriving DecidableEq

namespace TlsMode

def name : TlsMode → String
  | wrapper => "wrapper"
  | starttls => "starttls"
  | none => "none"

def all : List TlsMode := [wrapper, starttls, none]

/-- The mode of a name. -/
def ofName? (text : String) : Option TlsMode :=
  all.find? fun mode => mode.name == text

/-- The mode of a name in which the case of ASCII letters does not count. -/
def ofText? (text : String) : Option TlsMode :=
  ofName? (String.ofList (text.toList.map Char.toLower))

end TlsMode

/-- How to reach a mail server. -/
structure SmtpSettings where
  host : String
  port : Option Nat
  username : Option String
  password : Option String
  tls : Option TlsMode

namespace SmtpSettings

def empty : SmtpSettings := ⟨"", .none, .none, .none, .none⟩

/-- The port on which connections are secured from the start. -/
def securePort : Nat := 465

/-- The mode that is set; without one, the port decides. -/
def tlsMode (smtp : SmtpSettings) : TlsMode :=
  match smtp.tls, smtp.port with
  | some mode, _ => mode
  | .none, .none => .wrapper
  | .none, some port => if port = securePort then .wrapper else .starttls

end SmtpSettings

/-- The settings of a program that runs workflows. -/
structure Settings where
  /-- The folder of templates and filled forms. -/
  filesDir : String
  /-- The folder of workflows. -/
  processesDir : String
  /-- The file of records. -/
  recordsPath : String
  /-- The sender of mail that names none. -/
  mailFrom : Option String
  timeoutSecs : Nat
  smtp : Option SmtpSettings

/-- Why there are no settings. -/
inductive SettingsError where
  | io (path : String)
  | parse (path : String) (fault : DocumentFault)
  | invalidVariable (name value : String)
  | noTimeout
  | noHost

/-- The error in words, as far as it has an explanation. -/
def SettingsError.message? : SettingsError → Option String
  | io _ => none
  | parse path fault =>
      fault.message?.map fun reason => "failed to parse settings file " ++ path ++ ": " ++ reason
  | invalidVariable name value =>
      some ("environment variable " ++ name ++ " has invalid value '" ++ value ++ "'")
  | noTimeout => some "invalid settings: http.timeout_secs must be greater than zero"
  | noHost => some "invalid settings: smtp.host is required when smtp is configured"

/-! ## Written form -/

def Json.ofOptional {α : Type} (write : α → Json) : Option α → Json
  | some a => write a
  | none => .null

namespace SmtpSettings

def toJson (smtp : SmtpSettings) : Json :=
  .obj [("host", .str smtp.host), ("port", Json.ofOptional (fun n => .num (.int n)) smtp.port),
    ("username", Json.ofOptional .str smtp.username),
    ("password", Json.ofOptional .str smtp.password),
    ("tls", Json.ofOptional (fun mode => .str mode.name) smtp.tls)]

/-- The mode of a name in a document. -/
def chooseTls (name : String) : Except DecodeError TlsMode :=
  match TlsMode.ofName? name with
  | some mode => .ok mode
  | .none => .error (.unknownChoice name (TlsMode.all.map TlsMode.name))

def knownFields : List String := ["host", "port", "username", "password", "tls"]

def decode : Fragment → Except DecodeError SmtpSettings :=
  Fragment.decodeRecord "SmtpSettings" knownFields fun fields =>
    let text := Fragment.decodePlain Json.decodeText
    mk <$> fields.withDefault "host" text ""
      <*> fields.withDefault "port"
        (Fragment.decodeOptional (Fragment.decodePlain (Json.decodeUnsigned 16))) .none
      <*> fields.withDefault "username" (Fragment.decodeOptional text) .none
      <*> fields.withDefault "password" (Fragment.decodeOptional text) .none
      <*> fields.withDefault "tls"
        (Fragment.decodeOptional (Fragment.decodeChoice chooseTls)) .none

end SmtpSettings

namespace Settings

/-- The settings that apply when nothing is said. -/
def default : Settings where
  filesDir := "./files"
  processesDir := "./processes"
  recordsPath := "./records.json"
  mailFrom := none
  timeoutSecs := 30
  smtp := none

def toJson (s : Settings) : Json :=
  .obj [("files_dir", .str s.filesDir), ("processes_dir", .str s.processesDir),
    ("records_path", .str s.recordsPath), ("mail_from", Json.ofOptional .str s.mailFrom),
    ("http", .obj [("timeout_secs", .num (.int s.timeoutSecs))]),
    ("smtp", Json.ofOptional SmtpSettings.toJson s.smtp)]

def decodeHttp : Fragment → Except DecodeError Nat :=
  Fragment.decodeRecord "HttpSettings" ["timeout_secs"] fun fields =>
    fields.withDefault "timeout_secs" (Fragment.decodePlain (Json.decodeUnsigned 64))
      default.timeoutSecs

def knownFields : List String :=
  ["files_dir", "processes_dir", "records_path", "mail_from", "http", "smtp"]

def decode : Fragment → Except DecodeError Settings :=
  Fragment.decodeRecord "Settings" knownFields fun fields =>
    let path := Fragment.decodePlain Json.decodePath
    mk <$> fields.withDefault "files_dir" path default.filesDir
      <*> fields.withDefault "processes_dir" path default.processesDir
      <*> fields.withDefault "records_path" path default.recordsPath
      <*> fields.withDefault "mail_from"
        (Fragment.decodeOptional (Fragment.decodePlain Json.decodeText)) none
      <*> fields.withDefault "http" decodeHttp default.timeoutSecs
      <*> fields.withDefault "smtp" (Fragment.decodeOptional SmtpSettings.decode) none

/-- The fault of a document behind the error of its decoding. -/
def faultOf (e : DecodeError) : DocumentFault :=
  if e.isTextFault then .malformed else .shape .source e

/-- The settings of a text. -/
def ofText (text : String) : Except DocumentFault Settings :=
  Fragment.decodeDocument decode faultOf text

/-- The settings of the file at a path; a missing file says nothing. -/
def ofFile (files : FileTree) (path : String) : Except SettingsError Settings :=
  match files.readText path with
  | .error .missing => .ok default
  | .error .unusable => .error (.io path)
  | .ok text =>
      match ofText text with
      | .ok s => .ok s
      | .error fault => .error (.parse path fault)

/-! ## Variables -/

/-- The number that a text spells, if it fits in so many bits. -/
def unsigned? (bits : Nat) (text : String) : Option Nat :=
  let digits := match text.toList with
    | '+' :: rest => rest
    | cs => cs
  if digits.isEmpty || !digits.all Char.isDigit then none
  else
    let n := digits.foldl (fun n c => n * 10 + (c.toNat - '0'.toNat)) 0
    if n < Nat.pow 2 bits then some n else none

/-- A variable that changes settings: its name, and the change its value makes, if it is valid. -/
structure Override where
  variableName : String
  apply : String → Settings → Option Settings

/-- Change the settings of the mail server, starting from empty ones. -/
def withSmtp (change : SmtpSettings → SmtpSettings) (s : Settings) : Settings :=
  { s with smtp := some (change (s.smtp.getD .empty)) }

/-- The variables in the order in which they apply. -/
def overrides : List Override :=
  [⟨"WORKLINE_FILES_DIR", fun v s => some { s with filesDir := v }⟩,
    ⟨"WORKLINE_PROCESSES_DIR", fun v s => some { s with processesDir := v }⟩,
    ⟨"WORKLINE_RECORDS_PATH", fun v s => some { s with recordsPath := v }⟩,
    ⟨"WORKLINE_MAIL_FROM", fun v s => some { s with mailFrom := some v }⟩,
    ⟨"WORKLINE_HTTP_TIMEOUT_SECS", fun v s =>
      (unsigned? 64 v).map fun n => { s with timeoutSecs := n }⟩,
    ⟨"WORKLINE_SMTP_HOST", fun v s => some (withSmtp (fun m => { m with host := v }) s)⟩,
    ⟨"WORKLINE_SMTP_PORT", fun v s =>
      (unsigned? 16 v).map fun n => withSmtp (fun m => { m with port := some n }) s⟩,
    ⟨"WORKLINE_SMTP_USERNAME", fun v s =>
      some (withSmtp (fun m => { m with username := some v }) s)⟩,
    ⟨"WORKLINE_SMTP_PASSWORD", fun v s =>
      some (withSmtp (fun m => { m with password := some v }) s)⟩,
    ⟨"WORKLINE_SMTP_TLS", fun v s =>
      (TlsMode.ofText? v).map fun mode => withSmtp (fun m => { m with tls := some mode }) s⟩]

/-- Apply variables one after another; the first value that is not valid is the error. -/
def applyAll (env : Environment) : List Override → Settings → Except SettingsError Settings
  | [], s => .ok s
  | o :: rest, s =>
      match env.value? o.variableName with
      | none => applyAll env rest s
      | some value =>
          match o.apply value s with
          | none => .error (.invalidVariable o.variableName value)
          | some s => applyAll env rest s

/-! ## Loading -/

/-- The settings with their paths expanded. -/
def expandPaths (env : Environment) (s : Settings) : Settings :=
  { s with
    filesDir := env.expandTilde s.filesDir
    processesDir := env.expandTilde s.processesDir
    recordsPath := env.expandTilde s.recordsPath }

/-- Whether the settings can be used. -/
def check (s : Settings) : Except SettingsError Settings :=
  if s.timeoutSecs = 0 then .error .noTimeout
  else
    match s.smtp with
    | none => .ok s
    | some smtp => if Text.isBlankText smtp.host then .error .noHost else .ok s

/-- Load settings from the file at a path. -/
def loadFrom (files : FileTree) (env : Environment) (path : String) :
    Except SettingsError Settings :=
  match ofFile files path with
  | .error e => .error e
  | .ok s =>
      match applyAll env overrides s with
      | .error e => .error e
      | .ok s => check (expandPaths env s)

/-- The path of the settings when none is given. -/
def defaultPath (env : Environment) : String :=
  match env.value? "WORKLINE_CONFIG_PATH" with
  | some path => env.expandTilde path
  | none => Path.join (Path.join env.config "workline") "config.json"

/-- Load settings from a given path or the usual one. -/
def load (files : FileTree) (env : Environment) (path : Option String) :
    Except SettingsError Settings :=
  loadFrom files env (path.getD (defaultPath env))

end Settings

end Stepwise
