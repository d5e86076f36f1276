import Stepwise.Proofs.Settings.Variables

/-!
# Settings in layers

Settings are loaded from a file and the variables of the environment. A file that is not there says
nothing, one whose text has no settings is an error, and so is one that cannot be read as text. Over
what the file says lie the variables, each over its own setting alone, and a mail server is
configured if the file configures one or one of its variables is set. What comes out of all layers
is checked last.
-/

namespace Stepwise

/-- Settings of a mail server with the variables laid over those below. -/
structure SmtpSettings.Layered (env : Environment) (below smtp : SmtpSettings) : Prop where
  host : env.Layer "WORKLINE_SMTP_HOST" (fun value host => host = value) below.host smtp.host
  port : env.Layer "WORKLINE_SMTP_PORT"
    (fun value port => ∃ n, Text.SpellsUnsigned 16 value n ∧ port = some n) below.port smtp.port
  username : env.Layer "WORKLINE_SMTP_USERNAME" (fun value user => user = some value)
    below.username smtp.username
  password : env.Layer "WORKLINE_SMTP_PASSWORD" (fun value password => password = some value)
    below.password smtp.password
  tls : env.Layer "WORKLINE_SMTP_TLS"
    (fun value tls => ∃ mode, TlsMode.SpelledBy value mode ∧ tls = some mode) below.tls smtp.tls

namespace Settings

/-- The variables that configure a mail server. -/
def smtpVariables : List String :=
  ["WORKLINE_SMTP_HOST", "WORKLINE_SMTP_PORT", "WORKLINE_SMTP_USERNAME", "WORKLINE_SMTP_PASSWORD",
    "WORKLINE_SMTP_TLS"]

/-- The variables that can be set to a wrong value, in the order in which they are read, with the
values they take. -/
def checkedVariables : List (String × (String → Prop)) :=
  [("WORKLINE_HTTP_TIMEOUT_SECS", fun value => ∃ n, Text.SpellsUnsigned 64 value n),
    ("WORKLINE_SMTP_PORT", fun value => ∃ n, Text.SpellsUnsigned 16 value n),
    ("WORKLINE_SMTP_TLS", fun value => ∃ mode, TlsMode.SpelledBy value mode)]

/-- Settings with the variables laid over those below, and their paths expanded. -/
structure Layered (env : Environment) (below s : Settings) : Prop where
  filesDir : env.Layer "WORKLINE_FILES_DIR" (fun value path => path = env.expandTilde value)
    (env.expandTilde below.filesDir) s.filesDir
  processesDir : env.Layer "WORKLINE_PROCESSES_DIR"
    (fun value path => path = env.expandTilde value)
    (env.expandTilde below.processesDir) s.processesDir
  recordsPath : env.Layer "WORKLINE_RECORDS_PATH" (fun value path => path = env.expandTilde value)
    (env.expandTilde below.recordsPath) s.recordsPath
  mailFrom : env.Layer "WORKLINE_MAIL_FROM" (fun value sender => sender = some value)
    below.mailFrom s.mailFrom
  timeoutSecs : env.Layer "WORKLINE_HTTP_TIMEOUT_SECS" (Text.SpellsUnsigned 64)
    below.timeoutSecs s.timeoutSecs
  isSome_smtp : s.smtp.isSome ↔
    below.smtp.isSome ∨ ∃ name ∈ smtpVariables, ∃ value, env.Sets name value
  smtp : ∀ smtp ∈ s.smtp, SmtpSettings.Layered env (below.smtp.getD .empty) smtp

/-! ## What the variables do -/

section Overrides

variable {α : Type} {env : Environment} {below s : Settings}

theorem overrides_take :
    List.Forall₂ Override.Takes overrides
      [("WORKLINE_FILES_DIR", fun _ => True), ("WORKLINE_PROCESSES_DIR", fun _ => True),
        ("WORKLINE_RECORDS_PATH", fun _ => True), ("WORKLINE_MAIL_FROM", fun _ => True),
        ("WORKLINE_HTTP_TIMEOUT_SECS", fun value => ∃ n, Text.SpellsUnsigned 64 value n),
        ("WORKLINE_SMTP_HOST", fun _ => True),
        ("WORKLINE_SMTP_PORT", fun value => ∃ n, Text.SpellsUnsigned 16 value n),
        ("WORKLINE_SMTP_USERNAME", fun _ => True), ("WORKLINE_SMTP_PASSWORD", fun _ => True),
        ("WORKLINE_SMTP_TLS", fun value => ∃ mode, TlsMode.SpelledBy value mode)] := by
  simp [overrides, Override.Takes, ← unsigned?_eq_some_iff, ← TlsMode.ofText?_eq_some_iff]

theorem nodup_variableName_overrides : (overrides.map Override.variableName).Nodup := by
  decide

theorem applyAll_overrides_eq_error_iff {e : SettingsError} :
    applyAll env overrides below = .error e ↔
      ∃ name value, e = .invalidVariable name value ∧
        env.FirstInvalid checkedVariables name value := by
  rw [applyAll_eq_error_iff overrides_take]
  simp [checkedVariables, Environment.firstInvalid_cons_iff]

theorem layer_of_applyAll (hok : applyAll env overrides below = .ok s) (part : Settings → α)
    {name : String} {means : String → α → Prop}
    (hmem : name ∈ overrides.map Override.variableName)
    (hmeans : ∀ o ∈ overrides, o.variableName = name →
      ∀ value s s', o.apply value s = some s' → means value (part s'))
    (hothers : ∀ o ∈ overrides, o.variableName ≠ name → o.Keeps part) :
    env.Layer name means (part below) (part s) :=
  applyAll_layer hok part hmem nodup_variableName_overrides hmeans hothers

theorem smtpLayered_of_applyAll (hok : applyAll env overrides below = .ok s) :
    SmtpSettings.Layered env (below.smtp.getD .empty) (s.smtp.getD .empty) where
  host := layer_of_applyAll hok (fun s => (s.smtp.getD .empty).host) (by decide)
    (by simp [overrides, withSmtp]) (by simp [overrides, Override.Keeps, withSmtp])
  port := layer_of_applyAll hok (fun s => (s.smtp.getD .empty).port) (by decide)
    (by simp [overrides, withSmtp, unsigned?_eq_some_iff])
    (by simp [overrides, Override.Keeps, withSmtp])
  username := layer_of_applyAll hok (fun s => (s.smtp.getD .empty).username) (by decide)
    (by simp [overrides, withSmtp]) (by simp [overrides, Override.Keeps, withSmtp])
  password := layer_of_applyAll hok (fun s => (s.smtp.getD .empty).password) (by decide)
    (by simp [overrides, withSmtp]) (by simp [overrides, Override.Keeps, withSmtp])
  tls := layer_of_applyAll hok (fun s => (s.smtp.getD .empty).tls) (by decide)
    (by simp [overrides, withSmtp, TlsMode.ofText?_eq_some_iff])
    (by simp [overrides, Override.Keeps, withSmtp])

theorem isSome_smtp_of_applyAll (hok : applyAll env overrides below = .ok s) :
    s.smtp.isSome ↔
      below.smtp.isSome ∨ ∃ name ∈ smtpVariables, ∃ value, env.Sets name value := by
  have hmakes := applyAll_holds_iff hok (fun s => s.smtp.isSome) smtpVariables
    (by simp [overrides, smtpVariables, withSmtp])
  simpa [overrides, smtpVariables] using hmakes

/-- The settings of the variables lie over those below, each variable over its own. -/
theorem layered_of_applyAll (hok : applyAll env overrides below = .ok s) :
    Layered env below (expandPaths env s) := by
  constructor <;> dsimp only [expandPaths]
  case filesDir =>
    exact layer_of_applyAll hok (fun s => env.expandTilde s.filesDir) (by decide)
      (by simp [overrides]) (by simp [overrides, Override.Keeps, withSmtp])
  case processesDir =>
    exact layer_of_applyAll hok (fun s => env.expandTilde s.processesDir) (by decide)
      (by simp [overrides]) (by simp [overrides, Override.Keeps, withSmtp])
  case recordsPath =>
    exact layer_of_applyAll hok (fun s => env.expandTilde s.recordsPath) (by decide)
      (by simp [overrides]) (by simp [overrides, Override.Keeps, withSmtp])
  case mailFrom =>
    exact layer_of_applyAll hok mailFrom (by decide) (by simp [overrides])
      (by simp [overrides, Override.Keeps, withSmtp])
  case timeoutSecs =>
    exact layer_of_applyAll hok timeoutSecs (by decide)
      (by simp [overrides, unsigned?_eq_some_iff]) (by simp [overrides, Override.Keeps, withSmtp])
  case isSome_smtp => exact isSome_smtp_of_applyAll hok
  case smtp =>
    intro smtp hsmtp
    have hlayered := smtpLayered_of_applyAll hok
    rwa [Option.mem_def.mp hsmtp, Option.getD_some] at hlayered

end Overrides

/-! ## What is loaded -/

section Loading

variable {files : FileTree} {env : Environment} {path : String} {below s : Settings}

/-- What the file at a path means: the defaults if there is none, and otherwise what its text
has to say. -/
def FileMeans (files : FileTree) (path : String) (s : Settings) : Prop :=
  (files.readText path = .error .missing ∧ s = default) ∨
    ∃ text, files.readText path = .ok text ∧ SaidBy text s

theorem ofFile_eq_ok_iff : ofFile files path = .ok s ↔ FileMeans files path s := by
  rw [ofFile, FileMeans]
  split
  case h_1 hread => simp [hread, eq_comm]
  case h_2 hread => simp [hread]
  case h_3 text hread =>
    simp only [hread, reduceCtorEq, false_and, false_or, Except.ok.injEq, exists_eq_left',
      ← ofText_eq_ok_iff]
    cases ofText text <;> simp

theorem ofFile_eq_error_iff {e : SettingsError} :
    ofFile files path = .error e ↔
      (files.readText path = .error .unusable ∧ e = .io path) ∨
        ∃ text fault, files.readText path = .ok text ∧ ofText text = .error fault ∧
          e = .parse path fault := by
  rw [ofFile]
  split
  case h_1 hread => simp [hread]
  case h_2 hread => simp [hread, eq_comm]
  case h_3 text hread => cases htext : ofText text <;> simp [hread, htext, eq_comm]

theorem exists_ofText_eq_error_iff {text : String} :
    (∃ fault, ofText text = .error fault) ↔ ∀ s, ¬SaidBy text s := by
  simp only [← ofText_eq_ok_iff]
  cases ofText text <;> simp

/-- Settings that can be used wait for some time, and a mail server has a host. -/
theorem check_eq (s : Settings) :
    check s =
      if s.timeoutSecs = 0 then .error .noTimeout
      else if s.smtp.any fun smtp => Text.isBlankText smtp.host then .error .noHost
      else .ok s := by
  rw [check]
  cases s.smtp <;> rfl

theorem check_eq_ok_iff {s s' : Settings} :
    check s = .ok s' ↔
      (0 < s.timeoutSecs ∧ ∀ smtp ∈ s.smtp, Text.isBlankText smtp.host = false) ∧ s = s' := by
  rw [check]
  by_cases htimeout : s.timeoutSecs = 0
  · simp [htimeout]
  · rw [if_neg htimeout]
    cases hsmtp : s.smtp with
    | none => simp [Nat.pos_of_ne_zero htimeout]
    | some smtp =>
        cases hhost : Text.isBlankText smtp.host <;>
          simp [hhost, Nat.pos_of_ne_zero htimeout]

theorem eq_of_check_eq_error {e : SettingsError} (h : check s = .error e) :
    e = .noTimeout ∨ e = .noHost := by
  rw [check_eq] at h
  split_ifs at h <;> cases h
  · exact .inl rfl
  · exact .inr rfl

/-- Loading fails at the file just when the file does. -/
theorem loadFrom_eq_error_of_file_iff {e : SettingsError}
    (he : (∃ named, e = .io named) ∨ ∃ named fault, e = .parse named fault) :
    loadFrom files env path = .error e ↔ ofFile files path = .error e := by
  rw [loadFrom]
  cases hfile : ofFile files path with
  | error _ => rfl
  | ok below =>
      refine iff_of_false ?_ nofun
      dsimp only
      cases hrun : applyAll env overrides below with
      | error invalid =>
          obtain ⟨name, value, rfl, -⟩ := applyAll_overrides_eq_error_iff.mp hrun
          rintro ⟨⟩
          simp at he
      | ok raw =>
          intro hcheck
          obtain rfl | rfl := eq_of_check_eq_error hcheck <;> simp at he

/-- Over a file that means something, loading fails with the first variable that is wrong. If none
is, the settings of the file and the variables are checked. -/
theorem loadFrom_of_fileMeans (env : Environment) (hfile : FileMeans files path below) :
    (∀ name value, loadFrom files env path = .error (.invalidVariable name value) ↔
        env.FirstInvalid checkedVariables name value) ∧
      ((∀ name value, ¬env.FirstInvalid checkedVariables name value) →
        ∃ s, Layered env below s ∧ loadFrom files env path = check s) := by
  have hinvalid (name value : String) :
      applyAll env overrides below = .error (.invalidVariable name value) ↔
        env.FirstInvalid checkedVariables name value := by
    rw [applyAll_overrides_eq_error_iff]
    constructor
    · rintro ⟨_, _, ⟨⟩, hfound⟩
      exact hfound
    · exact fun hfound => ⟨name, value, rfl, hfound⟩
  rw [loadFrom, ofFile_eq_ok_iff.mpr hfile]
  dsimp only
  cases hrun : applyAll env overrides below with
  | error e =>
      rw [hrun] at hinvalid
      refine ⟨hinvalid, fun hvalid => ?_⟩
      obtain ⟨name, value, -, hfound⟩ := applyAll_overrides_eq_error_iff.mp hrun
      exact absurd hfound (hvalid name value)
  | ok raw =>
      dsimp only
      refine ⟨fun name value => ?_, fun _ => ⟨_, layered_of_applyAll hrun, rfl⟩⟩
      rw [← hinvalid, hrun]
      refine iff_of_false (fun hcheck => ?_) nofun
      obtain h | h := eq_of_check_eq_error hcheck <;> cases h

/-- Settings that are loaded lie in the layers over what the file means. -/
theorem layered_of_loadFrom (hok : loadFrom files env path = .ok s) :
    ∃ below, FileMeans files path below ∧ Layered env below s := by
  obtain ⟨below, hfile⟩ : ∃ below, FileMeans files path below := by
    simp only [← ofFile_eq_ok_iff]
    cases hfile : ofFile files path with
    | error e => simp [loadFrom, hfile] at hok
    | ok below => exact ⟨below, rfl⟩
  obtain ⟨hinvalid, hlayered⟩ := loadFrom_of_fileMeans env hfile
  simp only [hok, reduceCtorEq, false_iff] at hinvalid
  obtain ⟨s', hlayered, hcheck⟩ := hlayered hinvalid
  rw [hok] at hcheck
  obtain ⟨-, rfl⟩ := check_eq_ok_iff.mp hcheck.symm
  exact ⟨below, hfile, hlayered⟩

theorem check_of_loadFrom (hok : loadFrom files env path = .ok s) :
    0 < s.timeoutSecs ∧ ∀ smtp ∈ s.smtp, Text.isBlankText smtp.host = false := by
  rw [loadFrom] at hok
  split at hok
  · cases hok
  · split at hok
    · cases hok
    · obtain ⟨hchecked, rfl⟩ := check_eq_ok_iff.mp hok
      exact hchecked

/-- Loading fails at a file whose text has no settings and at one that cannot be read as text. Over
the settings of any other file, or the defaults if there is none, lie the variables, each over its
own setting; the first one that is wrong is the error, and the settings of all layers are checked.
So settings that are loaded wait for some time, and their mail server has a host. -/
theorem loadFrom_in_layers (files : FileTree) (env : Environment) (path : String) :
    (∀ named, (∃ fault, loadFrom files env path = .error (.parse named fault)) ↔
        named = path ∧ ∃ text, files.readText path = .ok text ∧ ∀ s, ¬SaidBy text s) ∧
      (∀ named, loadFrom files env path = .error (.io named) ↔
        named = path ∧ files.readText path = .error .unusable) ∧
      (∀ below, FileMeans files path below →
        (∀ name value, loadFrom files env path = .error (.invalidVariable name value) ↔
            env.FirstInvalid checkedVariables name value) ∧
          ((∀ name value, ¬env.FirstInvalid checkedVariables name value) →
            ∃ s, Layered env below s ∧
              loadFrom files env path =
                if s.timeoutSecs = 0 then .error .noTimeout
                else if s.smtp.any fun smtp => Text.isBlankText smtp.host then .error .noHost
                else .ok s)) ∧
      ∀ s, loadFrom files env path = .ok s →
        0 < s.timeoutSecs ∧ ∀ smtp ∈ s.smtp, Text.isBlankText smtp.host = false := by
  refine ⟨fun named => ?_, fun named => ?_, fun below hfile => ?_, fun s hok => ?_⟩
  · simp only [loadFrom_eq_error_of_file_iff (.inr ⟨named, _, rfl⟩), ofFile_eq_error_iff,
      ← exists_ofText_eq_error_iff]
    constructor
    · rintro ⟨fault, ⟨-, ⟨⟩⟩ | ⟨text, _, hread, htext, ⟨⟩⟩⟩
      exact ⟨rfl, text, hread, fault, htext⟩
    · rintro ⟨rfl, text, hread, fault, htext⟩
      exact ⟨fault, .inr ⟨text, fault, hread, htext, rfl⟩⟩
  · rw [loadFrom_eq_error_of_file_iff (.inl ⟨named, rfl⟩), ofFile_eq_error_iff]
    simp [and_comm]
  · simp only [← check_eq]
    exact loadFrom_of_fileMeans env hfile
  · exact check_of_loadFrom hok

/-- A document that sets nothing but the time. -/
def timeoutDocument (secs : Nat) : Json :=
  .obj [("http", .obj [("timeout_secs", .num (.int secs))])]

theorem saidBy_timeoutDocument {secs : Nat} (h : secs < Nat.pow 2 64) :
    SaidBy (timeoutDocument secs).pretty { default with timeoutSecs := secs } := by
  have hreads : (Number.int secs).ReadsBack :=
    Number.readsBack_int (Int.le_trans (Int.neg_nonpos_of_nonneg (Int.natCast_nonneg _))
      (Int.natCast_nonneg secs)) (Int.ofNat_lt.mpr h)
  refine ⟨.ofJson (timeoutDocument secs), Fragment.ofText_pretty (by simp [timeoutDocument,
    Json.depth, Json.depthMembers, Fragment.maxDepth]) ?_, ?_⟩
  · simpa [timeoutDocument, Json.numbers, Json.numbersMembers] using hreads
  · have hhttp : HttpMeantBy (.ofJson (.obj [("timeout_secs", .num (.int secs))])) secs :=
      ⟨Fragment.isRecord_ofJson (by simp [Ordered.keys]), h, rfl⟩
    exact {
      isRecord := Fragment.isRecord_ofJson (by simp [Ordered.keys])
      filesDir := rfl
      processesDir := rfl
      recordsPath := rfl
      mailFrom := rfl
      timeoutSecs := hhttp
      smtp := rfl }

/-- A file sets the time, and a variable configures a mail server; another one holds no text. -/
theorem loadFrom_file_and_variable :
    let files : FileTree := [(["s.json"], .file (.text (timeoutDocument 5).pretty))]
    let env : Environment :=
      ⟨[("WORKLINE_HTTP_TIMEOUT_SECS", .bytes [0xFF] (by decide +kernel)),
        ("WORKLINE_SMTP_HOST", .text " mail ")], none, none⟩
    FileMeans files "s.json" { default with timeoutSecs := 5 } ∧
      (∀ name value, ¬env.FirstInvalid checkedVariables name value) ∧
      ∃ s, loadFrom files env "s.json" = .ok s ∧ s.timeoutSecs = 5 ∧
        ∃ smtp, s.smtp = some smtp ∧ smtp.host = "mail" ∧ smtp.port = none := by
  intro files env
  have hfile : FileMeans files "s.json" { default with timeoutSecs := 5 } :=
    .inr ⟨_, rfl, saidBy_timeoutDocument (by decide)⟩
  have htimeout : env.value? "WORKLINE_HTTP_TIMEOUT_SECS" = none := by cbv
  have hhost : env.value? "WORKLINE_SMTP_HOST" = some "mail" := by cbv
  have hport : env.value? "WORKLINE_SMTP_PORT" = none := by cbv
  have htls : env.value? "WORKLINE_SMTP_TLS" = none := by cbv
  have hvalid : ∀ name value, ¬env.FirstInvalid checkedVariables name value := by
    simp [checkedVariables, Environment.firstInvalid_cons_iff, ← Environment.value?_eq_some_iff,
      htimeout, hport, htls]
  obtain ⟨s, hlayered, hload⟩ := ((loadFrom_in_layers files env "s.json").2.2.1 _ hfile).2 hvalid
  have hsecs := Environment.layer_iff.mp hlayered.timeoutSecs
  rw [htimeout] at hsecs
  obtain ⟨smtp, hsmtp⟩ := Option.isSome_iff_exists.mp (hlayered.isSome_smtp.mpr
    (.inr ⟨"WORKLINE_SMTP_HOST", by decide, "mail", Environment.value?_eq_some_iff.mp hhost⟩))
  have hname := Environment.layer_iff.mp (hlayered.smtp smtp hsmtp).host
  have hno := Environment.layer_iff.mp (hlayered.smtp smtp hsmtp).port
  rw [hhost] at hname
  rw [hport] at hno
  refine ⟨hfile, hvalid, s, ?_, hsecs, smtp, hsmtp, hname, hno⟩
  have hnamed : Text.isBlankText smtp.host = false := hname ▸ (by decide)
  rw [hload, hsecs, hsmtp, Option.any_some, hnamed]
  rfl

/-- A file that holds a byte of no text is there and has no settings, but no text is at fault. -/
theorem loadFrom_of_no_text :
    let files : FileTree := [(["s.json"], .file (.bytes [0xFF]))]
    files.has "s.json" = true ∧
      (∀ text s, files.readText "s.json" = .ok text → ¬SaidBy text s) ∧
      loadFrom files .empty "s.json" = .error (.io "s.json") := by
  intro files
  have hread : files.readText "s.json" = .error .unusable := by decide +kernel
  refine ⟨by decide +kernel, fun text s htext => ?_, ?_⟩
  · rw [hread] at htext
    cases htext
  · rw [loadFrom, ofFile, hread]

end Loading

end Settings

end Stepwise
