import Stepwise.Proofs.Decode.InOrder
import Stepwise.Settings

/-!
# What a settings file says

A settings file is a text for a record of settings. Every field that stands in it has the meaning
of its value, and every other one its default; the settings of the mail server are a record of their
own. What stands in unknown fields does not matter, as long as it can be passed over. A text that is
not well formed, or is for no such record, has no settings.
-/

namespace Stepwise

open Fragment (Reads MeansText MeansUnsigned MeansOptional MeansChoice)

theorem TlsMode.ofName?_eq_some_iff {text : String} {mode : TlsMode} :
    TlsMode.ofName? text = some mode ↔ text = mode.name := by
  constructor
  · intro h
    have hname := List.find?_some h
    exact (beq_iff_eq.mp hname).symm
  · rintro rfl
    cases mode <;> rfl

namespace SmtpSettings

/-- What was read is a record of settings of a mail server. -/
structure MeantBy (v : Fragment) (smtp : SmtpSettings) : Prop where
  isRecord : v.IsRecord knownFields
  host : v.FieldMeans knownFields "host" MeansText "" smtp.host
  port : v.FieldMeans knownFields "port" (MeansOptional (MeansUnsigned 16)) none smtp.port
  username : v.FieldMeans knownFields "username" (MeansOptional MeansText) none
    smtp.username
  password : v.FieldMeans knownFields "password" (MeansOptional MeansText) none
    smtp.password
  tls : v.FieldMeans knownFields "tls" (MeansOptional (MeansChoice TlsMode.name)) none
    smtp.tls

theorem chooseTls_eq_ok_iff {text : String} {mode : TlsMode} :
    chooseTls text = .ok mode ↔ text = mode.name := by
  rw [chooseTls, ← TlsMode.ofName?_eq_some_iff]
  cases TlsMode.ofName? text <;> simp

theorem reads_decode : Reads decode MeantBy := by
  intro v s
  rw [decode, Fragment.decodeRecord_eq_ok_iff (by decide)]
  dsimp only
  simp only [Form.seq_eq_read_iff, Form.map_eq_read_iff, Reads.text.withDefault,
    (Reads.unsigned 16).optional.withDefault, Reads.text.optional.withDefault,
    (Reads.choice @chooseTls_eq_ok_iff).optional.withDefault]
  constructor
  · rintro ⟨hrecord, _, ⟨_, ⟨_, ⟨_, ⟨host, hhost, rfl⟩, port, hport, rfl⟩,
      username, husername, rfl⟩, password, hpassword, rfl⟩, tls, htls, rfl⟩
    exact ⟨hrecord, hhost, hport, husername, hpassword, htls⟩
  · rintro ⟨hrecord, hhost, hport, husername, hpassword, htls⟩
    exact ⟨hrecord, _, ⟨_, ⟨_, ⟨_, ⟨_, hhost, rfl⟩, _, hport, rfl⟩, _, husername, rfl⟩,
      _, hpassword, rfl⟩, _, htls, rfl⟩

end SmtpSettings

namespace Settings

/-- What was read is a record of the time that is waited. -/
def HttpMeantBy (v : Fragment) (timeoutSecs : Nat) : Prop :=
  v.IsRecord ["timeout_secs"] ∧
    v.FieldMeans ["timeout_secs"] "timeout_secs" (MeansUnsigned 64) default.timeoutSecs
      timeoutSecs

/-- What was read is a record of settings. -/
structure MeantBy (v : Fragment) (s : Settings) : Prop where
  isRecord : v.IsRecord knownFields
  filesDir : v.FieldMeans knownFields "files_dir" MeansText default.filesDir s.filesDir
  processesDir : v.FieldMeans knownFields "processes_dir" MeansText default.processesDir
    s.processesDir
  recordsPath : v.FieldMeans knownFields "records_path" MeansText default.recordsPath
    s.recordsPath
  mailFrom : v.FieldMeans knownFields "mail_from" (MeansOptional MeansText)
    default.mailFrom s.mailFrom
  timeoutSecs : v.FieldMeans knownFields "http" HttpMeantBy default.timeoutSecs s.timeoutSecs
  smtp : v.FieldMeans knownFields "smtp" (MeansOptional SmtpSettings.MeantBy) default.smtp
    s.smtp

theorem reads_decodeHttp : Reads decodeHttp HttpMeantBy := by
  intro v n
  rw [decodeHttp, Fragment.decodeRecord_eq_ok_iff (by decide), (Reads.unsigned 64).withDefault]
  rfl

theorem reads_decode : Reads decode MeantBy := by
  intro v s
  rw [decode, Fragment.decodeRecord_eq_ok_iff (by decide)]
  dsimp only
  simp only [Form.seq_eq_read_iff, Form.map_eq_read_iff, Reads.path.withDefault,
    Reads.text.optional.withDefault, reads_decodeHttp.withDefault,
    SmtpSettings.reads_decode.optional.withDefault]
  constructor
  · rintro ⟨hrecord, _, ⟨_, ⟨_, ⟨_, ⟨_, ⟨files, hfiles, rfl⟩, processes, hprocesses, rfl⟩,
      records, hrecords, rfl⟩, sender, hsender, rfl⟩, timeout, htimeout, rfl⟩, smtp, hsmtp, rfl⟩
    exact ⟨hrecord, hfiles, hprocesses, hrecords, hsender, htimeout, hsmtp⟩
  · rintro ⟨hrecord, hfiles, hprocesses, hrecords, hsender, htimeout, hsmtp⟩
    exact ⟨hrecord, _, ⟨_, ⟨_, ⟨_, ⟨_, ⟨_, hfiles, rfl⟩, _, hprocesses, rfl⟩, _, hrecords, rfl⟩,
      _, hsender, rfl⟩, _, htimeout, rfl⟩, _, hsmtp, rfl⟩

/-- The text of a file is for a record of settings. -/
def SaidBy (text : String) (s : Settings) : Prop :=
  Fragment.SaidBy MeantBy text s

/-- A text has the settings that it says and no others. -/
theorem ofText_eq_ok_iff {text : String} {s : Settings} :
    ofText text = .ok s ↔ SaidBy text s :=
  reads_decode.document faultOf

/-- Half of a character is no text, but is passed over in an unknown field. -/
example : ofText "\x7b\"c\":\"\\ud83d\"\x7d" = .ok default := by cbv

end Settings

end Stepwise
