import Stepwise.Proofs.Pool
import Stepwise.Proofs.Run.Calls
import Stepwise.Proofs.Run.Surroundings
import Stepwise.Proofs.Text.Trim
import Stepwise.Proofs.Written.Condition

/-!
# Where messages go

A message is handed to the mailer when its recipient stands for a text that is not blank, and it
goes to this text without the white space at its ends. A run hands over one message for each step
that comes to that, so the messages that the mailer accepts are as many as the steps that end in
the value `true`.
-/

namespace Stepwise

/-! ## Recipients -/

/-- A value is a text, or it is a number and has the text of this number. -/
inductive Json.HasText : Json → String → Prop
  | text (s : String) : HasText (.str s) s
  | number (n : Number) : HasText (.num n) n.text

/-- The text that a recipient stands for in a pool: that of the field of a variable, or one that is
given literally, as it is or in an object. -/
inductive EmailRecipient.StandsFor (pool : Pool) : EmailRecipient → String → Prop
  | field {value found : Json} {f : VariableField} {v : Variable} {text : String}
      (hvalue : VariableField.decode value = .ok f)
      (hentry : pool.find? f.reference.key = some (.var v))
      (hfield : v.data.find? f.field = some found) (htext : found.HasText text) :
      StandsFor pool ⟨.ofVariable, value⟩ text
  | literal {value : Json} {text : String} (htext : value.HasText text) :
      StandsFor pool ⟨.literal, value⟩ text
  | object {members : List (String × Json)} {text : String}
      (hmember : Ordered.find? members "literal" = some (.str text)) :
      StandsFor pool ⟨.literal, .obj members⟩ text

/-- A variable recipient stands for what is in the field of its variable, however this is named. -/
theorem EmailRecipient.StandsFor.congr {pool : Pool} {value value' : Json} {f f' : VariableField}
    (hvalue : VariableField.decode value = .ok f) (hvalue' : VariableField.decode value' = .ok f')
    (hkey : f.reference.key = f'.reference.key) (hfield : f.field = f'.field) {text : String}
    (h : StandsFor pool ⟨.ofVariable, value⟩ text) : StandsFor pool ⟨.ofVariable, value'⟩ text := by
  cases h with
  | field hread hentry hfound htext =>
      obtain rfl := Except.ok.inj (hvalue.symm.trans hread)
      rw [hkey] at hentry
      rw [hfield] at hfound
      exact .field hvalue' hentry hfound htext

namespace EmailMessage

theorem recipientText?_of_standsFor {recipient : EmailRecipient} {pool : Pool} {text : String}
    (h : recipient.StandsFor pool text) : recipientText? recipient pool = some text := by
  cases h with
  | field hvalue hentry hfield htext =>
      have hv := (Pool.variableAt?_eq_some_iff pool _ _).mpr hentry
      simp only [recipientText?, EmailRecipient.variableField, hvalue, hv, Option.bind_some,
        Variable.field?, hfield]
      cases htext <;> rfl
  | literal htext => cases htext <;> rfl
  | object hmember => simp only [recipientText?, EmailRecipient.literalAddress?, hmember]

theorem standsFor_of_recipientText? {recipient : EmailRecipient} {pool : Pool} {text : String}
    (h : recipientText? recipient pool = some text) : recipient.StandsFor pool text := by
  obtain ⟨kind, value⟩ := recipient
  cases kind with
  | literal =>
      simp only [recipientText?, EmailRecipient.literalAddress?] at h
      split at h
      · obtain rfl := Option.some.inj h
        exact .literal (.text _)
      · obtain rfl := Option.some.inj h
        exact .literal (.number _)
      · split at h
        · rename_i hmember
          obtain rfl := Option.some.inj h
          exact .object hmember
        · cases h
      · cases h
  | ofVariable =>
      simp only [recipientText?, EmailRecipient.variableField] at h
      cases hvalue : VariableField.decode value with
      | error e => simp [hvalue] at h
      | ok f =>
          have hfield {found : Json} (htext : found.HasText text)
              (hfound : ((pool.variableAt? f.reference.key).bind fun v => v.field? f.field) =
                some found) : EmailRecipient.StandsFor pool ⟨.ofVariable, value⟩ text := by
            obtain ⟨v, hv, hfield⟩ := Option.bind_eq_some_iff.mp hfound
            exact .field hvalue ((Pool.variableAt?_eq_some_iff pool _ v).mp hv) hfield htext
          simp only [hvalue] at h
          split at h
          · rename_i hfound
            obtain rfl := Option.some.inj h
            exact hfield (.text _) hfound
          · rename_i hfound
            obtain rfl := Option.some.inj h
            exact hfield (.number _) hfound
          · cases h

/-- A message goes out when its recipient stands for a text that is not blank. -/
theorem outgoing?_of_standsFor {message : EmailMessage} {pool : Pool} {text : String}
    (h : message.recipient.StandsFor pool text) (hblank : Text.isBlankText text = false) :
    message.outgoing? pool =
      some ⟨Text.trim text, message.subject.getD "", message.html, none⟩ := by
  rw [outgoing?, recipientText?_of_standsFor h, Option.bind_some, addressOf?,
    if_neg (Text.trim_ne_empty hblank)]
  rfl

theorem outgoing?_eq_none {message : EmailMessage} {pool : Pool}
    (h : ∀ text, message.recipient.StandsFor pool text → Text.isBlankText text = true) :
    message.outgoing? pool = none := by
  rw [outgoing?]
  cases htext : recipientText? message.recipient pool with
  | none => rfl
  | some text =>
      have hblank := h text (standsFor_of_recipientText? htext)
      rw [Option.bind_some, addressOf?, if_pos ((Text.isTrimOf_trim text).eq_empty_iff.mpr hblank)]
      rfl

end EmailMessage

/-- Whether an outcome is the value `true`. -/
def StepOutcome.isTrue : StepOutcome → Bool
  | .succeeded (.value (.bool b)) => b
  | _ => false

/-- Make a call and note what its answer gives cause for. -/
def notingAnswer {σ κ α : Type} (note : α → List κ) (x : StateM σ α) :
    StateM (σ × List κ) α := fun s =>
  ((x.run s.1).1, ((x.run s.1).2, s.2 ++ note (x.run s.1).1))

theorem notesOf_notingAnswer {σ κ α : Type} (note : α → List κ) (x : StateM σ α) :
    NotesOf (notingAnswer note x) x :=
  ⟨fun s => note (x.run s).1, fun _ _ => rfl⟩

namespace Collaborators

variable {σ β : Type} (c : Collaborators σ β)

/-! ## The call of the mailer -/

/-- A message that goes out is handed over once, and the step ends by the answer. -/
theorem run_logged_sendEmail {settings : SendEmail} {pool : Pool} {email : OutgoingEmail}
    (hemail : settings.email.outgoing? pool = some email) (s : σ) :
    let answer := ((c.send email).run s).1
    let noted := (c.logged.sendEmail settings pool).run (s, [])
    noted.2.2 = [.send email] ∧ (answer = .ok () → noted.1 = .ofValue (.bool true)) ∧
      (answer ≠ .ok () → noted.1 = .failed) := by
  rw [sendEmail, hemail]
  simp only [logged, run_bind, run_noting]
  rcases hanswer : (c.send email).run s with ⟨e | _, t⟩
  · simp only [run_pure]
    simp
  · simp only [run_pure]
    simp

/-! ## The messages of a run -/

/-- The note of a message that is made for an answer of the mailer. -/
def acceptance (email : OutgoingEmail) : Except MailError Unit → List OutgoingEmail
  | .ok () => [email]
  | .error _ => []

/-- The same collaborators, with a note of every message that the mailer accepts. -/
def withOutbox : Collaborators (σ × List OutgoingEmail) β :=
  { c.unnoted with send := fun email => notingAnswer (acceptance email) (c.send email) }

theorem withOutbox_corresponds : Corresponds (noteTaking σ OutgoingEmail) c.withOutbox c where
  evaluate _ _ := notesOf_unnoted _
  findOne _ := notesOf_unnoted _
  updateOne _ _ := notesOf_unnoted _
  send email := notesOf_notingAnswer (acceptance email) (c.send email)
  request _ := notesOf_unnoted _
  openForm _ := notesOf_unnoted _
  setTextField _ _ := notesOf_unnoted _
  flatten := notesOf_unnoted _
  save := notesOf_unnoted _
  store _ _ := notesOf_unnoted _
  stamp := notesOf_unnoted _

/-- Whether a visited step is one that sends a message and ends in the value `true`. -/
def delivers (v : Visit σ) : Bool :=
  match v.step with
  | .task h (.sendEmail settings) => (c.performed h (.sendEmail settings) v.moment).1.isTrue
  | _ => false

/-- No task but the sending of a message comes to the mailer. -/
theorem perform_withOutbox {task : Task} (htask : ∀ settings, task ≠ .sendEmail settings)
    (object : String) (pool : Pool) :
    c.withOutbox.perform object task pool = c.unnoted.perform object task pool := by
  cases task with
  | findRecord condition => rfl
  | createPdf settings =>
      have hfill (fills : List (String × String)) :
          c.withOutbox.fillFields fills = c.unnoted.fillFields fills := by
        induction fills with
        | nil => rfl
        | cons fill rest ih =>
            rw [fillFields, fillFields, ih]
            rfl
      simp only [perform, createPdf, hfill]
      rfl
  | sendEmail settings => exact absurd rfl (htask settings)
  | apiCall call => rfl
  | updateRecord settings => rfl

theorem ownNotes_withOutbox_of_other {h : Heading} {task : Task}
    (htask : ∀ settings, task ≠ .sendEmail settings) (m : Moment σ) :
    c.withOutbox.ownNotes (.task h task) m = [] := by
  change ((c.withOutbox.perform h.object task m.pool).run (m.state, [])).2.2 = []
  rw [c.perform_withOutbox htask, (c.unnoted_corresponds _).perform]

theorem length_ownNotes_withOutbox_sendEmail (h : Heading) (settings : SendEmail) (m : Moment σ) :
    (c.withOutbox.ownNotes (.task h (.sendEmail settings)) m).length =
      if (c.performed h (.sendEmail settings) m).1.isTrue then 1 else 0 := by
  change ((c.withOutbox.sendEmail settings m.pool).run (m.state, [])).2.2.length =
    if ((c.sendEmail settings m.pool).run m.state).1.isTrue then 1 else 0
  rw [sendEmail, sendEmail]
  cases settings.email.outgoing? m.pool with
  | none => rfl
  | some email =>
      have hsend : (c.withOutbox.send email).run (m.state, []) =
        (((c.send email).run m.state).1, (((c.send email).run m.state).2,
          acceptance email ((c.send email).run m.state).1)) := rfl
      rw [run_bind, run_bind, hsend]
      cases ((c.send email).run m.state).1 <;> rfl

/-- A step adds one message to those that were accepted just when it delivers one. -/
theorem length_ownNotes_withOutbox (v : Visit σ) :
    (c.withOutbox.ownNotes v.step v.moment).length = if c.delivers v then 1 else 0 := by
  obtain ⟨depth, step, m⟩ := v
  cases step with
  | task h task =>
      by_cases htask : ∃ settings, task = .sendEmail settings
      · obtain ⟨settings, rfl⟩ := htask
        exact c.length_ownNotes_withOutbox_sendEmail h settings m
      · have hother := fun settings heq => htask ⟨settings, heq⟩
        have hsilent : c.delivers ⟨depth, .task h task, m⟩ = false := by
          cases task with
          | sendEmail settings => exact absurd rfl (hother settings)
          | _ => rfl
        rw [hsilent, c.ownNotes_withOutbox_of_other hother]
        rfl
  | branch h condition steps => rfl
  | unknown h type config => rfl

theorem length_notes_withOutbox (steps : List Step) (m : Moment σ) :
    (c.withOutbox.notes steps m).length = (c.visits 0 steps m).countP c.delivers := by
  rw [c.withOutbox_corresponds.notes_visits 0]
  induction c.visits 0 steps m with
  | nil => rfl
  | cons v rest ih =>
      rw [List.flatMap_cons, List.length_append, ih, length_ownNotes_withOutbox, List.countP_cons,
        Nat.add_comm]

/-- A step that sends a message hands it over once if its recipient stands for a text that is not
blank, and otherwise fails without a call. The address is then the text without the white space at
its ends, so it is not empty, and no sender is given; the step ends in `true` or fails as the mailer
accepts the message or not. A recipient stands for the same texts whether its variable is named
directly or as picked in a form. In a run of any workflow the mailer accepts as many messages as
there are visits to a step that sends one and ends in `true`. -/
theorem mail_goes_to_resolved_addresses :
    (∀ (h : Heading) (settings : SendEmail) (m : Moment σ),
      let recipient := settings.email.recipient
      let calls := c.calls [.task h (.sendEmail settings)] m
      let outcome := (c.performed h (.sendEmail settings) m).1
      (∀ text, recipient.StandsFor m.pool text → Text.isBlankText text = false →
        ∃ email : OutgoingEmail, calls = [.send email] ∧
          Text.IsTrimOf email.recipient text ∧ email.recipient ≠ "" ∧ email.sender = none ∧
          let answer := ((c.send email).run m.state).1
          (answer = .ok () → outcome = .ofValue (.bool true)) ∧
            (answer ≠ .ok () → outcome = .failed)) ∧
      ((∀ text, recipient.StandsFor m.pool text → Text.isBlankText text = true) →
        calls = [] ∧ outcome = .failed)) ∧
    (∀ (pool : Pool) (selector : VariableSelector) (field text : String),
      let direct : VariableField := ⟨.named selector.value.name, field⟩
      let picked : VariableField := ⟨.selected selector, field⟩
      EmailRecipient.StandsFor pool ⟨.ofVariable, direct.toJson⟩ text ↔
        EmailRecipient.StandsFor pool ⟨.ofVariable, picked.toJson⟩ text) ∧
    ∀ (workflow : Workflow) (pool : Pool) (s : σ), ∃ accepted : List OutgoingEmail,
      (c.withOutbox.run workflow pool).run (s, []) =
        (((c.run workflow pool).run s).1, (((c.run workflow pool).run s).2, accepted)) ∧
      accepted.length = (c.visits 0 workflow.steps ⟨pool, s⟩).countP c.delivers := by
  refine ⟨fun h settings m => ?_, fun pool selector field text => ?_, fun workflow pool s => ?_⟩
  · intro recipient calls outcome
    have hcalls : calls = ((c.logged.sendEmail settings m.pool).run (m.state, [])).2.2 := rfl
    have houtcome : outcome = ((c.logged.sendEmail settings m.pool).run (m.state, [])).1 :=
      c.performed_logged h (.sendEmail settings) m
    constructor
    · intro text hstands hblank
      have hemail := EmailMessage.outgoing?_of_standsFor hstands hblank
      obtain ⟨hmade, hends⟩ := c.run_logged_sendEmail hemail m.state
      rw [houtcome]
      exact ⟨_, hcalls.trans hmade, Text.isTrimOf_trim text, Text.trim_ne_empty hblank, rfl, hends⟩
    · intro hall
      rw [hcalls, houtcome, sendEmail, EmailMessage.outgoing?_eq_none hall]
      exact ⟨rfl, rfl⟩
  · intro direct picked
    constructor
    · exact EmailRecipient.StandsFor.congr direct.stable.decodes picked.stable.decodes rfl rfl
    · exact EmailRecipient.StandsFor.congr picked.stable.decodes direct.stable.decodes rfl rfl
  · exact ⟨c.withOutbox.notes workflow.steps ⟨pool, s⟩,
      c.withOutbox_corresponds.run_noted workflow pool s, c.length_notes_withOutbox _ _⟩

/-- A message to a variable picked in a form, and one to a text that is blank. -/
theorem one_of_two_messages_goes_out :
    let c : Collaborators (RecordTable × Unit) Unit := searching .memory .idle
    let picked : VariableField := ⟨.selected ⟨none, ⟨"customer", none⟩⟩, "address"⟩
    let settings (recipient : EmailRecipient) : SendEmail := ⟨⟨recipient, none, none⟩⟩
    let recipient : EmailRecipient := ⟨.ofVariable, picked.toJson⟩
    let blank : EmailRecipient := .ofAddress " \t"
    let pool : Pool := [("customer", .var ⟨"1", "n", "o", [("address", .str " a@b.c\n")]⟩)]
    let workflow : Workflow := ⟨"w", none, none,
      [.task ⟨"first", "first", ""⟩ (.sendEmail (settings recipient)),
        .task ⟨"second", "second", ""⟩ (.sendEmail (settings blank))]⟩
    let m : Moment (RecordTable × Unit) := ⟨pool, (.ofRecords [], ())⟩
    recipient.StandsFor pool " a@b.c\n" ∧ Text.isBlankText " a@b.c\n" = false ∧
    (∃ email : OutgoingEmail,
      c.calls [.task ⟨"first", "first", ""⟩ (.sendEmail (settings recipient))] m = [.send email] ∧
      Text.IsTrimOf email.recipient " a@b.c\n") ∧
    c.calls [.task ⟨"second", "second", ""⟩ (.sendEmail (settings blank))] m = [] ∧
    ∃ accepted : List OutgoingEmail, accepted.length = 1 ∧
      ((c.withOutbox.run workflow pool).run (m.state, [])).2.2 = accepted := by
  intro c picked settings recipient blank pool workflow m
  obtain ⟨hstep, -, hrun⟩ := c.mail_goes_to_resolved_addresses
  have hstands : recipient.StandsFor pool " a@b.c\n" :=
    .field picked.stable.decodes rfl rfl (.text _)
  have hsolid : Text.isBlankText " a@b.c\n" = false := by decide
  have hblank : ∀ text, blank.StandsFor pool text → Text.isBlankText text = true := by
    rintro _ (htext : EmailRecipient.StandsFor pool ⟨.literal, .str " \t"⟩ _)
    cases htext with
    | literal hspelled =>
        cases hspelled
        decide
  obtain ⟨email, hcalls, htrim, -⟩ :=
    (hstep ⟨"first", "first", ""⟩ (settings recipient) m).1 _ hstands hsolid
  obtain ⟨accepted, hoist, hcount⟩ := hrun workflow pool m.state
  refine ⟨hstands, hsolid, ⟨email, hcalls, htrim⟩,
    ((hstep ⟨"second", "second", ""⟩ (settings blank) m).2 hblank).1, accepted, ?_, ?_⟩
  · rw [hcount]
    rfl
  · rw [hoist]

end Collaborators

end Stepwise
