import Stepwise.Workflow.Task
import Stepwise.Proofs.Written.Condition

/-!
# The settings of tasks survive being written

A word that means what all unknown words mean is written as one word, which means the same. A value
that a task carries along stands in its settings as it is, so these are stable when the value has
distinct names.
-/

namespace Stepwise

open Json (IsNormal Stable RoundTrips Yields partsIn_isNormal partsIn_true isNormal_null)

attribute [local simp] Ordered.find?_cons Ordered.find?_append Ordered.keys find?_optionalMember

/-! ## Updating a record -/

theorem FieldAssignment.stable {a : FieldAssignment} (h : a.value.IsNormal) :
    Stable decode toJson a := by
  refine Stable.record rfl ?normal ?build
  case normal => simp [h]
  case build =>
    exact Form.seq_eq_read (Form.map_eq_read ((Stable.text a.field).field rfl))
      ((Stable.any h).field rfl)

theorem FieldAssignment.roundTrips : RoundTrips decode toJson := by
  refine Yields.record partsIn_isNormal fun fields hf a hbuild => ?_
  simp only [Form.seq_eq_read_iff, Form.map_eq_read_iff] at hbuild
  obtain ⟨_, ⟨field, -, rfl⟩, value, hvalue, rfl⟩ := hbuild
  exact stable (Yields.any.withDefault hf isNormal_null hvalue)

theorem UpdateRecord.stable {m : UpdateRecord}
    (h : ∀ a ∈ m.fields, Stable FieldAssignment.decode FieldAssignment.toJson a) :
    Stable decode toJson m := by
  have htarget := m.target.stable
  have hfields := Stable.list h
  refine Stable.record rfl ?normal ?build
  case normal => simpa [htarget.isNormal] using hfields.isNormal
  case build =>
    exact Form.seq_eq_read (Form.map_eq_read (htarget.field rfl)) (hfields.field rfl)

theorem UpdateRecord.roundTrips : RoundTrips decode toJson := by
  refine Yields.record partsIn_isNormal fun fields hf m hbuild => ?_
  simp only [Form.seq_eq_read_iff, Form.map_eq_read_iff] at hbuild
  obtain ⟨_, ⟨target, -, rfl⟩, assignments, hassignments, rfl⟩ := hbuild
  exact stable ((Yields.list partsIn_isNormal FieldAssignment.roundTrips).withDefault hf
    (by simp) hassignments)

/-! ## Filling a form -/

theorem SourceSelector.stable (s : SourceSelector) : Stable decode toJson s := by
  refine Stable.record rfl ?normal ?build
  case normal => cases s.text <;> simp [optionalMember]
  case build =>
    exact Form.seq_eq_read (Form.map_eq_read (Fields.optionalText (by simp)))
      ((Stable.text s.value).field (by simp))

theorem TemplateRef.stable (t : TemplateRef) : Stable decode toJson t := by
  refine Stable.record rfl ?normal ?build
  case normal => cases t.name <;> simp [optionalMember]
  case build =>
    exact Form.seq_eq_read (Form.map_eq_read ((Stable.text t.path).field rfl))
      (Fields.optionalText (by simp))

theorem CreatePdf.stable {m : CreatePdf} (h : (Ordered.keys m.fields).Nodup) :
    Stable decode toJson m := by
  have hsource := m.source.stable
  have htemplate := m.template.stable
  have hfields := Stable.map h fun f _ => Stable.truth f.2
  refine Stable.record rfl ?normal ?build
  case normal => simpa [hsource.isNormal, htemplate.isNormal] using hfields.isNormal
  case build =>
    exact Form.seq_eq_read (Form.seq_eq_read (Form.map_eq_read (hsource.field rfl))
      (htemplate.field rfl)) (hfields.field rfl)

/-- No field is named twice in settings that are read from a value. -/
theorem CreatePdf.yields_decode :
    Yields (fun _ => True) decode fun m => (Ordered.keys m.fields).Nodup := by
  refine Yields.record partsIn_true fun fields hf m hbuild => ?_
  simp only [Form.seq_eq_read_iff, Form.map_eq_read_iff] at hbuild
  obtain ⟨_, ⟨_, ⟨source, -, rfl⟩, template, -, rfl⟩, flags, hflags, rfl⟩ := hbuild
  have hkeys := (Yields.map Json.decodeTruth).withDefault hf (by simp) hflags
  exact hkeys

theorem CreatePdf.roundTrips : RoundTrips decode toJson := by
  intro v m _ hdecode
  exact stable (yields_decode v m trivial hdecode)

/-! ## Sending mail -/

theorem RecipientKind.ofName_name (k : RecipientKind) : ofName k.name = k := by
  cases k <;> rfl

theorem EmailRecipient.stable {r : EmailRecipient} (h : r.value.IsNormal) :
    Stable decode toJson r := by
  have hkind : Stable RecipientKind.decode (fun k => .str k.name) r.kind :=
    Stable.choice (congrArg Except.ok r.kind.ofName_name)
  refine Stable.record rfl ?normal ?build
  case normal => simp [h]
  case build =>
    exact Form.seq_eq_read (Form.map_eq_read (hkind.field rfl)) ((Stable.any h).field rfl)

theorem EmailRecipient.roundTrips : RoundTrips decode toJson := by
  refine Yields.record partsIn_isNormal fun fields hf r hbuild => ?_
  simp only [Form.seq_eq_read_iff, Form.map_eq_read_iff] at hbuild
  obtain ⟨_, ⟨kind, -, rfl⟩, value, hvalue, rfl⟩ := hbuild
  exact stable (Yields.any.withDefault hf isNormal_null hvalue)

theorem EmailMessage.stable {m : EmailMessage}
    (h : Stable EmailRecipient.decode EmailRecipient.toJson m.recipient) :
    Stable decode toJson m := by
  refine Stable.record rfl ?normal ?build
  case normal => cases m.subject <;> cases m.message <;> simp [optionalMember, h.isNormal]
  case build =>
    exact Form.seq_eq_read (Form.seq_eq_read (Form.map_eq_read (h.field rfl))
      (Fields.optionalText (by simp))) (Fields.optionalText (by simp))

theorem EmailMessage.roundTrips : RoundTrips decode toJson := by
  refine Yields.record partsIn_isNormal fun fields hf m hbuild => ?_
  simp only [Form.seq_eq_read_iff, Form.map_eq_read_iff] at hbuild
  obtain ⟨_, ⟨_, ⟨recipient, hrecipient, rfl⟩, subject, -, rfl⟩, message, -, rfl⟩ := hbuild
  exact stable (EmailRecipient.roundTrips.required hf hrecipient)

theorem SendEmail.stable {m : SendEmail}
    (h : Stable EmailMessage.decode EmailMessage.toJson m.email) : Stable decode toJson m := by
  refine Stable.record rfl ?normal ?build
  case normal => simp [h.isNormal]
  case build => exact Form.map_eq_read (h.field rfl)

theorem SendEmail.roundTrips : RoundTrips decode toJson := by
  refine Yields.record partsIn_isNormal fun fields hf m hbuild => ?_
  obtain ⟨email, hemail, rfl⟩ := Form.map_eq_read_iff.mp hbuild
  exact stable (EmailMessage.roundTrips.required hf hemail)

/-! ## Calling an API -/

theorem ApiMethod.ofName_name (m : ApiMethod) : ofName m.name = m := by
  cases m <;> rfl

theorem EntrySource.ofName_name (s : EntrySource) : ofName s.name = s := by
  cases s <;> rfl

theorem KeyValueEntry.stable {e : KeyValueEntry} (h : e.value.IsNormal) :
    Stable decode toJson e := by
  have hsource : Stable EntrySource.decode (fun s => .str s.name) e.source :=
    Stable.choice (congrArg Except.ok e.source.ofName_name)
  refine Stable.record rfl ?normal ?build
  case normal => simp [h]
  case build =>
    exact Form.seq_eq_read (Form.seq_eq_read (Form.map_eq_read (hsource.field rfl))
      ((Stable.text e.key).field rfl)) ((Stable.any h).field rfl)

theorem KeyValueEntry.roundTrips : RoundTrips decode toJson := by
  refine Yields.record partsIn_isNormal fun fields hf e hbuild => ?_
  simp only [Form.seq_eq_read_iff, Form.map_eq_read_iff] at hbuild
  obtain ⟨_, ⟨_, ⟨source, -, rfl⟩, key, -, rfl⟩, value, hvalue, rfl⟩ := hbuild
  exact stable (Yields.any.withDefault hf isNormal_null hvalue)

theorem ApiEndpoint.stable {e : ApiEndpoint}
    (h : ∀ entry ∈ e.body, Stable KeyValueEntry.decode KeyValueEntry.toJson entry) :
    Stable decode toJson e := by
  have hmethod : Stable ApiMethod.decode (fun m => .str m.name) e.method :=
    Stable.choice (congrArg Except.ok e.method.ofName_name)
  have hbody := Stable.list h
  refine Stable.record rfl ?normal ?build
  case normal => simpa using hbody.isNormal
  case build =>
    exact Form.seq_eq_read (Form.seq_eq_read (Form.map_eq_read ((Stable.text e.url).field rfl))
      (hmethod.field rfl)) (hbody.field rfl)

theorem ApiEndpoint.roundTrips : RoundTrips decode toJson := by
  refine Yields.record partsIn_isNormal fun fields hf e hbuild => ?_
  simp only [Form.seq_eq_read_iff, Form.map_eq_read_iff] at hbuild
  obtain ⟨_, ⟨_, ⟨url, -, rfl⟩, method, -, rfl⟩, body, hbody, rfl⟩ := hbuild
  exact stable ((Yields.list partsIn_isNormal KeyValueEntry.roundTrips).withDefault hf
    (by simp) hbody)

theorem ApiCall.stable {m : ApiCall} (hapi : Stable ApiEndpoint.decode ApiEndpoint.toJson m.api)
    (h : ∀ entry ∈ m.headers, Stable KeyValueEntry.decode KeyValueEntry.toJson entry) :
    Stable decode toJson m := by
  have hheaders := Stable.list h
  refine Stable.record rfl ?normal ?build
  case normal => simpa [hapi.isNormal] using hheaders.isNormal
  case build =>
    exact Form.seq_eq_read (Form.map_eq_read (hapi.field rfl)) (hheaders.field rfl)

theorem ApiCall.roundTrips : RoundTrips decode toJson := by
  refine Yields.record partsIn_isNormal fun fields hf m hbuild => ?_
  simp only [Form.seq_eq_read_iff, Form.map_eq_read_iff] at hbuild
  obtain ⟨_, ⟨api, hapi, rfl⟩, headers, hheaders, rfl⟩ := hbuild
  exact stable (ApiEndpoint.roundTrips.required hf hapi)
    ((Yields.list partsIn_isNormal KeyValueEntry.roundTrips).withDefault hf (by simp) hheaders)

end Stepwise
