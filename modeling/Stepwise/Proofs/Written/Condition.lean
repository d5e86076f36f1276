import Stepwise.Condition
import Stepwise.Proofs.Decode

/-!
# Variables and conditions survive being written

References and fields hold texts only and are stable as they are. An operand holds any value; one
that is decoded from a value with distinct names is written in a form that decodes to it again.
-/

namespace Stepwise

open Json (IsNormal Stable RoundTrips Yields partsIn_isNormal)

attribute [local simp] Ordered.find?_cons Ordered.find?_append Ordered.keys

/-! ## Optional members -/

@[local simp] theorem find?_optionalMember (key other : String) (o : Option String) :
    Ordered.find? (optionalMember key o) other = if key = other then o.map Json.str else none := by
  cases o <;> simp [optionalMember]

/-- A member that is left out reads as nothing. -/
theorem Fields.optionalText {fields : Fields Json} {key : String} {o : Option String}
    (hf : Ordered.find? fields.entries key = o.map Json.str) :
    fields.withDefault key (Json.decodeOptional Json.decodeText) none = .read o := by
  refine Fields.field_eq_read_iff.mpr ?_
  cases o with
  | none => exact Or.inr ⟨hf, rfl⟩
  | some s => exact Or.inl ⟨.str s, hf, rfl⟩

/-! ## Variables -/

theorem VariableHandle.stable (h : VariableHandle) : Stable decode toJson h := by
  refine Stable.record rfl ?normal ?build
  case normal => cases h.object <;> simp [optionalMember]
  case build =>
    exact Form.seq_eq_read (Form.map_eq_read ((Stable.text h.name).field rfl))
      (Fields.optionalText (by simp))

theorem VariableSelector.stable (s : VariableSelector) : Stable decode toJson s := by
  have hvalue := s.value.stable
  refine Stable.record rfl ?normal ?build
  case normal => cases s.text <;> simp [optionalMember, hvalue.isNormal]
  case build =>
    exact Form.seq_eq_read (Form.map_eq_read (Fields.optionalText (by simp)))
      (hvalue.field (by simp))

theorem VariableReference.decodeName_named (name : String) :
    decodeName (.str name) = .ok (named name) := rfl

theorem VariableReference.decodeName_selected (s : VariableSelector) :
    decodeName s.toJson = .ok (selected s) := by
  change (VariableSelector.decode s.toJson).map selected = _
  rw [s.stable.decodes]
  rfl

theorem VariableReference.stable (r : VariableReference) : Stable decode toJson r := by
  obtain ⟨w, hnormal, hjson, hname⟩ :
      ∃ w : Json, w.IsNormal ∧ r.toJson = .obj [("name", w)] ∧ decodeName w = .ok r := by
    cases r with
    | named name => exact ⟨.str name, rfl, rfl, decodeName_named name⟩
    | selected s => exact ⟨s.toJson, s.stable.isNormal, rfl, decodeName_selected s⟩
  refine ⟨by simp [hjson, hnormal], ?_⟩
  have hread : Json.decodeMembers ["name"] (fun fields => fields.required "name" decodeName)
      [("name", w)] = .ok r := by
    refine Fields.finish_eq_ok_iff.mpr ⟨?_, Fields.repetition?_eq_none (by simp) _⟩
    exact Fields.field_eq_read_iff.mpr (Or.inl ⟨w, rfl, hname⟩)
  rw [hjson]
  simp [decode, hread]

theorem VariableField.stable (f : VariableField) : Stable decode toJson f := by
  have hreference := f.reference.stable
  refine Stable.record rfl ?normal ?build
  case normal => simp [hreference.isNormal]
  case build =>
    exact Form.seq_eq_read (Form.map_eq_read (hreference.field rfl))
      ((Stable.text f.field).field rfl)

/-! ## Conditions -/

namespace Operand

theorem typed?_typed (kind : String) (value : Json) :
    typed? (typed kind value) = ofParts? (.str kind) value := rfl

theorem isNormal_typed {kind : String} {value : Json} (h : value.IsNormal) :
    (typed kind value).IsNormal := by
  simp [typed, h]

theorem ofJson_of_typed? {v : Json} {o : Operand} (h : typed? v = some o) : ofJson v = o := by
  rw [ofJson, h]

theorem stable_literal {v : Json} (h : v.IsNormal) : Stable decode toJson (literal v) where
  isNormal := isNormal_typed h
  decodes := by
    refine congrArg Except.ok (ofJson_of_typed? ?_)
    rw [toJson, typed?_typed]
    exact congrArg (fun w => some (literal w)) h

theorem stable_variableField (f : VariableField) : Stable decode toJson (variableField f) where
  isNormal := isNormal_typed f.stable.isNormal
  decodes := by
    refine congrArg Except.ok (ofJson_of_typed? ?_)
    rw [toJson, typed?_typed]
    change (VariableField.decode f.toJson).toOption.map variableField = _
    rw [f.stable.decodes]
    rfl

theorem stable_recordField (f : String) : Stable decode toJson (recordField f) :=
  ⟨isNormal_typed rfl, rfl⟩

theorem ofParts?_cases {type value : Json} {o : Operand} (h : ofParts? type value = some o) :
    (o = literal value.normal) ∨ (∃ f, o = variableField f) ∨ ∃ f, o = recordField f := by
  rw [ofParts?] at h
  split at h
  · cases h
  · split at h
    · exact Or.inl (Option.some.inj h).symm
    · split at h
      · obtain ⟨f, -, rfl⟩ := Option.map_eq_some_iff.mp h
        exact Or.inr (Or.inl ⟨f, rfl⟩)
      · split at h
        · obtain ⟨f, -, rfl⟩ := Option.map_eq_some_iff.mp h
          exact Or.inr (Or.inr ⟨f, rfl⟩)
        · cases h

/-- An operand in a written form has two parts. -/
theorem exists_ofParts?_of_typed? {v : Json} {o : Operand} (h : typed? v = some o) :
    ∃ type value, ofParts? type value = some o := by
  rw [typed?.eq_def] at h
  split at h
  · split at h
    · cases h
    · split at h
      · exact ⟨_, _, h⟩
      · cases h
  · exact ⟨_, _, h⟩
  · cases h

/-- A bare operand had none of the written forms when it was read, and it is written as it was
read, so it does not turn into another operand. -/
theorem roundTrips : RoundTrips decode toJson := by
  intro v o hv h
  obtain rfl : ofJson v = o := Except.ok.inj h
  cases htyped : typed? v with
  | none =>
      -- distinct names leave nothing to normalise, so the value is kept as it was looked at
      have hbare : ofJson v = bare v := by rw [ofJson, htyped, hv]
      rw [hbare]
      exact ⟨hv, congrArg Except.ok hbare⟩
  | some o =>
      rw [ofJson_of_typed? htyped]
      obtain ⟨type, value, hparts⟩ := exists_ofParts?_of_typed? htyped
      rcases ofParts?_cases hparts with rfl | ⟨f, rfl⟩ | ⟨f, rfl⟩
      · exact stable_literal (Json.isNormal_normal value)
      · exact stable_variableField f
      · exact stable_recordField f

/-- A name that is repeated disappears when the operand is read, and one of the written forms is
left: such an operand does not survive being written. -/
example :
    decode (.obj [("type", .str "literal"), ("value", .null), ("type", .str "literal")]) =
        .ok (bare (typed "literal" .null)) ∧
      decode (bare (typed "literal" .null)).toJson = .ok (literal .null) :=
  ⟨rfl, rfl⟩

end Operand

theorem Statement.stable {s : Statement} (hl : Stable Operand.decode Operand.toJson s.lhs)
    (hr : Stable Operand.decode Operand.toJson s.rhs) : Stable decode toJson s := by
  refine Stable.record rfl ?normal ?build
  case normal => simp [hl.isNormal, hr.isNormal]
  case build =>
    exact Form.seq_eq_read (Form.seq_eq_read (Form.map_eq_read (hl.field rfl))
      ((Stable.text s.operator).field rfl)) (hr.field rfl)

theorem Statement.roundTrips : RoundTrips decode toJson := by
  refine Yields.record partsIn_isNormal fun fields hf s hbuild => ?_
  simp only [Form.seq_eq_read_iff, Form.map_eq_read_iff] at hbuild
  obtain ⟨_, ⟨_, ⟨lhs, hlhs, rfl⟩, operator, -, rfl⟩, rhs, hrhs, rfl⟩ := hbuild
  exact stable (Operand.roundTrips.required hf hlhs) (Operand.roundTrips.required hf hrhs)

theorem Condition.stable {c : Condition}
    (h : ∀ s ∈ c.statements, Stable Statement.decode Statement.toJson s) :
    Stable decode toJson c := by
  have hstatements := Stable.list h
  refine Stable.record rfl ?normal ?build
  case normal => cases c.object <;> simpa [optionalMember] using hstatements.isNormal
  case build =>
    exact Form.seq_eq_read (Form.map_eq_read (Fields.optionalText (by simp)))
      (hstatements.field (by simp))

theorem Condition.stable_always : Stable decode toJson always :=
  Condition.stable nofun

theorem Condition.roundTrips : RoundTrips decode toJson := by
  refine Yields.record partsIn_isNormal fun fields hf c hbuild => ?_
  simp only [Form.seq_eq_read_iff, Form.map_eq_read_iff] at hbuild
  obtain ⟨_, ⟨object, -, rfl⟩, statements, hstatements, rfl⟩ := hbuild
  exact stable ((Yields.list partsIn_isNormal Statement.roundTrips).withDefault hf (by simp)
    hstatements)

end Stepwise
