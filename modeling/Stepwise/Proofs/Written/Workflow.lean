import Stepwise.Proofs.Step
import Stepwise.Proofs.Written.Task

/-!
# Workflows survive being written

The meta of a step is given distinct names before it is decoded, so its settings round-trip, and so
do the steps inside a branch, by induction on the levels that are read. Main statement: a workflow
that was decoded from any value is written in a form that decodes to the same workflow.
-/

namespace Stepwise

open Json (IsNormal Stable Yields partsIn_isNormal partsIn_true isNormal_null isNormal_normal)

attribute [local simp] Ordered.find?_cons Ordered.find?_append Ordered.keys find?_optionalMember

theorem StepKind.ofName?_name (kind : StepKind) : ofName? kind.name = some kind := by
  cases kind <;> rfl

namespace Step

theorem toJsonAll_eq_map (steps : List Step) : toJsonAll steps = steps.map toJson := by
  induction steps with
  | nil => rfl
  | cons s rest ih => rw [toJsonAll, ih, List.map_cons]

/-! ## Drafts -/

theorem Draft.isNormal_config {v : Json} {d : Draft} (h : Draft.decode v = .ok d) :
    d.config.IsNormal :=
  Draft.yields_config partsIn_true Yields.any isNormal_null v d trivial h

theorem Draft.stable {d : Draft} (h : d.config.IsNormal) :
    Stable Draft.decode (fun d => written d.heading d.type d.config) d := by
  refine Stable.record rfl ?normal ?build
  case normal => simp [h]
  case build =>
    exact Form.seq_eq_read (Form.seq_eq_read (Form.seq_eq_read (Form.seq_eq_read
      (Form.map_eq_read ((Stable.text d.label).field rfl))
      ((Stable.text d.name).field rfl)) ((Stable.text d.type).field rfl))
      ((Stable.text d.object).field rfl)) ((Stable.any h).field rfl)

theorem Draft.isNormal_effectiveConfig {d : Draft} (h : d.config.IsNormal) :
    d.effectiveConfig.IsNormal := by
  rw [effectiveConfig.eq_def]
  split
  · simp
  · exact h

/-! ## Steps -/

theorem isNormal_written (h : Heading) (type : String) {config : Json}
    (hconfig : config.IsNormal) : (written h type config).IsNormal := by
  simp [written, hconfig]

/-- A step is decoded from the draft that was written. -/
theorem decode_written (h : Heading) (type : String) {config : Json} (hconfig : config.IsNormal) :
    decode (written h type config) =
      ofDraft decode ⟨h.label, h.name, type, h.object, config⟩ := by
  have hdraft : Draft.decode (written h type config) =
      .ok ⟨h.label, h.name, type, h.object, config⟩ :=
    (Draft.stable (d := ⟨h.label, h.name, type, h.object, config⟩) hconfig).decodes
  rw [decode_eq, hdraft]

theorem stable_unknown {h : Heading} {type : String} {config : Json}
    (htype : StepKind.ofName? type = none) (hconfig : config.IsNormal) :
    Stable decode toJson (unknown h type config) where
  isNormal := isNormal_written h type hconfig
  decodes := by
    rw [toJson, decode_written h type hconfig, ofDraft, htype]
    rfl

/-- A step of a known type is stable when its meta decodes to its body again. -/
theorem stable_of_config {s : Step} (kind : StepKind) {members : List (String × Json)}
    (hjson : s.toJson = written s.heading kind.name (.obj members))
    (hnormal : (Json.obj members).IsNormal)
    (hbody : decodeBody decode s.heading (.obj members) kind = .ok s) :
    Stable decode toJson s where
  isNormal := hjson ▸ isNormal_written _ _ hnormal
  decodes := by
    rw [hjson, decode_written _ _ hnormal, ofDraft, StepKind.ofName?_name]
    simp only [Draft.heading, Draft.effectiveConfig, hbody]

theorem yields_findRecord (h : Heading) :
    Yields IsNormal (fun config => (decodeFindRecord config).map (task h))
      (Stable decode toJson) := by
  refine Yields.mapped (P := fun t => Stable decode toJson (task h t)) ?_ fun _ ht => ht
  refine Yields.record partsIn_isNormal fun fields hf t hbuild => ?_
  obtain ⟨condition, hcondition, rfl⟩ := Form.map_eq_read_iff.mp hbuild
  have hstable := Condition.roundTrips.withDefault hf Condition.stable_always hcondition
  have hconfig : Stable decodeFindRecord Task.config (.findRecord condition) := by
    refine Stable.record rfl ?normal ?build
    case normal => simp [hstable.isNormal]
    case build => exact Form.map_eq_read (hstable.field rfl)
  exact stable_of_config .findRecord rfl hconfig.isNormal
    (congrArg (Except.map (task h)) hconfig.decodes)

theorem stable_branch {h : Heading} {c : Condition} {steps : List Step}
    (hc : Stable Condition.decode Condition.toJson c)
    (hs : ∀ s ∈ steps, Stable decode toJson s) :
    Stable decode toJson (branch h c steps) := by
  have hsteps := Stable.list hs
  have hconfig : Stable (decodeBranch decode)
      (fun b => .obj [("conditions", b.1.toJson), ("steps", .arr (b.2.map toJson))])
      (c, steps) := by
    refine Stable.record rfl ?normal ?build
    case normal => simpa [hc.isNormal] using hsteps.isNormal
    case build => exact Form.seq_eq_read (Form.map_eq_read (hc.field rfl)) (hsteps.field rfl)
  refine stable_of_config .branch ?_ hconfig.isNormal (congrArg (Except.map _) hconfig.decodes)
  rw [toJson, toJsonAll_eq_map]
  rfl

theorem yields_branch {step : Json → Except DecodeError Step}
    (hstep : Yields IsNormal step (Stable decode toJson)) :
    Yields IsNormal (decodeBranch step) fun body =>
      Stable Condition.decode Condition.toJson body.1 ∧
        ∀ s ∈ body.2, Stable decode toJson s := by
  refine Yields.record partsIn_isNormal fun fields hf body hbuild => ?_
  simp only [Form.seq_eq_read_iff, Form.map_eq_read_iff] at hbuild
  obtain ⟨_, ⟨condition, hcondition, rfl⟩, steps, hsteps, rfl⟩ := hbuild
  exact ⟨Condition.roundTrips.withDefault hf Condition.stable_always hcondition,
    (Yields.list partsIn_isNormal hstep).withDefault hf (by simp) hsteps⟩

/-- The meta of a step of a known type gives a stable step. -/
theorem yields_body {step : Json → Except DecodeError Step}
    (hstep : Yields IsNormal step (Stable decode toJson)) (h : Heading) (kind : StepKind) :
    Yields IsNormal (fun config => decodeBody step h config kind) (Stable decode toJson) := by
  cases kind with
  | findRecord => exact yields_findRecord h
  | branch =>
      exact (yields_branch hstep).mapped fun _ hbody => stable_branch hbody.1 hbody.2
  | createPdf =>
      exact CreatePdf.roundTrips.mapped fun m hm => stable_of_config .createPdf rfl
        hm.isNormal (congrArg (Except.map _) hm.decodes)
  | sendEmail =>
      exact SendEmail.roundTrips.mapped fun m hm => stable_of_config .sendEmail rfl
        hm.isNormal (congrArg (Except.map _) hm.decodes)
  | apiCall =>
      exact ApiCall.roundTrips.mapped fun m hm => stable_of_config .apiCall rfl
        hm.isNormal (congrArg (Except.map _) hm.decodes)
  | updateRecord =>
      exact UpdateRecord.roundTrips.mapped fun m hm => stable_of_config .updateRecord rfl
        hm.isNormal (congrArg (Except.map _) hm.decodes)

theorem stable_of_ofDraft {step : Json → Except DecodeError Step}
    (hstep : Yields IsNormal step (Stable decode toJson)) {d : Draft}
    (hconfig : d.config.IsNormal) {s : Step} (h : ofDraft step d = .ok s) :
    Stable decode toJson s := by
  rw [ofDraft] at h
  split at h
  · next htype =>
    obtain rfl := Except.ok.inj h
    exact stable_unknown htype hconfig
  · next kind _ =>
    split at h
    · next s' hbody =>
      obtain rfl := Except.ok.inj h
      exact yields_body hstep d.heading kind _ s' (Draft.isNormal_effectiveConfig hconfig) hbody
    · cases h

/-- Whatever is decoded from any value is stable, by induction on the levels that are read. -/
theorem yields_decodeWithin (levels : Nat) :
    Yields (fun _ => True) (decodeWithin levels) (Stable decode toJson) := by
  induction levels with
  | zero => exact fun v s _ hdecode => nomatch hdecode
  | succ levels ih =>
      intro v s _ hdecode
      rw [decodeWithin] at hdecode
      split at hdecode
      · cases hdecode
      · next d hdraft =>
        exact stable_of_ofDraft (fun w s _ hs => ih w s trivial hs)
          (Draft.isNormal_config hdraft) hdecode

theorem yields_decode : Yields (fun _ => True) decode (Stable decode toJson) :=
  fun v => yields_decodeWithin (v.depth + 1) v

end Step

/-! ## Workflows -/

namespace Workflow

theorem yields_decodeMeta :
    Yields (fun _ => True) (decodeMeta Step.decode) fun steps =>
      ∀ s ∈ steps, Stable Step.decode Step.toJson s := by
  refine Yields.record partsIn_true fun fields hf steps hbuild => ?_
  exact (Yields.list partsIn_true Step.yields_decode).withDefault hf (by simp) hbuild

theorem yields_decode :
    Yields (fun _ => True) decode fun p => ∀ s ∈ p.steps, Stable Step.decode Step.toJson s := by
  refine Yields.record partsIn_true fun fields hf p hbuild => ?_
  simp only [Form.seq_eq_read_iff, Form.map_eq_read_iff] at hbuild
  obtain ⟨_, ⟨_, ⟨_, ⟨_, ⟨name, -, rfl⟩, label, -, rfl⟩, description, -, rfl⟩, steps, hsteps, rfl⟩,
    metaSteps, hmeta, rfl⟩ := hbuild
  have htop :=
    (Yields.list partsIn_true Step.yields_decode).optional.withDefault hf (by simp) hsteps
  have hinner := yields_decodeMeta.optional.withDefault hf (by simp) hmeta
  -- steps at the top hide those under `meta`
  intro s hs
  cases steps with
  | some top => exact htop top rfl s hs
  | none =>
      cases metaSteps with
      | some inner => exact hinner inner rfl s hs
      | none => cases hs

theorem stable {p : Workflow} (h : ∀ s ∈ p.steps, Stable Step.decode Step.toJson s) :
    Stable decode toJson p := by
  have hsteps : Stable (Json.decodeList Step.decode)
      (fun steps => .arr (steps.map Step.toJson)) p.steps :=
    Stable.list h
  refine Stable.record rfl ?normal ?build
  case normal =>
    cases p.label <;> cases p.description <;>
      simpa [optionalMember, Step.toJsonAll_eq_map] using hsteps.isNormal
  case build =>
    have htop : Json.decodeOptional (Json.decodeList Step.decode)
        (.arr (Step.toJsonAll p.steps)) = .ok (some p.steps) := by
      rw [Step.toJsonAll_eq_map]
      exact congrArg (Except.map some) hsteps.decodes
    -- the last field is `meta`, which is never written and takes its default
    exact Form.seq_eq_read (Form.seq_eq_read (Form.seq_eq_read (Form.seq_eq_read
      (Form.map_eq_read ((Stable.text p.name).field rfl))
      (Fields.optionalText (by simp))) (Fields.optionalText (by simp)))
      (Fields.field_eq_read_iff.mpr (Or.inl ⟨_, by simp, htop⟩)))
      (Fields.field_eq_read_iff.mpr (Or.inr ⟨by simp, rfl⟩))

end Workflow

end Stepwise
