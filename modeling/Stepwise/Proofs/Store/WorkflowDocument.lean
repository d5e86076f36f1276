import Stepwise.Proofs.Step
import Stepwise.Proofs.Yaml.Values
import Stepwise.Store.WorkflowFolder

/-!
# Workflows in JSON documents

A workflow file is read as YAML. Where the text is a JSON object that is spelled as in YAML, with
the records of the workflow written as objects, the file holds the one workflow that the JSON value
stands for.
-/

namespace Stepwise

open Yaml (IsFinite)
open Json (SpelledNumber Spelled SpelledText)

variable {α β : Type}

/-! ## Decoders that agree -/

/-- What the JSON decoder gives for a value, the YAML decoder gives too. -/
def Agree (read : Json → Except DecodeError α) (read' : Yaml.Value → Except DecodeError α)
    (v : Json) : Prop :=
  ∀ a, read v = .ok a → read' (Yaml.Value.ofJson v) = .ok a

/-- The fields of an object as YAML has them. -/
def Fields.inYaml (members : List (String × Json)) : Fields Yaml.Value :=
  ⟨members.map fun m => (m.1, Yaml.Value.ofJson m.2), .missing⟩

namespace Json

theorem mem_numbersItems {items : List Json} {v : Json} (hv : v ∈ items) {n : Number}
    (hn : n ∈ v.numbers) : n ∈ numbersItems items := by
  induction items with
  | nil => cases hv
  | cons first rest ih =>
      rcases List.mem_cons.mp hv with rfl | hrest
      · exact List.mem_append_left _ hn
      · exact List.mem_append_right _ (ih hrest)

theorem mem_numbersMembers {members : List (String × Json)} {m : String × Json} (hm : m ∈ members)
    {n : Number} (hn : n ∈ m.2.numbers) : n ∈ numbersMembers members := by
  induction members with
  | nil => cases hm
  | cons first rest ih =>
      rcases List.mem_cons.mp hm with rfl | hrest
      · exact List.mem_append_left _ hn
      · exact List.mem_append_right _ (ih hrest)

end Json

namespace Agree

variable {read : Json → Except DecodeError α} {read' : Yaml.Value → Except DecodeError α}
  {members : List (String × Json)}

theorem text (v : Json) : Agree Json.decodeText Yaml.Value.decodeText v := by
  intro a h
  cases v <;> exact h

theorem any {v : Json} (h : IsFinite v) : Agree Json.decodeAny Yaml.Value.toJson v := by
  intro a ha
  rw [Yaml.Value.toJson_ofJson v h]
  exact ha

theorem optional {v : Json} (h : v ≠ .null → Agree read read' v) :
    Agree (Json.decodeOptional read) (Yaml.Value.decodeOptional read') v := by
  have hsome (hv : v ≠ .null) (a : Option α) (ha : (read v).map some = .ok a) :
      (read' (Yaml.Value.ofJson v)).map some = .ok a := by
    cases hread : read v with
    | error e =>
        rw [hread] at ha
        cases ha
    | ok x =>
        rw [hread] at ha
        rw [h hv x hread]
        exact ha
  intro a ha
  cases v with
  | null => exact ha
  | bool _ | num _ | str _ | arr _ | obj _ => exact hsome (by simp) a ha

theorem each {items : List Json} (h : ∀ v ∈ items, Agree read read' v) {xs : List α}
    (hxs : Json.decodeEach read items = .ok xs) :
    (items.map Yaml.Value.ofJson).mapM read' = .ok xs := by
  induction items generalizing xs with
  | nil => exact hxs
  | cons v rest ih =>
      obtain ⟨hv, hothers⟩ := List.forall_mem_cons.mp h
      rw [Json.decodeEach] at hxs
      cases hread : read v with
      | error e => simp [hread] at hxs
      | ok a =>
          cases htail : Json.decodeEach read rest with
          | error e => simp [hread, htail, Except.map] at hxs
          | ok tail =>
              obtain rfl : a :: tail = xs := by simpa [hread, htail, Except.map] using hxs
              rw [List.map_cons, List.mapM_cons, hv a hread, ih hothers htail]
              rfl

theorem list {v : Json} (h : ∀ items, v = .arr items → ∀ w ∈ items, Agree read read' w) :
    Agree (Json.decodeList read) (Yaml.Value.decodeList read') v := by
  intro xs hxs
  cases v with
  | arr items =>
      rw [Yaml.Value.ofJson, Yaml.Value.ofItems_eq_map]
      exact each (h items rfl) hxs
  | null | bool _ | num _ | str _ | obj _ => cases hxs

theorem find?_inYaml (members : List (String × Json)) (key : String) :
    Ordered.find? (Fields.inYaml members).entries key =
      (Ordered.find? members key).map Yaml.Value.ofJson :=
  Ordered.find?_map Yaml.Value.ofJson members key

theorem find?_ofMembers (members : List (String × Json)) (key : String) :
    ((Yaml.Value.ofMembers members).find? fun e => e.1.same (.str key)).map Prod.snd =
      (Ordered.find? members key).map Yaml.Value.ofJson := by
  induction members with
  | nil => rfl
  | cons m rest ih =>
      obtain ⟨name, v⟩ := m
      rw [Yaml.Value.ofMembers, List.find?_cons, Ordered.find?_cons, Yaml.Value.same]
      by_cases hname : name = key
      · rw [if_pos hname, beq_iff_eq.mpr hname]
        rfl
      · rw [if_neg hname, beq_false_of_ne hname]
        exact ih

/-- A field is read alike when the decoders agree on what stands there. -/
theorem field {key : String} (h : ∀ v, Ordered.find? members key = some v → Agree read read' v)
    {default : Option α} {a : α}
    (hread : Fields.field ⟨members, .missing⟩ key read default = .read a) :
    (Fields.inYaml members).field key read' default = .read a := by
  rw [Fields.field_eq_read_iff] at hread ⊢
  rw [find?_inYaml]
  rcases hread with ⟨v, hv, ha⟩ | ⟨hnone, hdefault⟩
  · rw [hv]
    exact .inl ⟨_, rfl, h v hv a ha⟩
  · rw [hnone]
    exact .inr ⟨rfl, hdefault⟩

/-- Every key of an object is a text. -/
theorem badKey?_ofMembers (members : List (String × Json)) (i : Nat) :
    Yaml.Value.badKey? i (Yaml.Value.ofMembers members) = none := by
  induction members generalizing i with
  | nil => rfl
  | cons m rest ih => exact ih (i + 1)

/-- An object is the same record when its fields are read alike. -/
theorem record (hkeys : (Ordered.keys members).Nodup) {name : String} {known : List String}
    {build : Fields Json → Form α} {build' : Fields Yaml.Value → Form α}
    (h : ∀ a, build ⟨members, .missing⟩ = .read a → build' (Fields.inYaml members) = .read a) :
    Agree (Json.decodeRecord name known build) (Yaml.Value.decodeRecord name known build')
      (.obj members) := by
  intro a hdecode
  have hbuild := h a (Fields.finish_eq_ok_iff.mp hdecode).1
  have hentries : (Yaml.Value.ofMembers members).map (fun e => (e.1.keyText?.getD "", e.2)) =
      (Fields.inYaml members).entries := by
    rw [Yaml.Value.ofMembers_eq_map, List.map_map]
    rfl
  have hkeys' : (Ordered.keys (Fields.inYaml members).entries).Nodup := by
    have hsame : Ordered.keys (Fields.inYaml members).entries = Ordered.keys members := by
      rw [Ordered.keys, Fields.inYaml, List.map_map]
      rfl
    rw [hsame]
    exact hkeys
  have hfinish : (Fields.inYaml members).finish known
      ((build' (Fields.inYaml members)).noting none) = .ok a := by
    rw [Fields.finish_eq_ok_iff]
    exact ⟨hbuild, Fields.repetition?_eq_none hkeys' known⟩
  simp only [Yaml.Value.ofJson, Yaml.Value.decodeRecord, Yaml.Value.untagged, badKey?_ofMembers,
    hentries]
  exact hfinish

end Agree

/-! ## Records of a workflow -/

/-- An object, not a list of the fields of a record. -/
def Json.IsObject (v : Json) : Prop := ∃ members, v = .obj members

/-- Every step under `steps` is written as an object. -/
def Json.HasStepObjects (v : Json) : Prop :=
  ∀ items, v.member? "steps" = some (.arr items) → ∀ step ∈ items, step.IsObject

/-- A workflow whose records are written as objects: itself, its steps and its meta. -/
structure Workflow.InObjects (v : Json) : Prop where
  itself : v.IsObject
  steps : v.HasStepObjects
  metaObject : ∀ w, v.member? "meta" = some w → w ≠ .null → w.IsObject ∧ w.HasStepObjects

/-- A value that both notations have: with distinct names and finite numbers. -/
structure Shared (v : Json) : Prop where
  normal : v.IsNormal
  finite : IsFinite v

theorem Shared.item {items : List Json} (h : Shared (.arr items)) {v : Json} (hv : v ∈ items) :
    Shared v where
  normal := (Json.isNormal_arr_iff items).mp h.normal v hv
  finite := fun d hd => h.finite d (Json.mem_numbersItems hv hd)

theorem Shared.member {members : List (String × Json)} (h : Shared (.obj members)) {key : String}
    {v : Json} (hv : Ordered.find? members key = some v) : Shared v where
  normal := ((Json.isNormal_obj_iff members).mp h.normal).2 _ (Ordered.mem_of_find? hv)
  finite := fun d hd => h.finite d (Json.mem_numbersMembers (Ordered.mem_of_find? hv) hd)

theorem Shared.keys {members : List (String × Json)} (h : Shared (.obj members)) :
    (Ordered.keys members).Nodup :=
  ((Json.isNormal_obj_iff members).mp h.normal).1

theorem Step.draftOfYaml_ofJson {members : List (String × Json)} (h : Shared (.obj members)) :
    Agree Draft.decode draftOfYaml (.obj members) := by
  refine Agree.record h.keys fun d hbuild => ?_
  simp only [Form.seq_eq_read_iff, Form.map_eq_read_iff] at hbuild ⊢
  obtain ⟨_, ⟨_, ⟨_, ⟨_, ⟨label, hlabel, rfl⟩, name, hname, rfl⟩, type, htype, rfl⟩, object,
    hobject, rfl⟩, config, hconfig, rfl⟩ := hbuild
  have htext (key : String) (w : Json) (_ : Ordered.find? members key = some w) :=
    Agree.text w
  have hany (w : Json) (hw : Ordered.find? members "meta" = some w) :=
    Agree.any (h.member hw).finite
  exact ⟨_, ⟨_, ⟨_, ⟨_, ⟨label, Agree.field (htext _) hlabel, rfl⟩, name,
    Agree.field (htext _) hname, rfl⟩, type, Agree.field (htext _) htype, rfl⟩, object,
    Agree.field (htext _) hobject, rfl⟩, config, Agree.field hany hconfig, rfl⟩

theorem Step.ofYaml_ofJson {v : Json} (hobject : v.IsObject) (h : Shared v) :
    Agree decode ofYaml v := by
  obtain ⟨members, rfl⟩ := hobject
  intro s hs
  rw [decode_eq] at hs
  cases hdraft : Draft.decode (.obj members) with
  | error e =>
      rw [hdraft] at hs
      cases hs
  | ok d =>
      rw [hdraft] at hs
      rw [ofYaml, draftOfYaml_ofJson h d hdraft]
      refine Eq.trans (ofDraft_congr fun w hw => ?_) hs
      exact decodeWithin_eq (by omega) (Nat.lt_succ_self _)

namespace Workflow

/-- The steps under `steps` are read alike. -/
theorem steps_ofJson {members : List (String × Json)} (hsteps : (Json.obj members).HasStepObjects)
    (h : Shared (.obj members)) {w : Json} (hw : Ordered.find? members "steps" = some w) :
    Agree (Json.decodeList Step.decode) (Yaml.Value.decodeList Step.ofYaml) w := by
  refine Agree.list fun items hitems step hstep => ?_
  subst hitems
  exact Step.ofYaml_ofJson (hsteps items hw step hstep) ((h.member hw).item hstep)

theorem metaSteps_ofJson {v : Json} (hobject : v.IsObject) (hsteps : v.HasStepObjects)
    (h : Shared v) : Agree (decodeMeta Step.decode) metaStepsOfYaml v := by
  obtain ⟨members, rfl⟩ := hobject
  refine Agree.record h.keys fun steps hbuild => ?_
  exact Agree.field (fun w hw => steps_ofJson hsteps h hw) hbuild

/-- A workflow whose records are objects is the same in YAML. -/
theorem ofYaml_ofJson {v : Json} (hobjects : InObjects v) (h : Shared v) :
    Agree decode ofYaml v := by
  obtain ⟨⟨members, rfl⟩, hsteps, hmeta⟩ := hobjects
  unfold decode ofYaml
  refine Agree.record h.keys fun workflow hbuild => ?_
  simp only [Form.seq_eq_read_iff, Form.map_eq_read_iff] at hbuild ⊢
  obtain ⟨_, ⟨_, ⟨_, ⟨_, ⟨name, hname, rfl⟩, label, hlabel, rfl⟩, description, hdescription, rfl⟩,
    steps, htop, rfl⟩, metaSteps, hmetaSteps, rfl⟩ := hbuild
  have htext (key : String) (w : Json) (_ : Ordered.find? members key = some w) := Agree.text w
  have hoptional (key : String) (w : Json) (_ : Ordered.find? members key = some w) :=
    Agree.optional fun _ : w ≠ .null => Agree.text w
  have hlist (w : Json) (hw : Ordered.find? members "steps" = some w) :=
    Agree.optional fun _ => steps_ofJson hsteps h hw
  have hbehind (w : Json) (hw : Ordered.find? members "meta" = some w) :=
    Agree.optional fun hne =>
      metaSteps_ofJson (hmeta w hw hne).1 (hmeta w hw hne).2 (h.member hw)
  exact ⟨_, ⟨_, ⟨_, ⟨_, ⟨name, Agree.field (htext _) hname, rfl⟩, label,
    Agree.field (hoptional _) hlabel, rfl⟩, description, Agree.field (hoptional _) hdescription,
    rfl⟩, steps, Agree.field hlist htop, rfl⟩, metaSteps, Agree.field hbehind hmetaSteps, rfl⟩

/-- Without a list of workflows a document holds the one workflow it is. -/
theorem allOfYaml_ofJson {v : Json} (hobjects : InObjects v) (h : Shared v)
    (hsingle : v.member? "processes" = none) {w : Workflow} (hw : decode v = .ok w) :
    allOfYaml (Yaml.Value.ofJson v) = .ok [w] := by
  have hnone : (Yaml.Value.ofJson v).member? "processes" = none := by
    obtain ⟨members, rfl⟩ := hobjects.itself
    have hfind := Agree.find?_ofMembers members "processes"
    have hmember : Ordered.find? members "processes" = none := hsingle
    rw [hmember] at hfind
    exact hfind
  rw [allOfYaml, hnone, ofYaml_ofJson hobjects h w hw]
  rfl

end Workflow

namespace WorkflowFolder

/-- A file with a JSON object that is spelled as in YAML, whose names are distinct and which is no
list of workflows, holds exactly the workflow that is decoded from the JSON value. -/
theorem load_spelled {t : SpelledText} (hcommon : t.IsCommon)
    (hdepth : t.value.depth ≤ Fragment.maxDepth) (hnormal : t.value.IsNormal)
    (hobjects : Workflow.InObjects t.value) (hsingle : t.value.member? "processes" = none)
    {w : Workflow} (hdecode : Workflow.decode t.value = .ok w) {files : FileTree} {path : String}
    (hfile : files.readText path = .ok t.text) :
    Json.parse? t.text = some t.value ∧ load files path = .ok [w] := by
  have hyaml : Yaml.Value.ofText? t.text = some (Yaml.Value.ofJson t.value) :=
    Yaml.Value.ofText?_spelled hcommon hobjects.itself hnormal (Nat.le_succ_of_le hdepth)
  have hshared : Shared t.value := ⟨hnormal, Yaml.isFinite_spelled t.spelled hcommon.spelled⟩
  have hall := Workflow.allOfYaml_ofJson hobjects hshared hsingle hdecode
  refine ⟨Json.parse?_spelled t hdepth, ?_⟩
  simp only [load, hfile, Workflow.ofText, hyaml, hall]

/-- A number with a minus, a point and a zero at its end. -/
def spelledNumber : SpelledNumber :=
  ⟨"-2.50".toList, .float ⟨true, 0x4004000000000000⟩, by decide +kernel⟩

/-- A workflow with white space of every kind, escapes and a number. -/
def spelledWorkflow : SpelledText where
  before := .of [' ', '\r', '\n'] rfl
  spelled :=
    .obj (.next (.of [] rfl)
      [.plain 'n' (by decide), .plain 'a' (by decide), .plain 'm' (by decide),
        .unit '0' '0' '6' '5' 0x65 (by decide) (by decide)]
      (.of [' ', '\t'] rfl) (.of ['\n'] rfl)
      (.str [.plain 'r' (by decide), .short '/' '/' (by decide), .plain ' ' (by decide),
        .unit '0' '0' 'e' '9' 0xe9 (by decide) (by decide)]) (.of [' '] rfl)
      (.next (.of ['\n', '\t'] rfl) [.plain 'x' (by decide)] (.of [] rfl) (.of [] rfl)
        (.num spelledNumber) (.of ['\t'] rfl)
        (.last (.of [] rfl)
          [.plain 's' (by decide), .plain 't' (by decide), .plain 'e' (by decide),
            .plain 'p' (by decide), .plain 's' (by decide)]
          (.of [] rfl) (.of [' '] rfl) (.emptyArr (.of ['\n'] rfl)) (.of [] rfl))))
  after := .of ['\n'] rfl

theorem spelledWorkflow_isCommon : spelledWorkflow.IsCommon where
  before := by decide
  spelled := by
    have hnumber : ∀ d, spelledNumber.number = .float d →
        Yaml.plain? (String.ofList spelledNumber.literal) = some (.num (.float d)) := by
      rintro d ⟨⟩
      exact Yaml.plain?_of_float? spelledNumber (Option.isNone_iff_eq_none.mp (by decide +kernel))
        (by decide +kernel) (by decide +kernel)
    exact ⟨⟨by decide, List.all_eq_true.mp rfl, by decide⟩, by unfold Spelled.IsCommon; decide,
      ⟨by decide, List.all_eq_true.mp rfl, by decide⟩, hnumber,
      ⟨by decide, List.all_eq_true.mp rfl, by decide⟩, trivial⟩
  after := by decide

theorem spelledWorkflow_inObjects : Workflow.InObjects spelledWorkflow.value where
  itself := ⟨_, rfl⟩
  steps := by
    rintro items ⟨⟩ step hstep
    cases hstep
  metaObject := by
    rintro w ⟨⟩

/-- White space, escapes and a number are read as JSON has them. -/
theorem load_spelledWorkflow :
    spelledWorkflow.text =
      " \r\n\x7b\"nam\\u0065\" \t:\n\"r\\/ \\u00e9\" ,\n\t\"x\":-2.50\t,\"steps\": [\n]\x7d\n" ∧
    load [(["p.json"], .file (.text spelledWorkflow.text))] "p.json" =
      .ok [⟨"r/ é", none, none, []⟩] := by
  have hdepth : spelledWorkflow.value.depth ≤ Fragment.maxDepth := by decide +kernel
  have hdecode : Workflow.decode spelledWorkflow.value = .ok ⟨"r/ é", none, none, []⟩ := rfl
  have hfile : FileTree.readText [(["p.json"], .file (.text spelledWorkflow.text))] "p.json" =
      .ok spelledWorkflow.text := rfl
  exact ⟨by decide +kernel, (load_spelled spelledWorkflow_isCommon hdepth rfl
    spelledWorkflow_inObjects rfl hdecode hfile).2⟩

/-- A workflow whose name is a character beyond the first plane, spelled as two units. -/
def pairedWorkflow : SpelledText where
  before := .of [] rfl
  spelled :=
    .obj (.next (.of [] rfl)
      [.plain 'n' (by decide), .plain 'a' (by decide), .plain 'm' (by decide),
        .plain 'e' (by decide)]
      (.of [] rfl) (.of [] rfl)
      (.str [.pair 'd' '8' '3' 'd' 0xd83d (by decide) 'd' 'e' '0' '0' 0xde00 (by decide)
        (by decide)]) (.of [] rfl)
      (.last (.of [] rfl)
        [.plain 's' (by decide), .plain 't' (by decide), .plain 'e' (by decide),
          .plain 'p' (by decide), .plain 's' (by decide)]
        (.of [] rfl) (.of [] rfl) (.emptyArr (.of [] rfl)) (.of [] rfl)))
  after := .of [] rfl

/-- As JSON the text is a workflow with distinct names and no list of workflows; as YAML it is
malformed. -/
theorem load_pairedWorkflow :
    Json.parse? pairedWorkflow.text = some pairedWorkflow.value ∧
    pairedWorkflow.value.IsNormal ∧ Workflow.InObjects pairedWorkflow.value ∧
    pairedWorkflow.value.member? "processes" = none ∧
    Workflow.decode pairedWorkflow.value = .ok ⟨"😀", none, none, []⟩ ∧
    load [(["p.json"], .file (.text pairedWorkflow.text))] "p.json" =
      .error (.decode "p.json" .malformed) := by
  have hdepth : pairedWorkflow.value.depth ≤ Fragment.maxDepth := by decide +kernel
  have hobjects : Workflow.InObjects pairedWorkflow.value := by
    refine ⟨⟨_, rfl⟩, ?_, ?_⟩
    · rintro items ⟨⟩ step hstep
      cases hstep
    · rintro w ⟨⟩
  have hmalformed : Yaml.Token.ofText? pairedWorkflow.text = none :=
    Option.isNone_iff_eq_none.mp (by decide +kernel)
  have hfile : FileTree.readText [(["p.json"], .file (.text pairedWorkflow.text))] "p.json" =
      .ok pairedWorkflow.text := rfl
  refine ⟨Json.parse?_spelled pairedWorkflow hdepth, rfl, hobjects, rfl, rfl, ?_⟩
  simp only [load, hfile, Workflow.ofText, Yaml.Value.ofText?, hmalformed, Option.bind_eq_bind,
    Option.bind_none]

end WorkflowFolder

end Stepwise
