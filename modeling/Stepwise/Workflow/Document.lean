import Stepwise.Store.Error
import Stepwise.Workflow
import Stepwise.Yaml.Node

/-!
# Workflow documents

A document is a YAML text with one workflow, or with a list of them under `processes`. JSON texts
are read the same way. The meta of a step is turned into JSON, so that a document says the same
about it in either notation.
-/

namespace Stepwise

namespace Step

/-- A step of a document before its meta is looked at. -/
def draftOfYaml : Yaml.Value → Except DecodeError Draft :=
  Yaml.Value.decodeRecord "RawStep" Draft.knownFields fun fields =>
    Draft.mk <$> fields.withDefault "label" Yaml.Value.decodeText ""
      <*> fields.withDefault "name" Yaml.Value.decodeText ""
      <*> fields.required "type" Yaml.Value.decodeText
      <*> fields.withDefault "object" Yaml.Value.decodeText ""
      <*> fields.withDefault "meta" Yaml.Value.toJson .null

def ofYaml (v : Yaml.Value) : Except DecodeError Step :=
  match draftOfYaml v with
  | .error e => .error e
  | .ok draft => ofDraft (decodeWithin (draft.config.depth + 1)) draft

end Step

namespace Workflow

/-- The steps under `meta`. -/
def metaStepsOfYaml : Yaml.Value → Except DecodeError (List Step) :=
  Yaml.Value.decodeRecord "RawProcessMeta" ["steps"] fun fields =>
    fields.withDefault "steps" (Yaml.Value.decodeList Step.ofYaml) []

def ofYaml : Yaml.Value → Except DecodeError Workflow :=
  let optionalText := Yaml.Value.decodeOptional Yaml.Value.decodeText
  Yaml.Value.decodeRecord "RawProcess" knownFields fun fields =>
    ofParts <$> fields.required "name" Yaml.Value.decodeText
      <*> fields.withDefault "label" optionalText none
      <*> fields.withDefault "description" optionalText none
      <*> fields.withDefault "steps"
        (Yaml.Value.decodeOptional (Yaml.Value.decodeList Step.ofYaml)) none
      <*> fields.withDefault "meta" (Yaml.Value.decodeOptional metaStepsOfYaml) none

/-- The workflows under `processes`. -/
def bundleOfYaml : Yaml.Value → Except DecodeError (List Workflow) :=
  Yaml.Value.decodeRecord "ProcessBundle" ["processes"] fun fields =>
    fields.required "processes" (Yaml.Value.decodeList ofYaml)

/-- The workflows of a document. -/
def allOfYaml (v : Yaml.Value) : Except DecodeError (List Workflow) :=
  match v.member? "processes" with
  | some _ => bundleOfYaml v
  | none => (ofYaml v).map ([·])

/-- The workflows of a text. -/
def ofText (text : String) : Except DocumentFault (List Workflow) :=
  match Yaml.Value.ofText? text with
  | none => .error .malformed
  | some v =>
      match allOfYaml v with
      | .ok workflows => .ok workflows
      | .error e => .error (.shape .yaml e)

end Workflow

end Stepwise
