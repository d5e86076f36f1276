import Stepwise.Workflow.Task

/-!
# Workflows

A workflow is a named list of steps. A step has a heading and either does one task, or runs further
steps when a condition holds, or has a type that is not known; the meta of such a step is kept as
it stands. In documents the steps of a workflow stand under `steps`, or under `meta` and `steps`.

The meta of a step is decoded once its type is known, so the steps inside a branch are decoded one
level of the document after the other; the depth of the document bounds the levels.
-/

namespace Stepwise

/-- A task other than a branch. -/
inductive Task where
  | findRecord (condition : Condition)
  | createPdf (settings : CreatePdf)
  | sendEmail (settings : SendEmail)
  | apiCall (settings : ApiCall)
  | updateRecord (settings : UpdateRecord)
  deriving BEq

/-- What every step has: a label for people, the key of its output, and a collection. -/
structure Heading where
  label : String
  name : String
  object : String
  deriving BEq

/-- The label, or the name when there is no label. -/
def Heading.title (h : Heading) : String :=
  if h.label = "" then h.name else h.label

/-- One step of a workflow. -/
inductive Step where
  | task (heading : Heading) (task : Task)
  /-- Run further steps when a condition holds. -/
  | branch (heading : Heading) (condition : Condition) (steps : List Step)
  /-- A step that is passed over when the workflow runs. -/
  | unknown (heading : Heading) (type : String) (config : Json)

/-- A named list of steps. -/
structure Workflow where
  name : String
  label : Option String
  description : Option String
  steps : List Step

namespace Task

def kind : Task → StepKind
  | findRecord _ => .findRecord
  | createPdf _ => .createPdf
  | sendEmail _ => .sendEmail
  | apiCall _ => .apiCall
  | updateRecord _ => .updateRecord

def config : Task → Json
  | findRecord condition => .obj [("conditions", condition.toJson)]
  | createPdf settings => settings.toJson
  | sendEmail settings => settings.toJson
  | apiCall settings => settings.toJson
  | updateRecord settings => settings.toJson

end Task

namespace Step

def heading : Step → Heading
  | task h _ => h
  | branch h _ _ => h
  | unknown h _ _ => h

/-- The type of a step; none when it is not known. -/
def kind? : Step → Option StepKind
  | task _ t => some t.kind
  | branch _ _ _ => some .branch
  | unknown _ _ _ => none

def typeName : Step → String
  | task _ t => t.kind.name
  | branch _ _ _ => StepKind.branch.name
  | unknown _ type _ => type

/-- The same step under another heading. -/
def withHeading (heading : Heading) : Step → Step
  | task _ t => task heading t
  | branch _ condition steps => branch heading condition steps
  | unknown _ type config => unknown heading type config

/-- A step whose label is its name. -/
def rename (name object : String) (step : Step) : Step :=
  step.withHeading ⟨name, name, object⟩

mutual

/-- Equality of steps, meta compared as JSON. -/
def same : Step → Step → Bool
  | task h t, task h' t' => h == h' && t == t'
  | branch h c steps, branch h' c' steps' => h == h' && c == c' && sameAll steps steps'
  | unknown h type config, unknown h' type' config' =>
      h == h' && type == type' && config == config'
  | _, _ => false

def sameAll : List Step → List Step → Bool
  | [], [] => true
  | s :: rest, s' :: rest' => s.same s' && sameAll rest rest'
  | _, _ => false

end

instance : BEq Step := ⟨same⟩

/-! ## Written form -/

/-- A step with its type and meta. -/
def written (h : Heading) (type : String) (config : Json) : Json :=
  .obj [("label", .str h.label), ("name", .str h.name), ("type", .str type),
    ("object", .str h.object), ("meta", config)]

mutual

def toJson : Step → Json
  | task h t => written h t.kind.name t.config
  | branch h condition steps =>
      written h StepKind.branch.name
        (.obj [("conditions", condition.toJson), ("steps", .arr (toJsonAll steps))])
  | unknown h type config => written h type config

def toJsonAll : List Step → List Json
  | [] => []
  | s :: rest => s.toJson :: toJsonAll rest

end

/-- A step before its meta is looked at. -/
structure Draft where
  label : String
  name : String
  type : String
  object : String
  config : Json

namespace Draft

def heading (d : Draft) : Heading := ⟨d.label, d.name, d.object⟩

def knownFields : List String := ["label", "name", "type", "object", "meta"]

def decode : Json → Except DecodeError Draft :=
  Json.decodeRecord "RawStep" knownFields fun fields =>
    mk <$> fields.withDefault "label" Json.decodeText ""
      <*> fields.withDefault "name" Json.decodeText ""
      <*> fields.required "type" Json.decodeText
      <*> fields.withDefault "object" Json.decodeText ""
      <*> fields.withDefault "meta" Json.decodeAny .null

/-- The meta that a known type is decoded from; without any, all defaults apply. -/
def effectiveConfig (d : Draft) : Json :=
  match d.config with
  | .null => .obj []
  | config => config

end Draft

/-- The only field of the meta of a record lookup. -/
def decodeFindRecord : Json → Except DecodeError Task :=
  Json.decodeRecord "FindRecordMeta" ["conditions"] fun fields =>
    Task.findRecord <$> fields.withDefault "conditions" Condition.decode .always

/-- The condition and the steps of a branch, given how a step is decoded. -/
def decodeBranch (step : Json → Except DecodeError Step) :
    Json → Except DecodeError (Condition × List Step) :=
  Json.decodeRecord "IfMeta" ["conditions", "steps"] fun fields =>
    Prod.mk <$> fields.withDefault "conditions" Condition.decode .always
      <*> fields.withDefault "steps" (Json.decodeList step) []

/-- The body of a step of a known type, given how a step inside it is decoded. -/
def decodeBody (step : Json → Except DecodeError Step) (h : Heading) (config : Json) :
    StepKind → Except DecodeError Step
  | .findRecord => (decodeFindRecord config).map (task h)
  | .branch => (decodeBranch step config).map fun body => branch h body.1 body.2
  | .createPdf => (CreatePdf.decode config).map fun m => task h (.createPdf m)
  | .sendEmail => (SendEmail.decode config).map fun m => task h (.sendEmail m)
  | .apiCall => (ApiCall.decode config).map fun m => task h (.apiCall m)
  | .updateRecord => (UpdateRecord.decode config).map fun m => task h (.updateRecord m)

/-- The step of a draft, given how a step inside it is decoded. -/
def ofDraft (step : Json → Except DecodeError Step) (d : Draft) : Except DecodeError Step :=
  match StepKind.ofName? d.type with
  | none => .ok (unknown d.heading d.type d.config)
  | some kind =>
      match decodeBody step d.heading d.effectiveConfig kind with
      | .ok s => .ok s
      | .error e => .error (.malformedMeta d.heading.title kind e)

/-- Decode a step of a document with at most so many levels. -/
def decodeWithin : Nat → Json → Except DecodeError Step
  | 0, v => .error (.unexpected v.found (.record "RawStep"))
  | levels + 1, v =>
      match Draft.decode v with
      | .error e => .error e
      | .ok draft => ofDraft (decodeWithin levels) draft

def decode (v : Json) : Except DecodeError Step :=
  decodeWithin (v.depth + 1) v

/-! ## Outlines -/

mutual

/-- The steps of a list in the order in which they are written, each with the count of branches
around it. -/
def outline (depth : Nat) : Step → List (Nat × Step)
  | branch h condition steps => (depth, branch h condition steps) :: outlineAll (depth + 1) steps
  | s => [(depth, s)]

def outlineAll (depth : Nat) : List Step → List (Nat × Step)
  | [] => []
  | s :: rest => s.outline depth ++ outlineAll depth rest

end

end Step

namespace Workflow

instance : BEq Workflow :=
  ⟨fun p q => p.name == q.name && p.label == q.label && p.description == q.description &&
    Step.sameAll p.steps q.steps⟩

def toJson (p : Workflow) : Json :=
  .obj ([("name", .str p.name)] ++ optionalMember "label" p.label ++
    optionalMember "description" p.description ++ [("steps", .arr (Step.toJsonAll p.steps))])

/-- The steps under `meta`, when they do not stand at the top. -/
def decodeMeta (step : Json → Except DecodeError Step) : Json → Except DecodeError (List Step) :=
  Json.decodeRecord "RawProcessMeta" ["steps"] fun fields =>
    fields.withDefault "steps" (Json.decodeList step) []

/-- A workflow from what was read: steps at the top count, else those under `meta`. -/
def ofParts (name : String) (label description : Option String)
    (steps metaSteps : Option (List Step)) : Workflow :=
  ⟨name, label, description, (steps.or metaSteps).getD []⟩

def knownFields : List String := ["name", "label", "description", "steps", "meta"]

def decode : Json → Except DecodeError Workflow :=
  Json.decodeRecord "RawProcess" knownFields fun fields =>
    ofParts <$> fields.required "name" Json.decodeText
      <*> fields.withDefault "label" (Json.decodeOptional Json.decodeText) none
      <*> fields.withDefault "description" (Json.decodeOptional Json.decodeText) none
      <*> fields.withDefault "steps" (Json.decodeOptional (Json.decodeList Step.decode)) none
      <*> fields.withDefault "meta" (Json.decodeOptional (decodeMeta Step.decode)) none

/-- Every step of the workflow, nested steps behind their branch. -/
def outline (p : Workflow) : List (Nat × Step) :=
  Step.outlineAll 0 p.steps

end Workflow

end Stepwise
