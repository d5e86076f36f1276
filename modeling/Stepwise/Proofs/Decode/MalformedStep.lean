import Stepwise.Proofs.Decode.Frame
import Stepwise.Proofs.Outline
import Stepwise.Proofs.Written.Workflow

/-!
# Steps whose meta does not fit

A step stands in the document of a workflow inside the branches around it, between other steps.
When all else decodes, the step decides whether the document does: each branch puts its own words
in front of what is wrong with the step, and a step of an unknown type is never wrong.
-/

namespace Stepwise

namespace Step

open Json (Frame)

/-! ## Steps around a step -/

theorem Draft.decode_fill_meta {frame : Frame} (hfield : frame.IsField knownFields "meta")
    {good : Json} (hnormal : (frame.fill good).IsNormal) {d : Draft}
    (hgood : decode (frame.fill good) = .ok d) (v : Json) :
    decode (frame.fill v) = .ok { d with config := v.normal } := by
  obtain ⟨front, back, absent, hkey, hbuild, -, hrecord⟩ :=
    Json.decodeRecord_fill hfield (by decide) hnormal hgood
  simp only [Form.seq_eq_read_iff, Form.map_eq_read_iff] at hbuild
  obtain ⟨_, ⟨_, ⟨_, ⟨_, ⟨label, hlabel, rfl⟩, name, hname, rfl⟩, type, htype, rfl⟩, object,
    hobject, rfl⟩, config, -, rfl⟩ := hbuild
  refine hrecord v (.ok _) ?_
  exact Form.seq_eq_read (Form.seq_eq_read (Form.seq_eq_read (Form.seq_eq_read
    (Form.map_eq_read (Fields.field_around_of_ne (by decide) hlabel v))
    (Fields.field_around_of_ne (by decide) hname v))
    (Fields.field_around_of_ne (by decide) htype v))
    (Fields.field_around_of_ne (by decide) hobject v))
    (Fields.field_around_self hkey Json.decodeAny (some .null) v)

theorem Draft.decode_fill_type {frame : Frame} (hfield : frame.IsField knownFields "type")
    {good : Json} (hnormal : (frame.fill good).IsNormal) {d : Draft}
    (hgood : decode (frame.fill good) = .ok d) (type : String) :
    decode (frame.fill (.str type)) = .ok { d with type := type } := by
  obtain ⟨front, back, absent, hkey, hbuild, -, hrecord⟩ :=
    Json.decodeRecord_fill hfield (by decide) hnormal hgood
  simp only [Form.seq_eq_read_iff, Form.map_eq_read_iff] at hbuild
  obtain ⟨_, ⟨_, ⟨_, ⟨_, ⟨label, hlabel, rfl⟩, name, hname, rfl⟩, _, -, rfl⟩, object,
    hobject, rfl⟩, config, hconfig, rfl⟩ := hbuild
  refine hrecord (.str type) (.ok _) ?_
  exact Form.seq_eq_read (Form.seq_eq_read (Form.seq_eq_read (Form.seq_eq_read
    (Form.map_eq_read (Fields.field_around_of_ne (by decide) hlabel _))
    (Fields.field_around_of_ne (by decide) hname _))
    (Fields.field_around_self hkey Json.decodeText none (.str type)))
    (Fields.field_around_of_ne (by decide) hobject _))
    (Fields.field_around_of_ne (by decide) hconfig _)

/-- The meta of a draft is what stands in the step. -/
theorem Draft.config_fill_type {frame : Frame} (hfield : frame.IsField knownFields "type")
    {good : Json} (hnormal : (frame.fill good).IsNormal) {d : Draft}
    (hgood : decode (frame.fill good) = .ok d) :
    d.config = ((frame.fill good).field? knownFields "meta").getD .null := by
  obtain ⟨front, back, absent, hkey, hbuild, hfields, -⟩ :=
    Json.decodeRecord_fill hfield (by decide) hnormal hgood
  simp only [Form.seq_eq_read_iff, Form.map_eq_read_iff] at hbuild
  obtain ⟨_, ⟨_, ⟨_, ⟨_, ⟨label, -, rfl⟩, name, -, rfl⟩, type, -, rfl⟩, object, -, rfl⟩, config,
    hconfig, rfl⟩ := hbuild
  rcases Fields.field_eq_read_iff.mp hconfig with ⟨v, hv, hread⟩ | ⟨hnone, hdefault⟩
  · have hfound := (hfields good "meta").trans hv
    have hsame : v.normal = v := Json.isNormal_of_field? hnormal hfound
    rw [hfound, Option.getD_some, ← hsame]
    exact (Except.ok.inj hread).symm
  · rw [(hfields good "meta").trans hnone, Option.getD_none]
    exact (Option.some.inj hdefault).symm

theorem Draft.effectiveConfig_fill (h : Heading) (type : String) (frame : Frame) (v : Json) :
    effectiveConfig ⟨h.label, h.name, type, h.object, frame.fill v⟩ = frame.fill v := by
  cases frame <;> rfl

theorem decodeBranch_fill {step : Json → Except DecodeError Step} {frame : Frame}
    (hfield : frame.IsField ["conditions", "steps"] "steps") {good : Json}
    (hnormal : (frame.fill good).IsNormal) {body : Condition × List Step}
    (hgood : decodeBranch step (frame.fill good) = .ok body) (v : Json) :
    decodeBranch step (frame.fill v) = (Json.decodeList step v).map (Prod.mk body.1) := by
  obtain ⟨front, back, absent, hkey, hbuild, -, hrecord⟩ :=
    Json.decodeRecord_fill hfield (by decide) hnormal hgood
  simp only [Form.seq_eq_read_iff, Form.map_eq_read_iff] at hbuild
  obtain ⟨_, ⟨condition, hcondition, rfl⟩, steps, -, rfl⟩ := hbuild
  refine hrecord v _ ?_
  exact Form.seq_eq_readAt (Form.map_eq_read (Fields.field_around_of_ne (by decide) hcondition v))
    (Fields.field_around_self hkey (Json.decodeList step) (some []) v)

/-- A branch around one of its steps: what stands around its meta, in the meta around the list of
its steps, and in the list before the step and behind it. -/
structure BranchFrame where
  outer : Frame
  inner : Frame
  before : List Json
  after : List Json

namespace BranchFrame

/-- The branch with a step in the place. -/
def fill (b : BranchFrame) (v : Json) : Json :=
  b.outer.fill (b.inner.fill ((Frame.item b.before b.after).fill v))

/-- The container is a step whose type is that of a branch, with this heading. -/
structure HasHeading (b : BranchFrame) (h : Heading) : Prop where
  outer : b.outer.IsField Draft.knownFields "meta"
  inner : b.inner.IsField ["conditions", "steps"] "steps"
  draft : Draft.decode (b.outer.fill .null) =
    .ok ⟨h.label, h.name, StepKind.branch.name, h.object, .null⟩

theorem isNormal_of_fill {b : BranchFrame} {v : Json} (h : (b.fill v).IsNormal) : v.IsNormal :=
  Frame.isNormal_of_fill (Frame.isNormal_of_fill (Frame.isNormal_of_fill h))

theorem isNormal_fill {b : BranchFrame} {v w : Json} (h : (b.fill v).IsNormal)
    (hw : w.IsNormal) : (b.fill w).IsNormal := by
  have hmeta := Frame.isNormal_of_fill h
  exact Frame.isNormal_fill h (Frame.isNormal_fill hmeta
    (Frame.isNormal_fill (Frame.isNormal_of_fill hmeta) hw))

/-- A branch decodes with another step in a place as that step decides; what is wrong with the step
is wrong with the meta of the branch. -/
theorem decode_fill {b : BranchFrame} {h : Heading} (hb : b.HasHeading h) {good : Json}
    (hnormal : (b.fill good).IsNormal) {s : Step} (hgood : decode (b.fill good) = .ok s) :
    ∃ condition front back, ∀ v, v.IsNormal → decode (b.fill v) =
      ((decode v).map fun s => branch h condition (front ++ s :: back)).mapError
        (.malformedMeta h.title .branch) := by
  have hmeta := Frame.isNormal_of_fill hnormal
  have hnull : (b.outer.fill .null).IsNormal := Frame.isNormal_fill hnormal rfl
  have hstep : ∀ v, v.IsNormal → decode (b.fill v) =
      ((decodeBranch decode (b.inner.fill ((Frame.item b.before b.after).fill v))).map
        fun body => branch h body.1 body.2).mapError (.malformedMeta h.title .branch) := by
    intro v hv
    have hconfig : (b.inner.fill ((Frame.item b.before b.after).fill v)).normal =
        b.inner.fill ((Frame.item b.before b.after).fill v) :=
      Frame.isNormal_fill hmeta (Frame.isNormal_fill (Frame.isNormal_of_fill hmeta) hv)
    have hdraft := Draft.decode_fill_meta hb.outer hnull hb.draft
      (b.inner.fill ((Frame.item b.before b.after).fill v))
    rw [decode_eq, fill, hdraft, hconfig]
    simp only [ofDraft, StepKind.ofName?_name, Draft.effectiveConfig_fill, decodeBody]
    cases decodeBranch decode (b.inner.fill ((Frame.item b.before b.after).fill v)) <;> rfl
  rw [hstep good (isNormal_of_fill hnormal)] at hgood
  obtain ⟨body, hbody⟩ := exists_ok_of_map (eq_ok_of_mapError hgood)
  have hfill := decodeBranch_fill hb.inner hmeta hbody
  obtain ⟨steps, hsteps⟩ := exists_ok_of_map
    ((hfill ((Frame.item b.before b.after).fill good)).symm.trans hbody)
  obtain ⟨front, back, heach⟩ := Json.decodeEach_fill hsteps
  refine ⟨body.1, front, back, fun v hv => ?_⟩
  rw [hstep v hv, hfill, Frame.fill, Json.decodeList, heach v]
  cases decode v <;> rfl

end BranchFrame

/-! ## Branches inside one another -/

/-- A step with branches around it, the outermost first. -/
def nest (branches : List BranchFrame) (v : Json) : Json :=
  branches.foldr BranchFrame.fill v

/-- What is wrong with a step, as the branches around it report it. -/
def reported (headings : List Heading) (e : DecodeError) : DecodeError :=
  headings.foldr (fun h cause => .malformedMeta h.title .branch cause) e

theorem isNormal_of_nest {branches : List BranchFrame} {v : Json}
    (h : (nest branches v).IsNormal) : v.IsNormal := by
  induction branches with
  | nil => exact h
  | cons b rest ih => exact ih (BranchFrame.isNormal_of_fill h)

theorem isNormal_nest {branches : List BranchFrame} {v w : Json}
    (h : (nest branches v).IsNormal) (hw : w.IsNormal) : (nest branches w).IsNormal := by
  induction branches with
  | nil => exact hw
  | cons b rest ih => exact BranchFrame.isNormal_fill h (ih (BranchFrame.isNormal_of_fill h))

/-- Branches decode with another step inside them as that step decides. -/
theorem decode_nest {branches : List BranchFrame} {headings : List Heading}
    (hb : List.Forall₂ BranchFrame.HasHeading branches headings) {good : Json}
    (hnormal : (nest branches good).IsNormal) {s : Step}
    (hgood : decode (nest branches good) = .ok s) :
    ∃ put : Step → Step,
      (∀ v, v.IsNormal →
        decode (nest branches v) = ((decode v).map put).mapError (reported headings)) ∧
      ∀ s depth, (depth + headings.length, s) ∈ (put s).outline depth := by
  induction hb generalizing s with
  | nil =>
      refine ⟨id, fun v _ => ?_, fun s depth => mem_outline_self depth s⟩
      change decode v = _
      cases decode v <;> rfl
  | @cons b h branches headings hb hrest ih =>
      have hinner := BranchFrame.isNormal_of_fill hnormal
      obtain ⟨condition, front, back, hfill⟩ := BranchFrame.decode_fill hb hnormal hgood
      have hnested := (hfill (nest branches good) hinner).symm.trans hgood
      obtain ⟨s', hs'⟩ := exists_ok_of_map (eq_ok_of_mapError hnested)
      obtain ⟨put, hput, houtline⟩ := ih hinner hs'
      refine ⟨fun s => branch h condition (front ++ put s :: back), fun v hv => ?_,
        fun s depth => ?_⟩
      · change decode (b.fill (nest branches v)) = _
        rw [hfill _ (isNormal_nest hinner hv), hput v hv]
        cases decode v <;> rfl
      · have hmem := houtline s (depth + 1)
        rw [List.length_cons, outline]
        refine List.mem_cons_of_mem _ (mem_outlineAll_append ?_ front back)
        rwa [Nat.add_right_comm] at hmem

end Step

namespace Workflow

open Json (Frame)
open Step (BranchFrame)

/-- What stands around the list of the steps of a workflow: they are under `steps`, or under `meta`
and `steps`. -/
inductive StepsFrame where
  | top (frame : Frame)
  | underMeta (outer inner : Frame)

namespace StepsFrame

def fill : StepsFrame → Json → Json
  | top frame, v => frame.fill v
  | underMeta outer inner, v => outer.fill (inner.fill v)

/-- The places are those of the fields. -/
def IsProper : StepsFrame → Prop
  | top frame => frame.IsField knownFields "steps"
  | underMeta outer inner =>
      outer.IsField knownFields "meta" ∧ inner.IsField ["steps"] "steps"

/-- The steps in the list are those of the workflow: no steps at the top hide them. -/
def Counts : StepsFrame → Prop
  | top _ => True
  | underMeta outer _ =>
      ∀ w, (outer.fill .null).field? knownFields "steps" = some w → w = .null

theorem isNormal_of_fill {frame : StepsFrame} {v : Json} (h : (frame.fill v).IsNormal) :
    v.IsNormal := by
  cases frame with
  | top frame => exact Frame.isNormal_of_fill h
  | underMeta outer inner => exact Frame.isNormal_of_fill (Frame.isNormal_of_fill h)

theorem isNormal_fill {frame : StepsFrame} {v w : Json} (h : (frame.fill v).IsNormal)
    (hw : w.IsNormal) : (frame.fill w).IsNormal := by
  cases frame with
  | top frame => exact Frame.isNormal_fill h hw
  | underMeta outer inner =>
      exact Frame.isNormal_fill h (Frame.isNormal_fill (Frame.isNormal_of_fill h) hw)

theorem decode_top {frame : Frame} (hfield : frame.IsField knownFields "steps") {good : Json}
    (hnormal : (frame.fill good).IsNormal) {w : Workflow}
    (hgood : decode (frame.fill good) = .ok w) :
    ∃ put : List Step → Workflow,
      (∀ items, decode (frame.fill (.arr items)) =
        (Json.decodeEach Step.decode items).map put) ∧
      ∀ steps, (put steps).steps = steps := by
  obtain ⟨front, back, absent, hkey, hbuild, -, hrecord⟩ :=
    Json.decodeRecord_fill hfield (by decide) hnormal hgood
  simp only [Form.seq_eq_read_iff, Form.map_eq_read_iff] at hbuild
  obtain ⟨_, ⟨_, ⟨_, ⟨_, ⟨name, hname, rfl⟩, label, hlabel, rfl⟩, description, hdescription, rfl⟩,
    steps, -, rfl⟩, metaSteps, hmeta, rfl⟩ := hbuild
  refine ⟨fun steps => ofParts name label description (some steps) metaSteps, fun items => ?_,
    fun steps => rfl⟩
  have hbuilt := hrecord (.arr items) _ (Form.readAt_seq_eq (Form.seq_eq_readAt
    (Form.seq_eq_read (Form.seq_eq_read
      (Form.map_eq_read (Fields.field_around_of_ne (by decide) hname _))
      (Fields.field_around_of_ne (by decide) hlabel _))
      (Fields.field_around_of_ne (by decide) hdescription _))
    (Fields.field_around_self hkey _ (some none) _))
    (Fields.field_around_of_ne (by decide) hmeta _))
  refine hbuilt.trans ?_
  simp only [Json.decodeOptional, Json.decodeList]
  cases Json.decodeEach Step.decode items <;> rfl

/-- The list of steps under a meta decides how the meta decodes. -/
theorem decodeMeta_fill {frame : Frame} (hfield : frame.IsField ["steps"] "steps") {good : Json}
    (hnormal : (frame.fill good).IsNormal) {steps : List Step}
    (hgood : decodeMeta Step.decode (frame.fill good) = .ok steps) (v : Json) :
    decodeMeta Step.decode (frame.fill v) = Json.decodeList Step.decode v := by
  obtain ⟨front, back, absent, hkey, -, -, hrecord⟩ :=
    Json.decodeRecord_fill hfield (by decide) hnormal hgood
  exact hrecord v _ (Fields.field_around_self hkey (Json.decodeList Step.decode) (some []) v)

theorem decodeOptional_fill {α : Type} (read : Json → Except DecodeError α) (frame : Frame)
    (v : Json) : Json.decodeOptional read (frame.fill v) = (read (frame.fill v)).map some := by
  cases frame <;> rfl

theorem decode_underMeta {outer inner : Frame} (houter : outer.IsField knownFields "meta")
    (hinner : inner.IsField ["steps"] "steps") {good : Json}
    (hnormal : (outer.fill (inner.fill good)).IsNormal) {w : Workflow}
    (hgood : decode (outer.fill (inner.fill good)) = .ok w) :
    ∃ put : List Step → Workflow,
      (∀ items, decode (outer.fill (inner.fill (.arr items))) =
        (Json.decodeEach Step.decode items).map put) ∧
      (Counts (.underMeta outer inner) → ∀ steps, (put steps).steps = steps) := by
  obtain ⟨front, back, absent, hkey, hbuild, hfields, hrecord⟩ :=
    Json.decodeRecord_fill houter (by decide) hnormal hgood
  simp only [Form.seq_eq_read_iff, Form.map_eq_read_iff] at hbuild
  obtain ⟨_, ⟨_, ⟨_, ⟨_, ⟨name, hname, rfl⟩, label, hlabel, rfl⟩, description, hdescription, rfl⟩,
    steps, hsteps, rfl⟩, metaSteps, hmeta, rfl⟩ := hbuild
  rw [Fields.withDefault, Fields.field_around_self hkey, decodeOptional_fill,
    Form.readAt_eq_read_iff] at hmeta
  obtain ⟨found, hfound⟩ := exists_ok_of_map hmeta
  refine ⟨fun found => ofParts name label description steps (some found), fun items => ?_,
    fun hcounts found => ?_⟩
  · have hbuilt := hrecord (inner.fill (.arr items)) _ (Form.seq_eq_readAt
      (Form.seq_eq_read (Form.seq_eq_read (Form.seq_eq_read
        (Form.map_eq_read (Fields.field_around_of_ne (by decide) hname _))
        (Fields.field_around_of_ne (by decide) hlabel _))
        (Fields.field_around_of_ne (by decide) hdescription _))
        (Fields.field_around_of_ne (by decide) hsteps _))
      (Fields.field_around_self hkey _ (some none) _))
    refine hbuilt.trans ?_
    rw [decodeOptional_fill, decodeMeta_fill hinner (Frame.isNormal_of_fill hnormal) hfound,
      Json.decodeList]
    cases Json.decodeEach Step.decode items <;> rfl
  · -- a field that is absent or `null` is read as none
    have hnone : steps = none := by
      have hopen := Fields.field_around_of_ne (by decide) hsteps .null
      rcases Fields.field_eq_read_iff.mp hopen with ⟨v, hv, hread⟩ | ⟨-, hdefault⟩
      · obtain rfl := hcounts v ((hfields .null "steps").trans hv)
        exact (Except.ok.inj hread).symm
      · exact (Option.some.inj hdefault).symm
    rw [hnone]
    rfl

/-- A workflow decodes with other steps in the place of its steps as these decide. -/
theorem decode_fill {frame : StepsFrame} (hproper : frame.IsProper) {good : Json}
    (hnormal : (frame.fill good).IsNormal) {w : Workflow}
    (hgood : decode (frame.fill good) = .ok w) :
    ∃ put : List Step → Workflow,
      (∀ items, decode (frame.fill (.arr items)) =
        (Json.decodeEach Step.decode items).map put) ∧
      (frame.Counts → ∀ steps, (put steps).steps = steps) := by
  cases frame with
  | top frame =>
      obtain ⟨put, hput, hsteps⟩ := decode_top hproper hnormal hgood
      exact ⟨put, hput, fun _ => hsteps⟩
  | underMeta outer inner => exact decode_underMeta hproper.1 hproper.2 hnormal hgood

end StepsFrame

/-- The place of a step in the document of a workflow: around the list of steps, in the list before
and behind the step or the branch that it is in, and around it in the branches. -/
structure StepPlace where
  steps : StepsFrame
  before : List Json
  after : List Json
  branches : List BranchFrame

namespace StepPlace

/-- The document with a step in the place. -/
def fill (place : StepPlace) (v : Json) : Json :=
  place.steps.fill ((Frame.item place.before place.after).fill (Step.nest place.branches v))

/-- The place is inside branches with these headings, the outermost first. -/
structure IsInside (place : StepPlace) (headings : List Heading) : Prop where
  steps : place.steps.IsProper
  branches : List.Forall₂ BranchFrame.HasHeading place.branches headings

theorem isNormal_of_fill {place : StepPlace} {v : Json} (h : (place.fill v).IsNormal) :
    v.IsNormal :=
  Step.isNormal_of_nest (Frame.isNormal_of_fill (StepsFrame.isNormal_of_fill h))

theorem isNormal_fill {place : StepPlace} {v w : Json} (h : (place.fill v).IsNormal)
    (hw : w.IsNormal) : (place.fill w).IsNormal := by
  have hlist := StepsFrame.isNormal_of_fill h
  exact StepsFrame.isNormal_fill h (Frame.isNormal_fill hlist
    (Step.isNormal_nest (Frame.isNormal_of_fill hlist) hw))

/-- A document decodes with another step in a place as that step decides, if it decodes with some
step there. -/
theorem decode_fill {place : StepPlace} {headings : List Heading} (hplace : place.IsInside headings)
    {good : Json} (hnormal : (place.fill good).IsNormal) {w : Workflow}
    (hgood : decode (place.fill good) = .ok w) :
    ∃ put : Step → Workflow,
      (∀ v, v.IsNormal →
        decode (place.fill v) = ((Step.decode v).map put).mapError (Step.reported headings)) ∧
      (place.steps.Counts → ∀ s, (headings.length, s) ∈ (put s).outline) := by
  have hlist := StepsFrame.isNormal_of_fill hnormal
  have hnest := Frame.isNormal_of_fill hlist
  obtain ⟨putSteps, hputSteps, hcounts⟩ := StepsFrame.decode_fill hplace.steps hnormal hgood
  have hall : ∀ v, decode (place.fill v) =
      (Json.decodeEach Step.decode
        (place.before ++ Step.nest place.branches v :: place.after)).map putSteps := by
    intro v
    rw [fill, Frame.fill, hputSteps]
  rw [hall] at hgood
  obtain ⟨steps, hsteps⟩ := exists_ok_of_map hgood
  obtain ⟨front, back, heach⟩ := Json.decodeEach_fill hsteps
  rw [heach] at hsteps
  obtain ⟨s, hs⟩ := exists_ok_of_map hsteps
  obtain ⟨put, hput, houtline⟩ := Step.decode_nest hplace.branches hnest hs
  refine ⟨fun s => putSteps (front ++ put s :: back), fun v hv => ?_, fun hc s => ?_⟩
  · rw [hall, heach, hput v hv]
    cases Step.decode v <;> rfl
  · have hmem := houtline s 0
    rw [Nat.zero_add] at hmem
    rw [outline, hcounts hc]
    exact Step.mem_outlineAll_append hmem front back

end StepPlace

end Workflow

/-! ## What is reported -/

/-- The words in front of what is wrong with the meta of a step. -/
def Heading.complaint (h : Heading) (kind : StepKind) : String :=
  "step '" ++ (if h.label = "" then h.name else h.label) ++ "' of type '" ++ kind.name ++
    "' has malformed meta: "

theorem StepKind.ofName?_eq_none {type : String} (h : type ∉ all.map name) :
    ofName? type = none := by
  refine List.find?_eq_none.mpr fun kind hkind hname => h ?_
  exact List.mem_map.mpr ⟨kind, hkind, eq_of_beq hname⟩

namespace Step

theorem message_malformedMeta (h : Heading) (kind : StepKind) (e : DecodeError)
    (wording : Wording) : (DecodeError.malformedMeta h.title kind e).message wording =
      h.complaint kind ++ e.message .value :=
  rfl

/-- The words of the branches stand in front, those of the outermost first. -/
theorem message_reported (headings : List Heading) (h : Heading) (kind : StepKind)
    (e : DecodeError) (wording : Wording) :
    (reported headings (.malformedMeta h.title kind e)).message wording =
      String.join (headings.map fun outer => outer.complaint .branch) ++
        (h.complaint kind ++ e.message .value) := by
  induction headings generalizing wording with
  | nil => simp [reported, message_malformedMeta]
  | cons outer rest ih =>
      have hrest : reported (outer :: rest) (.malformedMeta h.title kind e) =
        .malformedMeta outer.title .branch (reported rest (.malformedMeta h.title kind e)) := rfl
      rw [hrest, message_malformedMeta, ih, List.map_cons, String.join_cons, String.append_assoc]

end Step

namespace Workflow

open Json (Frame)

/-- A document that decodes but for one step, whose type is known and whose meta does not fit it:
the document does not decode, and what is reported names the branches around the step, the
outermost first, then the step, then what is wrong with its meta. With any type that is not known
the document decodes, the step keeps its meta as it stands, and all else is as with any other step
in its place. -/
theorem malformed_meta_is_reported {place : StepPlace} {headings : List Heading}
    (hplace : place.IsInside headings) {step : Frame}
    (htype : step.IsField Step.Draft.knownFields "type") {kind : StepKind}
    (hnormal : (place.fill (step.fill (.str kind.name))).IsNormal) {d : Step.Draft}
    (hdraft : Step.Draft.decode (step.fill (.str kind.name)) = .ok d) {e : DecodeError}
    (hmeta : Step.decodeBody Step.decode d.heading d.effectiveConfig kind = .error e)
    {good : Json} (hgood : good.IsNormal) {w : Workflow}
    (honly : decode (place.fill good) = .ok w) :
    (∃ error, decode (place.fill (step.fill (.str kind.name))) = .error error ∧
      ∀ wording, error.message wording =
        String.join (headings.map fun outer => outer.complaint .branch) ++
          (d.heading.complaint kind ++ e.message .value)) ∧
    d.config = ((step.fill (.str kind.name)).field? Step.Draft.knownFields "meta").getD .null ∧
    ∃ put : Step → Workflow,
      (∀ other s, other.IsNormal → Step.decode other = .ok s →
        decode (place.fill other) = .ok (put s)) ∧
      (∀ type, type ∉ StepKind.all.map StepKind.name →
        decode (place.fill (step.fill (.str type))) =
          .ok (put (.unknown d.heading type d.config))) ∧
      (place.steps.Counts → ∀ s, (headings.length, s) ∈ (put s).outline) := by
  have hstep := StepPlace.isNormal_of_fill hnormal
  obtain ⟨put, hput, houtline⟩ :=
    StepPlace.decode_fill hplace (StepPlace.isNormal_fill hnormal hgood) honly
  refine ⟨⟨Step.reported headings (.malformedMeta d.heading.title kind e), ?error, ?message⟩,
    Step.Draft.config_fill_type htype hstep hdraft, put, ?_, ?_,
    houtline⟩
  case error =>
    have hdecode : Step.decode (step.fill (.str kind.name)) =
        .error (.malformedMeta d.heading.title kind e) := by
      have htext : d.type = kind.name := by
        have hsame := Step.Draft.decode_fill_type htype hstep hdraft kind.name
        rw [hdraft, Except.ok.injEq] at hsame
        rw [hsame]
      rw [Step.decode_eq, hdraft]
      simp only [Step.ofDraft, htext, StepKind.ofName?_name, hmeta]
    rw [hput _ hstep, hdecode]
    rfl
  case message => exact Step.message_reported headings d.heading kind e
  · intro other s hother hs
    rw [hput other hother, hs]
    rfl
  · intro type hunknown
    have hdraft' := Step.Draft.decode_fill_type htype hstep hdraft type
    have hdecode : Step.decode (step.fill (.str type)) =
        .ok (.unknown d.heading type d.config) := by
      rw [Step.decode_eq, hdraft']
      simp only [Step.ofDraft, StepKind.ofName?_eq_none hunknown]
      rfl
    have hnormal' : (step.fill (.str type)).IsNormal := Frame.isNormal_fill hstep rfl
    rw [hput _ hnormal', hdecode]
    rfl

/-- The workflow and the branch are given once as an object and once as a list. -/
theorem malformed_update_in_branch_is_reported :
    (∃ error,
      decode (.obj [("name", .str "w"), ("meta", .arr [.arr [
        .obj [("name", .str "a"), ("type", .str "wait")],
        .obj [("name", .str "b"), ("type", .str "if"), ("meta", .arr [.obj [], .arr [
          .obj [("name", .str "u"), ("type", .str "update_record"),
            ("meta", .obj [("fields", .num (.int 12))])]]])]]])]) = .error error ∧
      error.message .value =
        "step 'b' of type 'if' has malformed meta: " ++
          "step 'u' of type 'update_record' has malformed meta: " ++
          "invalid type: integer \x6012\x60, expected a sequence") ∧
    ∃ w,
      decode (.obj [("name", .str "w"), ("meta", .arr [.arr [
        .obj [("name", .str "a"), ("type", .str "wait")],
        .obj [("name", .str "b"), ("type", .str "if"), ("meta", .arr [.obj [], .arr [
          .obj [("name", .str "u"), ("type", .str "wait"),
            ("meta", .obj [("fields", .num (.int 12))])]]])]]])]) = .ok w ∧
      (1, .unknown ⟨"", "u", ""⟩ "wait" (.obj [("fields", .num (.int 12))])) ∈ w.outline := by
  have hplace : StepPlace.IsInside
      ⟨.underMeta (.member [("name", .str "w")] "meta" []) (.item [] []),
        [.obj [("name", .str "a"), ("type", .str "wait")]], [],
        [⟨.member [("name", .str "b"), ("type", .str "if")] "meta" [], .item [.obj []] [], [], []⟩]⟩
      [⟨"", "b", ""⟩] :=
    ⟨⟨rfl, rfl⟩, .cons ⟨rfl, rfl, rfl⟩ .nil⟩
  obtain ⟨⟨error, herror, hmessage⟩, -, put, -, hunknown, houtline⟩ :=
    @malformed_meta_is_reported _ _ hplace
      (.member [("name", .str "u")] "type" [("meta", .obj [("fields", .num (.int 12))])]) rfl
      .updateRecord rfl ⟨"", "u", "update_record", "", .obj [("fields", .num (.int 12))]⟩ rfl
      (.unexpected (.num (.int 12)) .sequence) rfl
      (.obj [("type", .str "wait")]) rfl _ rfl
  refine ⟨⟨error, herror, (hmessage .value).trans (by decide +kernel)⟩, _,
    hunknown "wait" (by decide), houtline ?_ _⟩
  intro w hw
  cases hw

end Workflow

end Stepwise
