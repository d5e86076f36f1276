import Stepwise.Proofs.Pool
import Stepwise.Proofs.Run.Calls
import Stepwise.Proofs.Run.Surroundings

/-!
# How a form is made

A form is made in stages: its template is opened, the fields are set, the form is locked, saved and
stored under its name. A stage that fails ends the work before the next one begins, but for the
fields, each of which is set whatever became of those before it. The values are those of one
variable, the last one in the pool that has the name by itself, under whatever key it stands.
-/

namespace Stepwise

/-! ## Values as texts -/

/-- A value is shown as a text: a text as it is, `null` as nothing, and any other value as it is
written. -/
inductive Json.ShownAs : Json → String → Prop
  | text (s : String) : ShownAs (.str s) s
  | null : ShownAs .null ""
  | written {v : Json} (htext : ∀ s, v ≠ .str s) (hnull : v ≠ .null) : ShownAs v v.compact

theorem Json.shownAs_fieldText (v : Json) : v.ShownAs v.fieldText := by
  cases v with
  | null => exact .null
  | str s => exact .text s
  | bool b => exact .written nofun nofun
  | num n => exact .written nofun nofun
  | arr items => exact .written nofun nofun
  | obj members => exact .written nofun nofun

/-! ## The fields -/

namespace CreatePdf

variable (settings : CreatePdf) (source : Variable)

/-- The fields that are set are those that are marked and that the source has, in their order. -/
theorem map_fst_entries :
    (settings.entries source).map Prod.fst =
      (settings.fields.filter fun field => field.2 && source.data.has field.1).map Prod.fst := by
  rw [entries]
  induction settings.fields with
  | nil => rfl
  | cons field rest ih =>
      obtain ⟨name, marked⟩ := field
      cases marked with
      | false => simpa using ih
      | true =>
          cases hvalue : source.data.find? name with
          | none => simpa [Variable.field?, Ordered.has, hvalue] using ih
          | some v => simpa [Variable.field?, Ordered.has, hvalue] using ih

/-- Each of them is set to the text that its value in the source is shown as. -/
theorem shownAs_of_mem_entries {fill : String × String} (h : fill ∈ settings.entries source) :
    ∃ v, source.data.find? fill.1 = some v ∧ v.ShownAs fill.2 := by
  obtain ⟨⟨name, marked⟩, -, hfill⟩ := List.mem_filterMap.mp h
  cases marked with
  | false => cases hfill
  | true =>
      obtain ⟨v, hv, rfl⟩ := Option.map_eq_some_iff.mp hfill
      exact ⟨v, hv, v.shownAs_fieldText⟩

/-- No field is set twice, as none is named twice in settings that are read from a value
(`yields_decode`). -/
theorem nodup_map_fst_entries (h : settings.fields.keys.Nodup) :
    ((settings.entries source).map Prod.fst).Nodup := by
  rw [map_fst_entries]
  exact List.Nodup.sublist (List.Sublist.map Prod.fst List.filter_sublist) h

end CreatePdf

namespace Collaborators

variable {σ β : Type} (c : Collaborators σ β)

/-- The state after fields were set one after another, whatever was answered. -/
def filled (fills : List (String × String)) (s : σ) : σ :=
  fills.foldl (fun s fill => ((c.setTextField fill.1 fill.2).run s).2) s

/-- Every field is set, also behind one that cannot be set. -/
theorem run_logged_fillFields (fills : List (String × String)) (s : σ) (log : List (RunCall β)) :
    (c.logged.fillFields fills).run (s, log) =
      ((), (c.filled fills s, log ++ fills.map fun fill => .setTextField fill.1 fill.2)) := by
  induction fills generalizing s log with
  | nil =>
      rw [List.map_nil, List.append_nil]
      rfl
  | cons fill rest ih =>
      have hset : (c.logged.setTextField fill.1 fill.2).run (s, log) =
          (((c.setTextField fill.1 fill.2).run s).1, (((c.setTextField fill.1 fill.2).run s).2,
            log ++ [.setTextField fill.1 fill.2])) := rfl
      rw [fillFields, run_bind, hset, ih, List.map_cons, List.append_assoc]
      rfl

/-! ## The stages -/

/-- Locking, saving and storing a form: the calls, and the outcome. -/
theorem run_logged_finishForm (settings : CreatePdf) (s : σ) (log : List (RunCall β)) :
    let locked := c.flatten.run s
    let saved := c.save.run locked.2
    let stamped := c.stamp.run saved.2
    let file := settings.fileName stamped.1
    let made := locked.1 = .ok () ∧
      ∃ form, saved.1 = .ok form ∧ ((c.store file form).run stamped.2).1 = .ok ()
    let noted := (c.logged.finishForm settings).run (s, log)
    (noted.2.2 = log ++ .flatten ::
      match locked.1 with
      | .error _ => []
      | .ok () => .save ::
          match saved.1 with
          | .error _ => []
          | .ok form => [.store file form]) ∧
    (made → noted.1 = .ofValue (.obj [("file", .str file)])) ∧ (¬made → noted.1 = .failed) := by
  simp only [finishForm, logged, run_bind, run_noting]
  rcases hlocked : c.flatten.run s with ⟨e | _, s₁⟩
  · simp only [run_pure]
    simp
  · simp only [run_bind, run_noting]
    rcases hsaved : c.save.run s₁ with ⟨e | form, s₂⟩
    · simp only [run_pure]
      simp
    · simp only [run_bind, run_noting, run_unnoted]
      rcases hstored : (c.store (settings.fileName (c.stamp.run s₂).1) form).run
        (c.stamp.run s₂).2 with ⟨e | _, s₃⟩
      · simp only [run_pure]
        simp [hstored]
      · simp only [run_pure]
        simp [hstored]

/-- A step that fills a form leaves the pool as it is. When no variable of the pool has the name
that the settings give, it fails without a call. Otherwise, whatever the forms answer, it opens the
template once. With the template open it sets the fields that are marked and that the last such
variable has, in the order of the settings, each to the text that the value is shown as and
whatever became of the others, and then locks the form. It saves the form that could be locked, and
stores what was saved, once and under the name that is made of the clock and the variable. The step
ends in this name when all of this succeeded but for the setting of fields, and fails otherwise. -/
theorem form_is_made_in_stages (h : Heading) (settings : CreatePdf) (m : Moment σ) :
    let calls := c.calls [.task h (.createPdf settings)] m
    let outcome := (c.performed h (.createPdf settings) m).1
    (c.after [.task h (.createPdf settings)] m).pool = m.pool ∧
    (Pool.NamesNone m.pool settings.source.value → calls = [] ∧ outcome = .failed) ∧
    ∀ source, Pool.NamesLast m.pool settings.source.value source →
      ∃ fills : List (String × String),
        fills.map Prod.fst = (settings.fields.filter fun field =>
          field.2 && source.data.has field.1).map Prod.fst ∧
        (settings.fields.keys.Nodup → (fills.map Prod.fst).Nodup) ∧
        (∀ fill ∈ fills, ∃ v, source.data.find? fill.1 = some v ∧ v.ShownAs fill.2) ∧
        let opened := (c.openForm settings.template.path).run m.state
        let locked := c.flatten.run (c.filled fills opened.2)
        let saved := c.save.run locked.2
        let stamped := c.stamp.run saved.2
        let file := stamped.1 ++ "_" ++ settings.source.value ++ ".pdf"
        let made := opened.1 = .ok () ∧ locked.1 = .ok () ∧
          ∃ form, saved.1 = .ok form ∧ ((c.store file form).run stamped.2).1 = .ok ()
        (calls = .openForm settings.template.path ::
          match opened.1 with
          | .error _ => []
          | .ok () => fills.map (fun fill => .setTextField fill.1 fill.2) ++ .flatten ::
              match locked.1 with
              | .error _ => []
              | .ok () => .save ::
                  match saved.1 with
                  | .error _ => []
                  | .ok form => [.store file form]) ∧
        (made → outcome = .ofValue (.obj [("file", .str file)])) ∧
        (¬made → outcome = .failed) := by
  intro calls outcome
  have hcalls : calls = ((c.logged.createPdf settings m.pool).run (m.state, [])).2.2 := rfl
  have houtcome : outcome = ((c.logged.createPdf settings m.pool).run (m.state, [])).1 :=
    c.performed_logged h (.createPdf settings) m
  refine ⟨rfl, fun hnone => ?_, fun source hsource => ?_⟩
  · rw [hcalls, houtcome, createPdf, (Pool.variableNamed?_eq_none_iff _ _).mpr hnone]
    exact ⟨rfl, rfl⟩
  · refine ⟨settings.entries source, settings.map_fst_entries source,
      settings.nodup_map_fst_entries source, fun fill => settings.shownAs_of_mem_entries source, ?_⟩
    have hopen : c.logged.openForm settings.template.path =
      noting (.openForm settings.template.path) (c.openForm settings.template.path) := rfl
    rw [hcalls, houtcome, createPdf, Pool.variableNamed?_of_namesLast hsource]
    simp only [run_bind, hopen, run_noting]
    rcases hopened : (c.openForm settings.template.path).run m.state with ⟨e | _, s⟩
    · simp only [run_pure]
      simp
    · simp only [run_bind, run_logged_fillFields]
      obtain ⟨hfinish, hmade, hfailed⟩ := c.run_logged_finishForm settings
        (c.filled (settings.entries source) s) ([] ++ [.openForm settings.template.path] ++
          (settings.entries source).map fun fill => .setTextField fill.1 fill.2)
      refine ⟨?_, fun hall => hmade hall.2, fun hnot => hfailed fun hrest => hnot ⟨trivial, hrest⟩⟩
      rw [hfinish, List.nil_append, List.singleton_append, List.cons_append]
      rfl

/-- A form with a source under another key, of which one field is `null` and one is missing, and
forms that refuse every field. -/
theorem refused_fields_do_not_stop_form :
    let c : Collaborators (RecordTable × Unit) Unit :=
      { searching .memory .idle with setTextField := fun _ _ => pure (.error .io) }
    let settings : CreatePdf := ⟨⟨none, "form"⟩, ⟨"t.pdf", none⟩,
      [("x", true), ("y", false), ("z", true), ("missing", true)]⟩
    let source : Variable := ⟨"2", "form", "o", [("z", .null), ("y", .null), ("x", .str "v")]⟩
    let pool : Pool := [("form", .var ⟨"1", "form", "o", [("x", .str "old")]⟩),
      ("other", .var source), ("last", .value (.str "form"))]
    let step : Step := .task ⟨"pdf", "pdf", ""⟩ (.createPdf settings)
    let m : Moment (RecordTable × Unit) := ⟨pool, (.ofRecords [], ())⟩
    Pool.NamesLast pool "form" source ∧ ∃ fills : List (String × String),
      fills.map Prod.fst = ["x", "z"] ∧
      c.calls [step] m = .openForm "t.pdf" :: (fills.map (fun fill =>
        .setTextField fill.1 fill.2) ++ [.flatten, .save, .store "0_form.pdf" ()]) ∧
      (c.performed step.heading (.createPdf settings) m).1 =
        .ofValue (.obj [("file", .str "0_form.pdf")]) := by
  intro c settings source pool step m
  have hlast : Pool.NamesLast pool "form" source := by
    refine ⟨rfl, [("form", .var ⟨"1", "form", "o", [("x", .str "old")]⟩)], "other",
      [("last", .value (.str "form"))], rfl, ?_⟩
    simp [Pool.NamesNone]
  obtain ⟨fills, hkeys, -, -, hcalls, hmade, -⟩ :=
    (c.form_is_made_in_stages step.heading settings m).2.2 source hlast
  exact ⟨hlast, fills, hkeys, hcalls, hmade ⟨rfl, rfl, (), rfl, rfl⟩⟩

end Collaborators

end Stepwise
