import Stepwise.Workflow
import Stepwise.Proofs.Decode

/-!
# Steps are decoded level by level

The meta of a step is less deep than the step, and the steps of a branch are less deep than its
meta, so a bound above the depth of a document is never reached. `decode_eq` states how a step is
decoded without any bound: by its draft, the steps inside it in the same way.
-/

namespace Stepwise.Step

open Json (Yields)

/-- The meta of a draft is a member of the step with distinct names, or `null`. -/
theorem Draft.yields_config {N M P : Json → Prop} (hN : Json.PartsIn N M)
    (hany : Yields M Json.decodeAny P) (hnull : P .null) :
    Yields N Draft.decode fun d => P d.config := by
  refine Yields.record hN fun fields hf d hbuild => ?_
  simp only [Form.seq_eq_read_iff, Form.map_eq_read_iff] at hbuild
  obtain ⟨_, ⟨_, ⟨_, ⟨_, ⟨label, -, rfl⟩, name, -, rfl⟩, type, -, rfl⟩, object, -, rfl⟩,
    config, hconfig, rfl⟩ := hbuild
  exact hany.withDefault hf hnull hconfig

theorem Draft.depth_config_le {v : Json} {d : Draft} (h : Draft.decode v = .ok d) :
    d.config.depth ≤ v.depth := by
  have hany : Yields (fun w => w.depth < v.depth) Json.decodeAny fun w => w.depth ≤ v.depth := by
    intro w _ hw hdecode
    obtain rfl := Except.ok.inj hdecode
    exact Nat.le_of_lt (Nat.lt_of_le_of_lt (Json.depth_normal_le w) hw)
  exact Draft.yields_config (Json.partsIn_depth v.depth) hany (Nat.zero_le _) v d (Nat.le_refl _) h

theorem decodeBranch_congr {step step' : Json → Except DecodeError Step} {config : Json}
    (h : ∀ w, w.depth < config.depth → step w = step' w) :
    decodeBranch step config = decodeBranch step' config := by
  have hparts := Json.partsIn_depth config.depth
  refine Json.decodeRecord_congr hparts (Nat.le_refl _) fun fields hf => ?_
  have hsteps : fields.withDefault "steps" (Json.decodeList step) [] =
      fields.withDefault "steps" (Json.decodeList step') [] := by
    refine Fields.field_congr "steps" (some []) fun m hm => ?_
    exact Json.decodeList_congr hparts (Nat.le_of_lt (hf m hm)) h
  rw [hsteps]

/-- Only the steps inside a meta are decoded in turn, and they are less deep than it. -/
theorem ofDraft_congr {step step' : Json → Except DecodeError Step} {d : Draft}
    (h : ∀ w, w.depth < d.config.depth → step w = step' w) : ofDraft step d = ofDraft step' d := by
  have hbody (kind : StepKind) : decodeBody step d.heading d.effectiveConfig kind =
      decodeBody step' d.heading d.effectiveConfig kind := by
    cases kind with
    | branch =>
        rw [Draft.effectiveConfig.eq_def]
        split
        · rfl
        · rw [decodeBody, decodeBranch_congr h, decodeBody]
    | findRecord | createPdf | sendEmail | apiCall | updateRecord => rfl
  simp only [ofDraft, hbody]

/-- Two bounds above the depth of a value give the same step. -/
theorem decodeWithin_eq {n m : Nat} {v : Json} (hn : v.depth < n) (hm : v.depth < m) :
    decodeWithin n v = decodeWithin m v := by
  induction n generalizing m v with
  | zero => exact absurd hn (Nat.not_lt_zero _)
  | succ n ih =>
      obtain ⟨m, rfl⟩ := Nat.exists_eq_succ_of_ne_zero (Nat.ne_zero_of_lt hm)
      rw [decodeWithin, decodeWithin]
      cases hdraft : Draft.decode v with
      | error e => rfl
      | ok d =>
          have hd := Draft.depth_config_le hdraft
          exact ofDraft_congr fun w hw => ih (by omega) (by omega)

/-- How a step is decoded, whatever its depth. -/
theorem decode_eq (v : Json) :
    decode v =
      match Draft.decode v with
      | .error e => .error e
      | .ok d => ofDraft decode d := by
  rw [decode, decodeWithin]
  cases hdraft : Draft.decode v with
  | error e => rfl
  | ok d =>
      have hd := Draft.depth_config_le hdraft
      exact ofDraft_congr fun w hw => decodeWithin_eq (by omega) (Nat.lt_succ_self _)

end Stepwise.Step
