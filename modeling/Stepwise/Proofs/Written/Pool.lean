import Stepwise.Pool
import Stepwise.Proofs.Decode
import Stepwise.Proofs.RecordTable

/-!
# Variables and pools survive being written

A variable is written with all its fields, so it is read again whenever the names of its data are
distinct. An entry of a pool is sorted into its kind by the shape of its written form; an entry is
stable when this gives the same kind and value again. Entries that were sorted by their shape in
the first place are stable, and so is every variable, but not every plain value: `false` would
become a failure. A pool of stable entries is read again, each entry in its place.
-/

namespace Stepwise

open Json (IsNormal Stable Yields partsIn_true isNormal_obj isNormal_normal)

/-! ## Variables -/

namespace Variable

/-- The written form of a variable has distinct names when its data has. -/
theorem isNormal_toJson_iff (v : Variable) :
    v.toJson.IsNormal ↔ (Json.obj v.data).IsNormal := by
  simp [toJson, Ordered.keys]

theorem isNormal_toJson {v : Variable} (hn : v.data.keys.Nodup)
    (hv : ∀ m ∈ v.data, m.2.IsNormal) : v.toJson.IsNormal :=
  v.isNormal_toJson_iff.mpr (isNormal_obj hn hv)

theorem stable {v : Variable} (h : v.toJson.IsNormal) : Stable decode toJson v := by
  have hid : decodeIdentifier (Json.str v.id) = .ok v.id := rfl
  have hdata := Stable.anyMap (v.isNormal_toJson_iff.mp h)
  refine Stable.record rfl h ?build
  case build =>
    exact Form.seq_eq_read (Form.seq_eq_read (Form.seq_eq_read
      (Form.map_eq_read (Fields.field_eq_read_iff.mpr (Or.inl ⟨_, rfl, hid⟩)))
      ((Stable.text v.name).field rfl)) ((Stable.text v.object).field rfl)) (hdata.field rfl)

/-- A variable that was decoded from any value has distinct names. -/
theorem yields_decode : Yields (fun _ => True) decode fun v => v.toJson.IsNormal := by
  refine Yields.record partsIn_true fun fields hf v hbuild => ?_
  simp only [form, Form.seq_eq_read_iff, Form.map_eq_read_iff] at hbuild
  obtain ⟨_, ⟨_, ⟨_, ⟨id, -, rfl⟩, name, -, rfl⟩, object, -, rfl⟩, data, hdata, rfl⟩ := hbuild
  have hempty : (Ordered.keys ([] : Ordered Json)).Nodup := List.nodup_nil
  have hnames := (Yields.map Json.decodeAny).withDefault hf hempty hdata
  have hvalues := (Yields.map_values partsIn_true Yields.any).withDefault hf (by simp) hdata
  exact isNormal_toJson hnames hvalues

theorem isNormal_withFields {r : Variable} {assigned : List (String × Json)}
    (h : r.toJson.IsNormal) (ha : ∀ a ∈ assigned, a.2.IsNormal) :
    (r.withFields assigned).toJson.IsNormal := by
  have hdata : (Json.obj r.data).IsNormal := r.isNormal_toJson_iff.mp h
  obtain ⟨hnames, hvalues⟩ := (Json.isNormal_obj_iff r.data).mp hdata
  apply isNormal_toJson
  · exact Ordered.keys_nodup_setAll hnames assigned
  · exact Ordered.forall_mem_setAll hvalues ha

end Variable

/-! ## Entries -/

namespace PoolEntry

theorem ofJson_toJson_var {v : Variable} (h : v.toJson.IsNormal) :
    ofJson v.toJson = var v := by
  have hdecodes := (Variable.stable h).decodes
  have hlooks : looksLikeVariable [("_id", .str v.id), ("name", .str v.name),
    ("object", .str v.object), ("data", .obj v.data)] = true := rfl
  rw [Variable.toJson] at hdecodes ⊢
  rw [ofJson, if_pos hlooks, hdecodes]

theorem stable_var {v : Variable} (h : v.toJson.IsNormal) : Stable decode toJson (var v) where
  isNormal := h
  decodes := by
    rw [decode, toJson, h, ofJson_toJson_var h]

theorem stable_failed : Stable decode toJson failed := ⟨rfl, rfl⟩

theorem stable_true : Stable decode toJson (value (.bool true)) := ⟨rfl, rfl⟩

/-- A plain value is stable when its shape does not make it an entry of another kind. -/
theorem stable_value {v : Json} (h : v.IsNormal) (hkind : ofJson v = value v) :
    Stable decode toJson (value v) where
  isNormal := h
  decodes := by
    rw [decode, toJson, h, hkind]

/-- Whatever a value is sorted into by its shape is stable. -/
theorem stable_ofJson {v : Json} (h : v.IsNormal) : Stable decode toJson (ofJson v) := by
  cases hkind : ofJson v with
  | failed => exact stable_failed
  | var x =>
      cases v with
      | obj members =>
          rw [ofJson] at hkind
          split at hkind
          · split at hkind
            · next hdecode =>
              obtain rfl := PoolEntry.var.inj hkind
              exact stable_var (Variable.yields_decode _ _ trivial hdecode)
            · cases hkind
          · cases hkind
      | bool b => cases b <;> cases hkind
      | null | num _ | str _ | arr _ => cases hkind
  | value w =>
      have hsame : v = w := by
        cases v with
        | obj members =>
            rw [ofJson] at hkind
            split at hkind
            · split at hkind
              · cases hkind
              · exact PoolEntry.value.inj hkind
            · exact PoolEntry.value.inj hkind
        | bool b => cases b <;> first | exact PoolEntry.value.inj hkind | cases hkind
        | null | num _ | str _ | arr _ => exact PoolEntry.value.inj hkind
      subst hsame
      exact stable_value h hkind

theorem yields_decode : Yields (fun _ => True) decode (Stable decode toJson) := by
  intro v entry _ hdecode
  obtain rfl := Except.ok.inj hdecode
  exact stable_ofJson (isNormal_normal v)

end PoolEntry

/-! ## Pools -/

namespace Pool

/-- Distinct keys, and every entry of the kind that its written form has. -/
structure IsStable (pool : Pool) : Prop where
  distinct : pool.keys.Nodup
  entries : ∀ slot ∈ pool, Stable PoolEntry.decode PoolEntry.toJson slot.2

theorem IsStable.setAll {pool : Pool} (h : pool.IsStable) {writes : List (String × PoolEntry)}
    (hw : ∀ write ∈ writes, Stable PoolEntry.decode PoolEntry.toJson write.2) :
    IsStable (pool.setAll writes) where
  distinct := Ordered.keys_nodup_setAll h.distinct writes
  entries := Ordered.forall_mem_setAll h.entries hw

theorem isStable_ofVariables {vars : List Variable} (h : ∀ v ∈ vars, v.toJson.IsNormal) :
    (ofVariables vars).IsStable := by
  have hempty : IsStable [] := ⟨List.nodup_nil, by simp⟩
  exact hempty.setAll (List.forall_mem_map.mpr fun v hv => PoolEntry.stable_var (h v hv))

/-- A stable pool is read again from its written form. -/
theorem IsStable.decode_toJson {pool : Pool} (h : pool.IsStable) :
    PoolInput.decode pool.toJson = .ok (.mapping pool) := by
  have hmembers : Json.decodeEachMember PoolEntry.decode []
      (pool.map fun slot => (slot.1, slot.2.toJson)) = .ok pool := by
    have hkeys : (Ordered.keys (([] : Pool) ++ pool)).Nodup := h.distinct
    exact Stable.eachMember hkeys h.entries
  rw [toJson, PoolInput.decode, hmembers]
  rfl

end Pool

/-- An input that was decoded from any value makes a stable pool. -/
theorem PoolInput.isStable_pool {v : Json} {input : PoolInput} (h : decode v = .ok input) :
    input.pool.IsStable := by
  cases v with
  | arr items =>
      rw [decode] at h
      split at h
      · next vars hvars =>
        obtain rfl := Except.ok.inj h
        exact Pool.isStable_ofVariables
          (Variable.yields_decode.each (fun _ _ => trivial) hvars)
      · cases h
  | obj members =>
      rw [decode] at h
      cases hentries : Json.decodeEachMember PoolEntry.decode [] members with
      | error e => simp [hentries, Except.map] at h
      | ok entries =>
          obtain rfl : mapping entries = input := by simpa [hentries, Except.map] using h
          have hempty : (Ordered.keys ([] : Ordered PoolEntry)).Nodup := List.nodup_nil
          exact ⟨Yields.eachMember PoolEntry.decode hempty hentries,
            PoolEntry.yields_decode.eachMember_values (by simp) (fun _ _ => trivial) hentries⟩
  | null | bool _ | num _ | str _ => cases h

end Stepwise
