import Stepwise.Proofs.Written.Pool

/-!
# What enters a pool

An object that enters a pool as a raw value is a variable if it looks like one and decodes as one.
Then it has the fields of a variable and no others; any other object is kept as it stands. A list
of variables and a map of them are read by different decoders, which give the same pool.
-/

namespace Stepwise

namespace Variable

open Json (decodeText decodeMap decodeAny)

/-- A field of an object as it is read: what stands under the name, or the default. -/
def ReadsField {α : Type} (members : Ordered Json) (key : String)
    (read : Json → Except DecodeError α) (default a : α) : Prop :=
  (∃ w, members.find? key = some w ∧ read w = .ok a) ∨ (members.find? key = none ∧ default = a)

/-- How a variable is read from an object. -/
theorem decode_obj_eq_ok_iff {members : Ordered Json} {v : Variable} :
    decode (.obj members) = .ok v ↔
      (ReadsField members "_id" decodeIdentifier "" v.id ∧
        ReadsField members "name" decodeText "" v.name ∧
        ReadsField members "object" decodeText "" v.object ∧
        ReadsField members "data" (decodeMap decodeAny) [] v.data) ∧
      (⟨members, .missing⟩ : Fields Json).repetition? knownFields = none := by
  rw [decode, Json.decodeRecord, Json.decodeMembers, Fields.finish_eq_ok_iff]
  refine and_congr_left fun _ => ?_
  simp only [form, Form.seq_eq_read_iff, Form.map_eq_read_iff, Fields.withDefault,
    Fields.field_eq_read_iff, Option.some.injEq]
  constructor
  · rintro ⟨_, ⟨_, ⟨_, ⟨id, hid, rfl⟩, name, hname, rfl⟩, object, hobject, rfl⟩, data, hdata, rfl⟩
    exact ⟨hid, hname, hobject, hdata⟩
  · rintro ⟨hid, hname, hobject, hdata⟩
    exact ⟨_, ⟨_, ⟨_, ⟨v.id, hid, rfl⟩, v.name, hname, rfl⟩, v.object, hobject, rfl⟩, v.data, hdata,
      rfl⟩

theorem decodeMap_any_obj (members : Ordered Json) :
    decodeMap decodeAny (.obj members) = .ok (Json.normalMembers [] members) := by
  rw [Json.normalMembers_eq_setAll]
  exact Json.decodeEachMember_of_total (fun _ => rfl) [] members

/-- Reading a field does not depend on repeated names inside it. -/
theorem ReadsField.normal {α : Type} {members : Ordered Json} {key : String}
    {read : Json → Except DecodeError α} {default a : α} (h : ReadsField members key read default a)
    (hread : ∀ w, read w = .ok a → read w.normal = .ok a)
    (hcount : (Ordered.keys members).count key ≤ 1) :
    ReadsField (Json.normalMembers [] members) key read default a := by
  rw [ReadsField, Json.find?_normalMembers hcount]
  rcases h with ⟨w, hw, ha⟩ | ⟨hnone, hdefault⟩
  · exact .inl ⟨w.normal, by rw [hw]; rfl, hread w ha⟩
  · exact .inr ⟨by rw [hnone]; rfl, hdefault⟩

/-- A variable is the same when the names in its object are made distinct. -/
theorem decode_normal {members : Ordered Json} {v : Variable}
    (h : decode (.obj members) = .ok v) : decode (Json.obj members).normal = .ok v := by
  obtain ⟨⟨hid, hname, hobject, hdata⟩, hunique⟩ := decode_obj_eq_ok_iff.mp h
  have hcount : ∀ key ∈ knownFields, (Ordered.keys members).count key ≤ 1 := fun key hkey =>
    Fields.count_le_of_repetition? hunique hkey
  have hdistinct := ((Json.isNormal_obj_iff _).mp (Json.isNormal_normal (.obj members))).1
  have htext : ∀ s : String, ∀ w, decodeText w = .ok s → decodeText w.normal = .ok s := by
    intro s w hw
    cases w <;> exact hw
  rw [Json.normal]
  refine decode_obj_eq_ok_iff.mpr ⟨⟨?id, ?name, ?object, ?data⟩, ?unique⟩
  case id =>
    refine hid.normal (fun w hw => ?_) (hcount "_id" (by decide))
    have hsame : decodeIdentifier w.normal = decodeIdentifier w := by
      have hnormal : w.normal.normal = w.normal := Json.isNormal_normal w
      rw [decodeIdentifier, decodeIdentifier, hnormal]
    exact hsame.trans hw
  case name => exact hname.normal (htext v.name) (hcount "name" (by decide))
  case object => exact hobject.normal (htext v.object) (hcount "object" (by decide))
  case data =>
    refine hdata.normal (fun w hw => ?_) (hcount "data" (by decide))
    cases w with
    | obj inner =>
        have hnormal := Json.isNormal_normal (.obj inner)
        rw [Json.IsNormal, Json.normal, Json.normal, Json.obj.injEq] at hnormal
        rw [Json.normal, decodeMap_any_obj, hnormal, ← decodeMap_any_obj]
        exact hw
    | null | bool _ | num _ | str _ | arr _ => cases hw
  case unique => exact Fields.repetition?_eq_none hdistinct knownFields

/-- The fields of an object that a variable has are of the types of its fields. -/
structure Fits (members : Ordered Json) : Prop where
  id : ∀ w, members.find? "_id" = some w → (∃ s, w = .str s) ∨ (∃ n, w = .num n) ∨ w = .null ∨
    ∃ inner s, w = .obj inner ∧ Ordered.find? inner "$oid" = some (.str s)
  name : ∀ w, members.find? "name" = some w → ∃ s, w = .str s
  object : ∀ w, members.find? "object" = some w → ∃ s, w = .str s
  data : ∀ w, members.find? "data" = some w → ∃ inner, w = .obj inner

theorem exists_readsField_iff {α : Type} {members : Ordered Json} {key : String}
    {read : Json → Except DecodeError α} (default : α) :
    (∃ a, ReadsField members key read default a) ↔
      ∀ w, members.find? key = some w → ∃ a, read w = .ok a := by
  unfold ReadsField
  cases hfind : members.find? key with
  | none => simp
  | some w => simp

theorem exists_decodeText_iff (w : Json) : (∃ s, decodeText w = .ok s) ↔ ∃ s, w = .str s := by
  cases w <;> simp [decodeText]

theorem exists_decodeMap_iff (w : Json) :
    (∃ data, decodeMap decodeAny w = .ok data) ↔ ∃ inner, w = .obj inner := by
  cases w with
  | obj inner => simp [decodeMap_any_obj]
  | null | bool _ | num _ | str _ | arr _ => simp [decodeMap]

theorem exists_decodeIdentifier_iff {w : Json} (h : w.IsNormal) :
    (∃ id, decodeIdentifier w = .ok id) ↔ (∃ s, w = .str s) ∨ (∃ n, w = .num n) ∨ w = .null ∨
      ∃ inner s, w = .obj inner ∧ Ordered.find? inner "$oid" = some (.str s) := by
  rw [decodeIdentifier, h]
  cases w with
  | obj inner =>
      cases hfind : Ordered.find? inner "$oid" with
      | none => simp [hfind]
      | some found => cases found <;> simp [hfind]
  | null | bool _ | num _ | str _ | arr _ => simp

/-- An object with distinct names decodes as a variable if its fields fit. -/
theorem exists_decode_iff {members : Ordered Json} (h : (Json.obj members).IsNormal) :
    (∃ v, decode (.obj members) = .ok v) ↔ Fits members := by
  obtain ⟨hnames, hvalues⟩ := (Json.isNormal_obj_iff members).mp h
  have hunique : (⟨members, .missing⟩ : Fields Json).repetition? knownFields = none :=
    Fields.repetition?_eq_none hnames knownFields
  have hid : ∀ w, members.find? "_id" = some w → w.IsNormal := fun w hw =>
    hvalues _ (Ordered.mem_of_find? hw)
  simp only [decode_obj_eq_ok_iff, hunique, and_true]
  constructor
  · rintro ⟨v, id, name, object, data⟩
    exact {
      id := fun w hw => (exists_decodeIdentifier_iff (hid w hw)).mp
        ((exists_readsField_iff "").mp ⟨_, id⟩ w hw)
      name := fun w hw => (exists_decodeText_iff w).mp
        ((exists_readsField_iff "").mp ⟨_, name⟩ w hw)
      object := fun w hw => (exists_decodeText_iff w).mp
        ((exists_readsField_iff "").mp ⟨_, object⟩ w hw)
      data := fun w hw => (exists_decodeMap_iff w).mp
        ((exists_readsField_iff []).mp ⟨_, data⟩ w hw) }
  · intro hfits
    obtain ⟨id, hid⟩ := (exists_readsField_iff "").mpr fun w hw =>
      (exists_decodeIdentifier_iff (hid w hw)).mpr (hfits.id w hw)
    obtain ⟨name, hname⟩ := (exists_readsField_iff "").mpr fun w hw =>
      (exists_decodeText_iff w).mpr (hfits.name w hw)
    obtain ⟨object, hobject⟩ := (exists_readsField_iff "").mpr fun w hw =>
      (exists_decodeText_iff w).mpr (hfits.object w hw)
    obtain ⟨data, hdata⟩ := (exists_readsField_iff []).mpr fun w hw =>
      (exists_decodeMap_iff w).mpr (hfits.data w hw)
    exact ⟨⟨id, name, object, data⟩, hid, hname, hobject, hdata⟩

end Variable

/-! ## What is left of an object -/

/-- Every name of the first object is in the second one, with its value unless it is `_id`. -/
structure Retains (members kept : Ordered Json) : Prop where
  names : ∀ key ∈ members.keys, key ∈ kept.keys
  values : ∀ key w, key ≠ "_id" → members.find? key = some w → kept.find? key = some w

namespace Variable

open Json (decodeText decodeMap)

/-- An object holds the fields of a variable and nothing else: those of another object, its
identifier as a text, and the empty ones of a new variable in the place of those it lacks. -/
structure IsLeftOf (members kept : Ordered Json) : Prop where
  names : kept.keys = knownFields
  present : ∀ key ∈ knownFields, key ≠ "_id" → ∀ w, members.find? key = some w →
    kept.find? key = some w
  identifier : ∀ w, members.find? "_id" = some w →
    ∃ id, decodeIdentifier w = .ok id ∧ kept.find? "_id" = some (.str id)
  absent : ∀ key ∈ knownFields, members.find? key = none →
    kept.find? key = (new "" "" "").toJson.member? key

/-- What has only the fields of a variable keeps all it has if there were no others. -/
theorem IsLeftOf.retains_iff {members kept : Ordered Json} (h : IsLeftOf members kept) :
    Retains members kept ↔ ∀ key ∈ members.keys, key ∈ knownFields := by
  rw [← h.names]
  refine ⟨Retains.names, fun hknown => ⟨hknown, fun key w hne hw => ?_⟩⟩
  have hmem : key ∈ members.keys := List.mem_map_of_mem (Ordered.mem_of_find? hw)
  exact h.present key (h.names ▸ hknown key hmem) hne w hw

theorem ReadsField.eq_of_found {α : Type} {members : Ordered Json} {key : String}
    {read : Json → Except DecodeError α} {default a : α} (h : ReadsField members key read default a)
    {w : Json} (hw : members.find? key = some w) : read w = .ok a := by
  rcases h with ⟨w', hw', ha⟩ | ⟨hnone, -⟩
  · rw [hw, Option.some.injEq] at hw'
    exact hw' ▸ ha
  · rw [hw] at hnone
    cases hnone

theorem ReadsField.eq_of_absent {α : Type} {members : Ordered Json} {key : String}
    {read : Json → Except DecodeError α} {default a : α} (h : ReadsField members key read default a)
    (hnone : members.find? key = none) : default = a := by
  rcases h with ⟨w, hw, -⟩ | ⟨-, hdefault⟩
  · rw [hnone] at hw
    cases hw
  · exact hdefault

theorem eq_str_of_decodeText {w : Json} {s : String} (h : decodeText w = .ok s) : w = .str s := by
  cases w <;> simp_all [decodeText]

/-- A variable that was read from an object with distinct names is written with its fields. -/
theorem isLeftOf_toJson {members : Ordered Json} (h : (Json.obj members).IsNormal) {v : Variable}
    (hdecode : decode (.obj members) = .ok v) :
    ∃ kept, v.toJson = .obj kept ∧ IsLeftOf members kept := by
  obtain ⟨⟨hid, hname, hobject, hdata⟩, -⟩ := decode_obj_eq_ok_iff.mp hdecode
  have hvalues := ((Json.isNormal_obj_iff members).mp h).2
  have htext : ∀ {key : String} {s : String}, ReadsField members key decodeText "" s → ∀ w,
      members.find? key = some w → .str s = w := by
    intro key s hread w hw
    exact (eq_str_of_decodeText (hread.eq_of_found hw)).symm
  have hmap : ∀ w, members.find? "data" = some w → .obj v.data = w := by
    intro w hw
    have hnormal : w.normal = w := hvalues _ (Ordered.mem_of_find? hw)
    have hread := hdata.eq_of_found hw
    cases w with
    | obj inner =>
        rw [decodeMap_any_obj, Except.ok.injEq] at hread
        rw [Json.normal, hread] at hnormal
        exact hnormal
    | null | bool _ | num _ | str _ | arr _ => cases hread
  refine ⟨_, rfl, rfl, ?present, ?identifier, ?absent⟩
  case present =>
    intro key hkey hne w hw
    simp only [knownFields, List.mem_cons, List.not_mem_nil, or_false] at hkey
    rcases hkey with rfl | rfl | rfl | rfl
    · exact absurd rfl hne
    · exact congrArg some (htext hname w hw)
    · exact congrArg some (htext hobject w hw)
    · exact congrArg some (hmap w hw)
  case identifier =>
    intro w hw
    exact ⟨v.id, hid.eq_of_found hw, rfl⟩
  case absent =>
    intro key hkey hnone
    simp only [knownFields, List.mem_cons, List.not_mem_nil, or_false] at hkey
    rcases hkey with rfl | rfl | rfl | rfl
    · exact congrArg (fun s => some (Json.str s)) (hid.eq_of_absent hnone).symm
    · exact congrArg (fun s => some (Json.str s)) (hname.eq_of_absent hnone).symm
    · exact congrArg (fun s => some (Json.str s)) (hobject.eq_of_absent hnone).symm
    · exact congrArg (fun data => some (Json.obj data)) (hdata.eq_of_absent hnone).symm

end Variable

namespace PoolEntry

/-- An object becomes a variable when it has a name or data and decodes as one. -/
theorem ofJson_obj_eq_var_iff {members : Ordered Json} {v : Variable} :
    ofJson (.obj members) = .var v ↔
      ("name" ∈ members.keys ∨ "data" ∈ members.keys) ∧ Variable.decode (.obj members) = .ok v := by
  have hlooks : looksLikeVariable members = true ↔
      "name" ∈ members.keys ∨ "data" ∈ members.keys := by
    rw [looksLikeVariable, Bool.or_eq_true, Ordered.has_iff_mem_keys, Ordered.has_iff_mem_keys]
  rw [ofJson, ← hlooks]
  by_cases h : looksLikeVariable members = true
  · rw [if_pos h]
    cases Variable.decode (.obj members) <;> simp [h]
  · rw [if_neg h]
    simp [h]

theorem ofJson_obj_of_not_var {members : Ordered Json} (h : ∀ v, ofJson (.obj members) ≠ .var v) :
    ofJson (.obj members) = .value (.obj members) := by
  rw [ofJson] at h ⊢
  split_ifs at h ⊢ with hlooks
  · cases hdecode : Variable.decode (.obj members) with
    | error e => rfl
    | ok v => simp [hdecode] at h
  · rfl

/-- An object that enters a pool is kept as it stands, or it becomes a variable: this happens if it
has a name or data and its fields fit. A variable keeps the fields that a variable has, with their
values, and loses all others; so an object keeps all it has unless it becomes a variable and has
another name. -/
theorem object_keeps_what_a_variable_has {members : Ordered Json}
    (h : (Json.obj members).IsNormal) :
    ∃ kept, (ofJson (.obj members)).toJson = .obj kept ∧
      ((∃ v, ofJson (.obj members) = .var v) ↔
        ("name" ∈ members.keys ∨ "data" ∈ members.keys) ∧ Variable.Fits members) ∧
      ((∀ v, ofJson (.obj members) ≠ .var v) →
        ofJson (.obj members) = .value (.obj members) ∧ kept = members) ∧
      ((∃ v, ofJson (.obj members) = .var v) → Variable.IsLeftOf members kept) ∧
      (Retains members kept ↔
        ((∃ v, ofJson (.obj members) = .var v) →
          ∀ key ∈ members.keys, key ∈ Variable.knownFields)) := by
  have hiff : (∃ v, ofJson (.obj members) = .var v) ↔
      ("name" ∈ members.keys ∨ "data" ∈ members.keys) ∧ Variable.Fits members := by
    simp only [ofJson_obj_eq_var_iff, exists_and_left, Variable.exists_decode_iff h]
  by_cases hvar : ∃ v, ofJson (.obj members) = .var v
  · obtain ⟨v, hv⟩ := hvar
    obtain ⟨kept, hkept, hleft⟩ :=
      Variable.isLeftOf_toJson h (ofJson_obj_eq_var_iff.mp hv).2
    refine ⟨kept, by rw [hv]; exact hkept, hiff, fun hnot => absurd hv (hnot v), fun _ => hleft,
      hleft.retains_iff.trans ?_⟩
    exact ⟨fun hknown _ => hknown, fun hknown => hknown ⟨v, hv⟩⟩
  · have hvalue := ofJson_obj_of_not_var (not_exists.mp hvar)
    have hsame : Retains members members := ⟨fun _ hkey => hkey, fun _ _ _ hw => hw⟩
    exact ⟨members, by rw [hvalue]; rfl, hiff, fun _ => ⟨hvalue, rfl⟩, fun h => absurd h hvar,
      iff_of_true hsame fun h => absurd h hvar⟩

theorem limited_object_becomes_variable :
    (Json.obj [("_id", .obj [("$oid", .str "65a1")]), ("limit", .num (.int 1)),
      ("name", .str "a")]).IsNormal ∧
    ∃ kept, (ofJson (.obj [("_id", .obj [("$oid", .str "65a1")]), ("limit", .num (.int 1)),
        ("name", .str "a")])).toJson = .obj kept ∧
      Variable.IsLeftOf [("_id", .obj [("$oid", .str "65a1")]), ("limit", .num (.int 1)),
        ("name", .str "a")] kept ∧
      ¬Retains [("_id", .obj [("$oid", .str "65a1")]), ("limit", .num (.int 1)),
        ("name", .str "a")] kept := by
  have hnormal : (Json.obj [("_id", .obj [("$oid", .str "65a1")]), ("limit", .num (.int 1)),
      ("name", .str "a")]).IsNormal := rfl
  obtain ⟨kept, hkept, -, -, hleft, hretains⟩ := object_keeps_what_a_variable_has hnormal
  have hvar : ∃ v, ofJson (.obj [("_id", .obj [("$oid", .str "65a1")]), ("limit", .num (.int 1)),
      ("name", .str "a")]) = .var v := ⟨⟨"65a1", "a", "", []⟩, rfl⟩
  refine ⟨hnormal, kept, hkept, hleft hvar, fun hall => ?_⟩
  have hlimit : "limit" ∈ Variable.knownFields := hretains.mp hall hvar "limit" (by decide)
  exact absurd hlimit (by decide)

/-- A name that no variable has is lost. -/
theorem unknown_name_is_lost :
    (Json.obj [("name", .str "a"), ("x", .num (.int 1))]).IsNormal ∧
      ∃ kept, (ofJson (.obj [("name", .str "a"), ("x", .num (.int 1))])).toJson = .obj kept ∧
        "x" ∉ Ordered.keys kept ∧ ¬Retains [("name", .str "a"), ("x", .num (.int 1))] kept := by
  have hlost : "x" ∉ Variable.knownFields := by decide
  exact ⟨rfl, _, rfl, hlost, fun hretains => hlost (hretains.names "x" (by decide))⟩

end PoolEntry

/-! ## Lists and maps of variables -/

namespace PoolEntry

/-- An object with a name that decodes as a variable enters a pool as this variable. -/
theorem decode_of_named {members : Ordered Json} {v : Variable}
    (hname : members.find? "name" = some (.str v.name))
    (hdecode : Variable.decode (.obj members) = .ok v) :
    ofJson (Json.obj members).normal = .var v := by
  have hnormal := Variable.decode_normal hdecode
  have hknown : "name" ∈ Variable.knownFields := by decide
  have hcount := Fields.count_le_of_repetition? (Variable.decode_obj_eq_ok_iff.mp hdecode).2 hknown
  rw [Json.normal] at hnormal ⊢
  refine ofJson_obj_eq_var_iff.mpr ⟨.inl ?_, hnormal⟩
  rw [← Ordered.has_iff_mem_keys, Ordered.has, Json.find?_normalMembers hcount, hname]
  rfl

/-- Objects that stand under the names of their variables enter a pool as these variables. -/
theorem slots_of_named {docs : List (String × Ordered Json)} {vars : List Variable}
    (hnames : ∀ d ∈ docs, d.2.find? "name" = some (.str d.1))
    (hdecode : docs.map (fun d => Variable.decode (.obj d.2)) = vars.map .ok) :
    docs.map (fun d => (d.1, ofJson (Json.obj d.2).normal)) =
      vars.map fun v => (v.name, var v) := by
  induction docs generalizing vars with
  | nil =>
      cases vars with
      | nil => rfl
      | cons v rest => cases hdecode
  | cons d rest ih =>
      cases vars with
      | nil => cases hdecode
      | cons v vars =>
          obtain ⟨hname, hnames⟩ := List.forall_mem_cons.mp hnames
          obtain ⟨hv, hdecode⟩ := List.cons.inj hdecode
          have hsame : d.1 = v.name := by
            have hread := (Variable.decode_obj_eq_ok_iff.mp hv).1.2.1.eq_of_found hname
            exact Except.ok.inj hread
          rw [hsame] at hname
          rw [List.map_cons, List.map_cons, ih hnames hdecode, decode_of_named hname hv, hsame]

end PoolEntry

/-- A slot of a pool of variables holds the last variable of its name. -/
theorem Pool.exists_last_of_mem_ofVariables {vars : List Variable} {slot : String × PoolEntry}
    (h : slot ∈ ofVariables vars) :
    ∃ before v after, vars = before ++ v :: after ∧ slot = (v.name, .var v) ∧
      ∀ w ∈ after, w.name ≠ v.name := by
  have hfind := Ordered.find?_of_mem (Ordered.keys_nodup_ofPairs _) h
  obtain ⟨before, after, hsplit, hlast⟩ := Ordered.exists_last_of_find?_ofPairs hfind
  obtain ⟨front, others, rfl, rfl, hothers⟩ := List.map_eq_append_iff.mp hsplit
  obtain ⟨v, back, rfl, hv, rfl⟩ := List.map_eq_cons_iff.mp hothers
  refine ⟨front, v, back, rfl, hv.symm, fun w hw hsame => hlast ?_⟩
  rw [← congrArg Prod.fst hv, ← hsame, Ordered.keys, List.map_map]
  exact List.mem_map_of_mem hw

namespace PoolInput

/-- The pool of a map: each value sorted into its kind, under its name. -/
theorem decode_obj (members : Ordered Json) :
    (decode (.obj members)).map pool =
      .ok (Ordered.ofPairs (members.map fun m => (m.1, PoolEntry.ofJson m.2.normal))) := by
  have htotal : Json.decodeEachMember PoolEntry.decode [] members =
      .ok (Ordered.ofPairs (members.map fun m => (m.1, PoolEntry.ofJson m.2.normal))) :=
    Json.decodeEachMember_of_total (fun _ => rfl) [] members
  rw [decode, htotal]
  rfl

/-- Variables make the same pool in a list and in a map in which each stands under its name, a
repeated name in its first place with its last object: there is one slot for each name, in the order
of the first variables, and it holds the last variable of the name. -/
theorem list_and_map_agree {docs : List (String × Ordered Json)} {vars : List Variable}
    (hnames : ∀ d ∈ docs, d.2.find? "name" = some (.str d.1))
    (hdecode : docs.map (fun d => Variable.decode (.obj d.2)) = vars.map .ok) :
    ∃ entries : Pool,
      (decode (.arr (docs.map fun d => .obj d.2))).map pool = .ok entries ∧
      (decode (.obj (Ordered.ofPairs (docs.map fun d => (d.1, .obj d.2))))).map pool =
        .ok entries ∧
      entries.keys = (docs.map Prod.fst).eraseDups ∧
      ∀ slot ∈ entries, ∃ before v after, vars = before ++ v :: after ∧
        slot = (v.name, .var v) ∧ ∀ w ∈ after, w.name ≠ v.name := by
  have hslots := PoolEntry.slots_of_named hnames hdecode
  refine ⟨Pool.ofVariables vars, ?list, ?map, ?keys, ?slots⟩
  case list =>
    have heach : Json.decodeEach Variable.decode (docs.map fun d => .obj d.2) = .ok vars :=
      Json.decodeEach_eq_ok_iff.mpr (List.map_map.trans hdecode)
    rw [decode, heach]
    rfl
  case map =>
    have hsort := Ordered.map_ofPairs (fun w => PoolEntry.ofJson w.normal)
      (docs.map fun d => (d.1, Json.obj d.2))
    rw [List.map_map] at hsort
    rw [decode_obj, hsort]
    exact congrArg Except.ok ((Ordered.ofPairs_eq_self (Ordered.keys_nodup_ofPairs _)).trans
      (congrArg Ordered.ofPairs hslots))
  case keys =>
    have hnames := congrArg (List.map Prod.fst) hslots
    rw [List.map_map] at hnames
    rw [Pool.ofVariables, Ordered.keys_ofPairs, ← hnames]
    rfl
  case slots => exact fun slot hslot => Pool.exists_last_of_mem_ofVariables hslot

/-- The second object of a name comes after other names, and the objects differ in what they have
and in how their identifiers are written. -/
theorem customers_and_order_agree :
    ∃ entries : Pool,
      (decode (.arr [
        .obj [("_id", .num (.int 5)), ("name", .str "customer"), ("object", .str "customers")],
        .obj [("name", .str "order"), ("open", .bool true)],
        .obj [("_id", .obj [("$oid", .str "65a1")]), ("name", .str "customer"),
          ("data", .obj [("email", .str "a@b.c")])]])).map pool = .ok entries ∧
      (decode (.obj [
        ("customer", .obj [("_id", .obj [("$oid", .str "65a1")]), ("name", .str "customer"),
          ("data", .obj [("email", .str "a@b.c")])]),
        ("order", .obj [("name", .str "order"), ("open", .bool true)])])).map pool =
          .ok entries ∧
      entries = [("customer", .var ⟨"65a1", "customer", "", [("email", .str "a@b.c")]⟩),
        ("order", .var ⟨"", "order", "", []⟩)] := by
  obtain ⟨entries, hlist, hmap, -⟩ := @list_and_map_agree
    [("customer", [("_id", .num (.int 5)), ("name", .str "customer"),
        ("object", .str "customers")]),
      ("order", [("name", .str "order"), ("open", .bool true)]),
      ("customer", [("_id", .obj [("$oid", .str "65a1")]), ("name", .str "customer"),
        ("data", .obj [("email", .str "a@b.c")])])]
    [⟨"5", "customer", "customers", []⟩, ⟨"", "order", "", []⟩,
      ⟨"65a1", "customer", "", [("email", .str "a@b.c")]⟩]
    (by simp [Ordered.find?_cons]) rfl
  exact ⟨entries, hlist, hmap, (Except.ok.inj hlist).symm⟩

end PoolInput

end Stepwise
