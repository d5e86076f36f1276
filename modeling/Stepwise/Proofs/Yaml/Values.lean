import Stepwise.Proofs.Json
import Stepwise.Proofs.Yaml.Nodes
import Stepwise.Proofs.Yaml.Numbers

/-!
# Spelled values as YAML values

Where the spelling of an object is one that YAML has too, YAML reads the value that is spelled. Its
integers are the same plain scalars, whatever their digits; its floating point numbers are finite,
so the value is turned back into the same JSON.
-/

namespace Stepwise

open Stepwise.Json (Spelled SpelledItems SpelledMembers SpelledText meant)

namespace Yaml

namespace Value

mutual

/-- A JSON value as a YAML value. -/
def ofJson : Json → Value
  | .null => null
  | .bool b => bool b
  | .num n => num n
  | .str s => str s
  | .arr items => seq (ofItems items)
  | .obj members => map (ofMembers members)

def ofItems : List Json → List Value
  | [] => []
  | v :: rest => ofJson v :: ofItems rest

def ofMembers : List (String × Json) → List (Value × Value)
  | [] => []
  | (k, v) :: rest => (str k, ofJson v) :: ofMembers rest

end

theorem ofItems_eq_map (items : List Json) : ofItems items = items.map ofJson := by
  induction items with
  | nil => rfl
  | cons v rest ih => rw [ofItems, ih, List.map_cons]

theorem ofMembers_eq_map (members : List (String × Json)) :
    ofMembers members = members.map fun m => (str m.1, ofJson m.2) := by
  induction members with
  | nil => rfl
  | cons m rest ih => rw [ofMembers, ih, List.map_cons]

end Value

namespace Document

variable {α β : Type} {d : Document}

/-- Building gives a value and follows no alias. -/
def Gives (m : M α) (a : α) : Prop :=
  ∀ count, m count = some (a, count)

theorem gives_pure (a : α) : Gives (pure a) a := fun _ => rfl

theorem Gives.bind {m : M α} {f : α → M β} {a : α} {b : β} (h : Gives m a) (h' : Gives (f a) b) :
    Gives (m >>= f) b := by
  intro count
  change (m count).bind (fun x => f x.1 x.2) = _
  rw [h count, Option.bind_some, h' count]

theorem gives_mapM {γ : Type} {f : γ → M β} {g : γ → β} : ∀ {xs : List γ}, (∀ x ∈ xs, Gives (f x) (g x)) →
    Gives (xs.mapM f) (xs.map g)
  | [], _ => gives_pure []
  | x :: xs, h => by
      obtain ⟨hx, hothers⟩ := List.forall_mem_cons.mp h
      rw [List.mapM_cons]
      exact hx.bind ((gives_mapM hothers).bind (gives_pure _))

theorem value_scalar (depth : Nat) {text : String} {isPlain : Bool} {v : Value} (h : scalar? none text isPlain = some v) :
    Gives (d.value depth (.scalar none text isPlain)) v := by
  rw [value]
  refine (gives_pure _).bind fun count => ?_
  simp only [h]
  rfl

theorem value_seq {depth : Nat} {items : List Node} {values : List Value}
    (h : Gives (items.mapM (d.value depth)) values) :
    Gives (d.value (depth + 1) (.seq none items)) (.seq values) := by
  rw [value]
  exact (gives_pure _).bind (h.bind (gives_pure _))

theorem value_map {depth : Nat} {entries : List (Node × Node)} {values : List (Value × Value)}
    (h : Gives (entries.mapM fun e => do
      let k ← d.value depth e.1
      let v ← d.value depth e.2
      return (k, v)) values) (hdistinct : distinctKeys values = true) :
    Gives (d.value (depth + 1) (.map none entries)) (.map values) := by
  rw [value]
  refine (gives_pure _).bind (h.bind ?_)
  rw [if_pos hdistinct]
  exact gives_pure _

theorem distinctKeys_ofMembers {members : List (String × Json)}
    (h : (Ordered.keys members).Nodup) : distinctKeys (Value.ofMembers members) = true := by
  induction members with
  | nil => rfl
  | cons m rest ih =>
      obtain ⟨k, v⟩ := m
      obtain ⟨hfresh, hothers⟩ := List.nodup_cons.mp h
      have hnone : ((Value.ofMembers rest).any fun e => Value.same (.str k) e.1) = false := by
        rw [Value.ofMembers_eq_map, List.any_map, List.any_eq_false]
        intro m hm hsame
        have hk : k = m.1 := by simpa [Value.same] using hsame
        have hmem : m.1 ∈ Ordered.keys rest := List.mem_map_of_mem hm
        exact hfresh (hk ▸ hmem)
      rw [Value.ofMembers, distinctKeys, hnone, ih hothers]
      rfl

theorem value_entry {depth : Nat} (name : String) {n : Node} {v : Value}
    (h : Gives (d.value depth n) v) :
    Gives (do
      let k ← d.value depth (.scalar none name false)
      let v ← d.value depth n
      return (k, v)) (.str name, v) :=
  (value_scalar depth rfl).bind (h.bind (gives_pure _))

mutual

/-- The node of a spelled value has its value, where YAML has its floating point numbers too. -/
theorem value_spelled : ∀ (v : Spelled) (depth : Nat), v.IsCommon → v.value.IsNormal →
    v.value.depth ≤ depth → Gives (d.value depth v.node) (Value.ofJson v.value)
  | .null, depth, _, _, _ => value_scalar depth rfl
  | .bool true, depth, _, _, _ => value_scalar depth rfl
  | .bool false, depth, _, _, _ => value_scalar depth rfl
  | .num n, depth, hcommon, _, _ => by
      have hnumber : plain? (String.ofList n.literal) = some (.num n.number) := by
        cases hn : n.number with
        | int k => exact plain?_of_int n hn
        | float x => exact hcommon x hn
      exact value_scalar depth hnumber
  | .str cs, depth, _, _, _ => value_scalar depth rfl
  | .emptyArr gap, depth, _, _, hdepth => by
      obtain ⟨depth, rfl⟩ := Nat.exists_eq_succ_of_ne_zero (Nat.ne_zero_of_lt hdepth)
      exact value_seq (gives_pure [])
  | .arr items, depth, hcommon, hnormal, hdepth => by
      obtain ⟨depth, rfl⟩ := Nat.exists_eq_succ_of_ne_zero (Nat.ne_zero_of_lt hdepth)
      have hitems := (Json.isNormal_arr_iff _).mp hnormal
      exact value_seq (values_items items depth hcommon hitems (Nat.le_of_succ_le_succ hdepth))
  | .emptyObj gap, depth, _, _, hdepth => by
      obtain ⟨depth, rfl⟩ := Nat.exists_eq_succ_of_ne_zero (Nat.ne_zero_of_lt hdepth)
      exact value_map (gives_pure []) rfl
  | .obj members, depth, hcommon, hnormal, hdepth => by
      obtain ⟨depth, rfl⟩ := Nat.exists_eq_succ_of_ne_zero (Nat.ne_zero_of_lt hdepth)
      obtain ⟨hkeys, hmembers⟩ := (Json.isNormal_obj_iff _).mp hnormal
      exact value_map (values_members members depth hcommon hmembers
        (Nat.le_of_succ_le_succ hdepth)) (distinctKeys_ofMembers hkeys)

theorem values_items : ∀ (items : SpelledItems) (depth : Nat), items.IsCommon →
    (∀ v ∈ items.values, v.IsNormal) → Json.depthItems items.values ≤ depth →
    Gives (items.nodes.mapM (d.value depth)) (Value.ofItems items.values)
  | .last before v after, depth, hcommon, hnormal, hdepth => by
      have hv := value_spelled v depth hcommon (hnormal _ (.head _))
        (Nat.le_trans (Nat.le_max_left _ _) hdepth)
      simp only [SpelledItems.nodes, List.mapM_cons, List.mapM_nil]
      exact hv.bind ((gives_pure []).bind (gives_pure _))
  | .next before v after items, depth, hcommon, hnormal, hdepth => by
      obtain ⟨hfirst, hothers⟩ := Nat.max_le.mp hdepth
      obtain ⟨hv, hitems⟩ := List.forall_mem_cons.mp hnormal
      have hvalue := value_spelled v depth hcommon.1 hv hfirst
      have hvalues := values_items items depth hcommon.2 hitems hothers
      simp only [SpelledItems.nodes, List.mapM_cons]
      exact hvalue.bind (hvalues.bind (gives_pure _))

theorem values_members : ∀ (members : SpelledMembers) (depth : Nat), members.IsCommon →
    (∀ m ∈ members.values, m.2.IsNormal) → Json.depthMembers members.values ≤ depth →
    Gives (members.entries.mapM fun e => do
      let k ← d.value depth e.1
      let v ← d.value depth e.2
      return (k, v)) (Value.ofMembers members.values)
  | .last before name gap before' v after, depth, hcommon, hnormal, hdepth => by
      have hv := value_spelled v depth hcommon.2 (hnormal _ (.head _))
        (Nat.le_trans (Nat.le_max_left _ _) hdepth)
      simp only [SpelledMembers.entries, List.mapM_cons, List.mapM_nil]
      exact (value_entry (meant name) hv).bind ((gives_pure []).bind (gives_pure _))
  | .next before name gap before' v after members, depth, hcommon, hnormal, hdepth => by
      obtain ⟨hfirst, hothers⟩ := Nat.max_le.mp hdepth
      obtain ⟨hv, hmembers⟩ := List.forall_mem_cons.mp hnormal
      have hvalue := value_spelled v depth hcommon.2.1 hv hfirst
      have hvalues := values_members members depth hcommon.2.2 hmembers hothers
      simp only [SpelledMembers.entries, List.mapM_cons]
      exact (value_entry (meant name) hvalue).bind (hvalues.bind (gives_pure _))

end

end Document

/-! ## Whole texts -/

/-- An object that is spelled as in YAML is the same value there. -/
theorem Value.ofText?_spelled {t : SpelledText} (hcommon : t.IsCommon)
    (hobject : ∃ members, t.value = .obj members) (hnormal : t.value.IsNormal)
    (hdepth : t.value.depth ≤ Document.maxDepth) :
    Value.ofText? t.text = some (Value.ofJson t.value) := by
  obtain ⟨events, hdocument⟩ := Document.ofTokens?_spelled t.spelled
  have hvalue := Document.value_spelled (d := ⟨some t.spelled.node, [], [], events⟩) t.spelled
    Document.maxDepth hcommon.spelled hnormal hdepth 0
  have htokens := Token.ofText?_spelled hcommon hobject
  simp only [Value.ofText?, htokens, hdocument, Option.bind_eq_bind, Option.bind_some, hvalue,
    Option.map_some]
  rfl

/-! ## Back to JSON -/

/-- Every floating point number is finite. -/
def IsFinite (v : Json) : Prop := ∀ d, .float d ∈ v.numbers → d.isFinite = true

namespace Value

mutual

/-- A value with finite numbers is turned into JSON with distinct names. -/
theorem toJson_ofJson : ∀ v : Json, IsFinite v → toJson (ofJson v) = .ok v.normal
  | .null, _ => rfl
  | .bool b, _ => rfl
  | .num (.int k), _ => rfl
  | .num (.float d), hfinite => by
      have hd : d.isFinite = true := hfinite d (.head _)
      rw [ofJson, toJson, jsonNumber, if_pos hd]
      rfl
  | .str s, _ => rfl
  | .arr items, hfinite => by
      rw [ofJson, toJson, toItems_ofItems items hfinite]
      rfl
  | .obj members, hfinite => by
      rw [ofJson, toJson, toMembers_ofMembers members hfinite]
      rfl

theorem toItems_ofItems : ∀ items : List Json,
    (∀ d, .float d ∈ Json.numbersItems items → d.isFinite = true) →
    toItems (ofItems items) = .ok (Json.normalItems items)
  | [], _ => rfl
  | v :: rest, hfinite => by
      have hv : IsFinite v := fun d hd => hfinite d (List.mem_append_left _ hd)
      have hrest := toItems_ofItems rest fun d hd => hfinite d (List.mem_append_right _ hd)
      rw [ofItems, toItems, toJson_ofJson v hv, hrest]
      rfl

theorem toMembers_ofMembers : ∀ members : List (String × Json),
    (∀ d, .float d ∈ Json.numbersMembers members → d.isFinite = true) →
    ∀ (expected : Expected) (done : List (String × Json)),
    toMembers expected done (ofMembers members) = .ok (Json.normalMembers done members)
  | [], _, _, _ => rfl
  | (k, v) :: rest, hfinite, expected, done => by
      have hv : IsFinite v := fun d hd => hfinite d (List.mem_append_left _ hd)
      have hrest := toMembers_ofMembers rest fun d hd => hfinite d (List.mem_append_right _ hd)
      have hkey : (str k).keyText? = some k := rfl
      rw [ofMembers, toMembers, hkey, toJson_ofJson v hv]
      exact hrest _ _

end

end Value

mutual

/-- A spelling that is the same in YAML has finite numbers only. -/
theorem isFinite_spelled : ∀ v : Spelled, v.IsCommon → IsFinite v.value
  | .null, _ => by simp [IsFinite, Spelled.value, Json.numbers]
  | .bool _, _ => by simp [IsFinite, Spelled.value, Json.numbers]
  | .num n, hcommon => by
      intro d hd
      have hn : n.number = .float d := (List.mem_singleton.mp hd).symm
      exact isFinite_of_plain? n (hcommon d hn)
  | .str _, _ => by simp [IsFinite, Spelled.value, Json.numbers]
  | .emptyArr _, _ => by simp [IsFinite, Spelled.value, Json.numbers, Json.numbersItems]
  | .arr items, hcommon => isFinite_items items hcommon
  | .emptyObj _, _ => by simp [IsFinite, Spelled.value, Json.numbers, Json.numbersMembers]
  | .obj members, hcommon => isFinite_members members hcommon

theorem isFinite_items : ∀ items : SpelledItems, items.IsCommon →
    ∀ d, .float d ∈ Json.numbersItems items.values → d.isFinite = true
  | .last _ v _, hcommon => by
      intro d hd
      rw [SpelledItems.values, Json.numbersItems, Json.numbersItems, List.append_nil] at hd
      exact isFinite_spelled v hcommon d hd
  | .next _ v _ items, hcommon => by
      intro d hd
      rcases List.mem_append.mp hd with hv | hrest
      · exact isFinite_spelled v hcommon.1 d hv
      · exact isFinite_items items hcommon.2 d hrest

theorem isFinite_members : ∀ members : SpelledMembers, members.IsCommon →
    ∀ d, .float d ∈ Json.numbersMembers members.values → d.isFinite = true
  | .last _ name _ _ v _, hcommon => by
      intro d hd
      rw [SpelledMembers.values, Json.numbersMembers, Json.numbersMembers, List.append_nil] at hd
      exact isFinite_spelled v hcommon.2 d hd
  | .next _ name _ _ v _ members, hcommon => by
      intro d hd
      rcases List.mem_append.mp hd with hv | hrest
      · exact isFinite_spelled v hcommon.2.1 d hv
      · exact isFinite_members members hcommon.2.2 d hrest

end

end Yaml

end Stepwise
