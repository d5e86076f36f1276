import Stepwise.Json
import Stepwise.Proofs.Ordered

/-!
# Values whose objects have distinct names

A value is normal when every object in it has distinct names. Giving a value distinct names makes
it normal and never deeper, and a value is deeper than each of its parts.
-/

namespace Stepwise.Json

theorem normalItems_eq_map (items : List Json) : normalItems items = items.map normal := by
  induction items with
  | nil => rfl
  | cons v rest ih => rw [normalItems, ih, List.map_cons]

theorem normalMembers_eq_setAll (done members : List (String × Json)) :
    normalMembers done members =
      Ordered.setAll done (members.map fun m => (m.1, m.2.normal)) := by
  induction members generalizing done with
  | nil => rfl
  | cons m rest ih => rw [normalMembers, ih, List.map_cons, Ordered.setAll_cons]

/-- Every object has distinct names. -/
def IsNormal (v : Json) : Prop := v.normal = v

@[simp] theorem isNormal_null : null.IsNormal := rfl

@[simp] theorem isNormal_bool (b : Bool) : (bool b).IsNormal := rfl

@[simp] theorem isNormal_num (n : Number) : (num n).IsNormal := rfl

@[simp] theorem isNormal_str (s : String) : (str s).IsNormal := rfl

@[simp] theorem isNormal_arr_iff (items : List Json) :
    (arr items).IsNormal ↔ ∀ v ∈ items, v.IsNormal := by
  simp only [IsNormal, normal, normalItems_eq_map, arr.injEq]
  simpa using List.map_inj_left (l := items) (f := normal) (g := id)

theorem isNormal_obj {members : List (String × Json)} (hn : (Ordered.keys members).Nodup)
    (hv : ∀ m ∈ members, m.2.IsNormal) : (obj members).IsNormal := by
  have hmap : (members.map fun m => (m.1, m.2.normal)) = members :=
    (List.map_congr_left fun m hm => congrArg (Prod.mk m.1) (hv m hm)).trans (List.map_id members)
  rw [IsNormal, normal, normalMembers_eq_setAll, hmap]
  exact congrArg obj (Ordered.ofPairs_eq_self hn)

mutual

theorem isNormal_normal : ∀ v : Json, v.normal.IsNormal
  | null | bool _ | num _ | str _ => rfl
  | arr items => by
      rw [normal, normalItems_eq_map, isNormal_arr_iff]
      exact List.forall_mem_map.mpr (isNormal_normal_items items)
  | obj members => by
      rw [normal, normalMembers_eq_setAll]
      refine isNormal_obj (Ordered.keys_nodup_ofPairs _) fun m hm => ?_
      obtain ⟨m', hm', rfl⟩ := List.mem_map.mp (Ordered.mem_of_mem_ofPairs hm)
      exact isNormal_normal_members members m' hm'

theorem isNormal_normal_items : ∀ items : List Json, ∀ v ∈ items, v.normal.IsNormal
  | [] => nofun
  | first :: rest => List.forall_mem_cons.mpr ⟨isNormal_normal first, isNormal_normal_items rest⟩

theorem isNormal_normal_members :
    ∀ members : List (String × Json), ∀ m ∈ members, m.2.normal.IsNormal
  | [] => nofun
  | (_, v) :: rest => List.forall_mem_cons.mpr ⟨isNormal_normal v, isNormal_normal_members rest⟩

end

/-- An object is normal when its names are distinct and its values are normal. -/
@[simp] theorem isNormal_obj_iff (members : List (String × Json)) :
    (obj members).IsNormal ↔
      (Ordered.keys members).Nodup ∧ ∀ m ∈ members, m.2.IsNormal := by
  refine ⟨fun h => ?_, fun h => isNormal_obj h.1 h.2⟩
  have hpairs : Ordered.ofPairs (members.map fun m => (m.1, m.2.normal)) = members := by
    rw [IsNormal, normal, normalMembers_eq_setAll] at h
    exact obj.inj h
  refine ⟨hpairs ▸ Ordered.keys_nodup_ofPairs _, fun m hm => ?_⟩
  rw [← hpairs] at hm
  obtain ⟨m', -, rfl⟩ := List.mem_map.mp (Ordered.mem_of_mem_ofPairs hm)
  exact isNormal_normal m'.2

/-- The value of a name that stands at most once is still there when names are made distinct. -/
theorem find?_normalMembers {members : List (String × Json)} {key : String}
    (h : (Ordered.keys members).count key ≤ 1) :
    Ordered.find? (normalMembers [] members) key = (Ordered.find? members key).map normal := by
  rw [normalMembers_eq_setAll, Ordered.find?_setAll, ← List.map_reverse, Ordered.find?_map,
    Ordered.find?_reverse h]
  simp

/-! ## Depth -/

theorem depthItems_le_iff {items : List Json} {n : Nat} :
    depthItems items ≤ n ↔ ∀ v ∈ items, v.depth ≤ n := by
  induction items with
  | nil => simp [depthItems]
  | cons v rest ih => rw [depthItems, Nat.max_le, ih, List.forall_mem_cons]

theorem depthMembers_le_iff {members : List (String × Json)} {n : Nat} :
    depthMembers members ≤ n ↔ ∀ m ∈ members, m.2.depth ≤ n := by
  induction members with
  | nil => simp [depthMembers]
  | cons m rest ih => rw [depthMembers, Nat.max_le, ih, List.forall_mem_cons]

theorem depth_lt_of_mem_items {items : List Json} {v : Json} (h : v ∈ items) :
    v.depth < (arr items).depth :=
  Nat.lt_succ_of_le (depthItems_le_iff.mp (Nat.le_refl _) v h)

theorem depth_lt_of_mem_members {members : List (String × Json)} {m : String × Json}
    (h : m ∈ members) : m.2.depth < (obj members).depth :=
  Nat.lt_succ_of_le (depthMembers_le_iff.mp (Nat.le_refl _) m h)

mutual

/-- Members of a repeated name may disappear, so a value can become less deep. -/
theorem depth_normal_le : ∀ v : Json, v.normal.depth ≤ v.depth
  | null | bool _ | num _ | str _ => Nat.le_refl _
  | arr items => by
      rw [normal, normalItems_eq_map, depth, depth, Nat.add_le_add_iff_right, depthItems_le_iff]
      exact List.forall_mem_map.mpr (depth_normal_le_items items)
  | obj members => by
      rw [normal, normalMembers_eq_setAll, depth, depth, Nat.add_le_add_iff_right,
        depthMembers_le_iff]
      intro m hm
      obtain ⟨m', hm', rfl⟩ := List.mem_map.mp (Ordered.mem_of_mem_ofPairs hm)
      exact depth_normal_le_members members m' hm'

theorem depth_normal_le_items :
    ∀ items : List Json, ∀ v ∈ items, v.normal.depth ≤ depthItems items
  | [] => nofun
  | first :: rest => List.forall_mem_cons.mpr
      ⟨Nat.le_trans (depth_normal_le first) (Nat.le_max_left _ _),
        fun v hv => Nat.le_trans (depth_normal_le_items rest v hv) (Nat.le_max_right _ _)⟩

theorem depth_normal_le_members :
    ∀ members : List (String × Json), ∀ m ∈ members, m.2.normal.depth ≤ depthMembers members
  | [] => nofun
  | (_, v) :: rest => List.forall_mem_cons.mpr
      ⟨Nat.le_trans (depth_normal_le v) (Nat.le_max_left _ _),
        fun m hm => Nat.le_trans (depth_normal_le_members rest m hm) (Nat.le_max_right _ _)⟩

end

end Stepwise.Json
