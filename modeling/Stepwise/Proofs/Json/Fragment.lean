import Stepwise.Proofs.Json.Grammar

/-!
# Fragments that are values

A fragment has a value exactly when it is what this value looks like when it is read whole: every
container in it is closed, and no mark stands in it for what was not read.
-/

namespace Stepwise.Fragment

theorem ofItems_eq_map (items : List Json) : ofItems items = items.map ofJson := by
  induction items with
  | nil => rfl
  | cons v rest ih => rw [ofItems, ih, List.map_cons]

theorem ofMembers_eq_map (members : List (String × Json)) :
    ofMembers members = members.map fun m => (m.1, ofJson m.2) := by
  induction members with
  | nil => rfl
  | cons m rest ih => rw [ofMembers, ih, List.map_cons]

mutual

theorem eq_ofJson_of_toJson? : ∀ {f : Fragment} {v : Json}, f.toJson? = some v → f = ofJson v
  | .null, _, h | .bool _, _, h | .num _, _, h | .str _, _, h => by
      cases h
      rfl
  | .broken, _, h | .passed, _, h | .passedObj _, _, h => by cases h
  | .arr items closed, _, h => by
      rw [toJson?] at h
      split at h
      · next hclosed =>
        obtain ⟨js, hjs, rfl⟩ := Option.map_eq_some_iff.mp h
        rw [eq_ofItems_of_toItems? hjs, hclosed, ofJson]
      · cases h
  | .obj members closed, _, h => by
      rw [toJson?] at h
      split at h
      · next hclosed =>
        obtain ⟨js, hjs, rfl⟩ := Option.map_eq_some_iff.mp h
        rw [eq_ofMembers_of_toMembers? hjs, hclosed, ofJson]
      · cases h

theorem eq_ofItems_of_toItems? : ∀ {items : List Fragment} {js : List Json},
    toItems? items = some js → items = ofItems js
  | [], _, h => by
      cases h
      rfl
  | f :: rest, _, h => by
      obtain ⟨j, js, hj, hjs, rfl⟩ := toItems?_cons h
      rw [ofItems, ← eq_ofJson_of_toJson? hj, ← eq_ofItems_of_toItems? hjs]

theorem eq_ofMembers_of_toMembers? : ∀ {members : List (String × Fragment)}
    {js : List (String × Json)}, toMembers? members = some js → members = ofMembers js
  | [], _, h => by
      cases h
      rfl
  | (key, f) :: rest, _, h => by
      obtain ⟨j, js, hj, hjs, rfl⟩ := toMembers?_cons h
      rw [ofMembers, ← eq_ofJson_of_toJson? hj, ← eq_ofMembers_of_toMembers? hjs]

end

theorem toJson?_eq_some_iff {f : Fragment} {v : Json} : f.toJson? = some v ↔ f = ofJson v :=
  ⟨eq_ofJson_of_toJson?, fun h => h ▸ toJson?_ofJson v⟩

end Stepwise.Fragment
