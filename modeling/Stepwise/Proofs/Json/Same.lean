import Mathlib.Data.List.Perm.Subperm
import Stepwise.Proofs.Json
import Stepwise.Proofs.Json.Compact
import Stepwise.Proofs.Number.Integers

/-!
# Sameness of values

Two objects are the same when they have equally many members and each member of the first is the
same as the one of its name in the second. For values whose objects have distinct names this does
not depend on which of the two comes first: then equally many names, all found in the second
object, are all its names. Such a value is the same as itself if its numbers are finite.
-/

namespace Stepwise

theorem Double.compare?_swap (x y : Double) : y.compare? x = (x.compare? y).map Ordering.swap := by
  by_cases hnan : x.isNaN = true ∨ y.isNaN = true
  · have hleft : (x.isNaN || y.isNaN) = true := by simpa using hnan
    have hright : (y.isNaN || x.isNaN) = true := by simpa using hnan.symm
    simp [compare?, hleft, hright]
  · obtain ⟨hx, hy⟩ := not_or.mp hnan
    simp [compare?, hx, hy, Int.compare_swap]

theorem Double.same_comm (x y : Double) : x.same y = y.same x := by
  rw [same, same, compare?_swap x y]
  rcases x.compare? y with _ | _ | _ | _ <;> rfl

theorem Number.same_comm (m n : Number) : m.same n = n.same m := by
  cases m with
  | int a =>
      cases n with
      | int b => simp [same, eq_comm]
      | float y => rfl
  | float x =>
      cases n with
      | int b => rfl
      | float y => exact Double.same_comm x y

theorem Double.same_self {d : Double} (h : d.isNaN = false) : d.same d = true := by
  simp [same, compare?, h]

theorem Number.isNaN_toDouble {n : Number} (h : n.isFinite = true) : n.toDouble.isNaN = false := by
  cases n with
  | int a => exact Double.ofInt_isNaN a
  | float d => exact decide_eq_false (Nat.not_lt.mpr (Nat.le_of_lt (of_decide_eq_true h)))

theorem Number.same_self {n : Number} (h : n.isFinite = true) : n.same n = true := by
  cases n with
  | int a => exact beq_self_eq_true a
  | float d => exact Double.same_self (isNaN_toDouble h)

namespace Json

theorem sameMembers_iff {xs ys : List (String × Json)} :
    sameMembers xs ys = true ↔
      ∀ m ∈ xs, ∃ w, Ordered.find? ys m.1 = some w ∧ m.2.same w = true := by
  induction xs with
  | nil => simp [sameMembers]
  | cons m rest ih =>
      obtain ⟨k, v⟩ := m
      rw [sameMembers, Bool.and_eq_true, ih, List.forall_mem_cons]
      cases Ordered.find? ys k <;> simp

/-- The members of an object stand under the names of another one that is as large, so each name of
the other is among them. -/
theorem mem_keys_of_sameMembers {xs ys : List (String × Json)}
    (hxs : (Ordered.keys xs).Nodup) (hlength : xs.length = ys.length)
    (h : sameMembers xs ys = true) :
    ∀ k ∈ Ordered.keys ys, k ∈ Ordered.keys xs := by
  have hsub : Ordered.keys xs ⊆ Ordered.keys ys := by
    intro k hk
    obtain ⟨m, hm, rfl⟩ := List.mem_map.mp hk
    obtain ⟨w, hfound, -⟩ := sameMembers_iff.mp h m hm
    exact List.mem_map.mpr ⟨_, Ordered.mem_of_find? hfound, rfl⟩
  have hperm : (Ordered.keys xs).Perm (Ordered.keys ys) := by
    apply (List.subperm_of_subset hxs hsub).perm_of_length_le
    simp [Ordered.keys, hlength]
  exact fun k hk => hperm.mem_iff.mpr hk

mutual

/-- Induction on the first value: for two objects each member of the second is found in the first
by `mem_keys_of_sameMembers`. -/
theorem same_symm : ∀ a b : Json, a.IsNormal → b.IsNormal → a.same b = true → b.same a = true
  | null, b, _, _, h => by cases b <;> simp_all [same]
  | bool x, b, _, _, h => by cases b <;> simp_all [same]
  | num m, b, _, _, h => by
      cases b <;> simp only [same, Bool.false_eq_true] at h ⊢
      rwa [Number.same_comm]
  | str s, b, _, _, h => by cases b <;> simp_all [same]
  | arr xs, b, ha, hb, h => by
      cases b <;> simp only [same, Bool.false_eq_true] at h ⊢
      exact sameItems_symm xs _ ((isNormal_arr_iff xs).mp ha) ((isNormal_arr_iff _).mp hb) h
  | obj xs, b, ha, hb, h => by
      cases b <;> simp only [same, Bool.false_eq_true] at h ⊢
      next ys =>
        obtain ⟨hxs, hxsNormal⟩ := (isNormal_obj_iff xs).mp ha
        obtain ⟨hys, hysNormal⟩ := (isNormal_obj_iff ys).mp hb
        obtain ⟨hlength, hmembers⟩ : xs.length = ys.length ∧ sameMembers xs ys = true := by
          simpa using h
        have hback : sameMembers ys xs = true := by
          apply sameMembers_iff.mpr
          intro m hm
          have hmem : m.1 ∈ Ordered.keys xs :=
            mem_keys_of_sameMembers hxs hlength hmembers m.1 (List.mem_map_of_mem hm)
          obtain ⟨n, hn, hname⟩ := List.mem_map.mp hmem
          obtain ⟨w, hw, hsame⟩ := sameMembers_iff.mp hmembers n hn
          have hvalue : w = m.2 := by
            rw [hname, Ordered.find?_of_mem hys hm] at hw
            exact (Option.some.inj hw).symm
          refine ⟨n.2, hname ▸ Ordered.find?_of_mem hxs hn, ?_⟩
          exact sameMembers_symm xs n hn m.2 (hxsNormal n hn) (hysNormal m hm) (hvalue ▸ hsame)
        simp [hlength, hback]

theorem sameItems_symm : ∀ xs ys : List Json, (∀ v ∈ xs, v.IsNormal) → (∀ v ∈ ys, v.IsNormal) →
    sameItems xs ys = true → sameItems ys xs = true
  | [], ys, _, _, h => by cases ys <;> simp_all [sameItems]
  | x :: xs, ys, hxs, hys, h => by
      cases ys with
      | nil => simp [sameItems] at h
      | cons y ys =>
          rw [sameItems, Bool.and_eq_true] at h ⊢
          obtain ⟨hx, hxs⟩ := List.forall_mem_cons.mp hxs
          obtain ⟨hy, hys⟩ := List.forall_mem_cons.mp hys
          exact ⟨same_symm x y hx hy h.1, sameItems_symm xs ys hxs hys h.2⟩

theorem sameMembers_symm : ∀ xs : List (String × Json), ∀ m ∈ xs, ∀ w : Json, m.2.IsNormal →
    w.IsNormal → m.2.same w = true → w.same m.2 = true
  | [] => nofun
  | (_, v) :: rest => List.forall_mem_cons.mpr ⟨same_symm v, sameMembers_symm rest⟩

end

/-- Sameness does not depend on the order of the two values. -/
theorem same_comm {a b : Json} (ha : a.IsNormal) (hb : b.IsNormal) : a.same b = b.same a :=
  Bool.eq_iff_iff.mpr ⟨same_symm a b ha hb, same_symm b a hb ha⟩

mutual

/-- A value with distinct names and finite numbers is the same as itself. -/
theorem same_self : ∀ a : Json, a.IsNormal → a.HasFiniteNumbers → a.same a = true
  | null, _, _ => rfl
  | bool b, _, _ => beq_self_eq_true b
  | num n, _, hfinite => Number.same_self (hfinite n (List.mem_singleton_self n))
  | str s, _, _ => beq_self_eq_true s
  | arr items, hnormal, hfinite =>
      sameItems_self items ((isNormal_arr_iff items).mp hnormal)
        ((hasFiniteNumbers_arr_iff items).mp hfinite)
  | obj members, hnormal, hfinite => by
      obtain ⟨hnames, hvalues⟩ := (isNormal_obj_iff members).mp hnormal
      have hself := sameMembers_self members hvalues ((hasFiniteNumbers_obj_iff members).mp hfinite)
      rw [same, beq_self_eq_true, Bool.true_and]
      exact sameMembers_iff.mpr fun m hm => ⟨m.2, Ordered.find?_of_mem hnames hm, hself m hm⟩

theorem sameItems_self : ∀ items : List Json, (∀ v ∈ items, v.IsNormal) →
    (∀ v ∈ items, v.HasFiniteNumbers) → sameItems items items = true
  | [], _, _ => rfl
  | v :: items, hnormal, hfinite => by
      obtain ⟨hv, hitems⟩ := List.forall_mem_cons.mp hnormal
      obtain ⟨hv', hitems'⟩ := List.forall_mem_cons.mp hfinite
      rw [sameItems, same_self v hv hv', sameItems_self items hitems hitems', Bool.and_self]

theorem sameMembers_self : ∀ members : List (String × Json), (∀ m ∈ members, m.2.IsNormal) →
    (∀ m ∈ members, m.2.HasFiniteNumbers) → ∀ m ∈ members, m.2.same m.2 = true
  | [], _, _ => nofun
  | (_, v) :: members, hnormal, hfinite => by
      obtain ⟨hv, hmembers⟩ := List.forall_mem_cons.mp hnormal
      obtain ⟨hv', hmembers'⟩ := List.forall_mem_cons.mp hfinite
      exact List.forall_mem_cons.mpr
        ⟨same_self v hv hv', sameMembers_self members hmembers hmembers'⟩

end

end Json

end Stepwise
