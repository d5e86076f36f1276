import Mathlib.Data.List.Induction
import Stepwise.Ordered

/-!
# Laws of ordered maps

What storing a value changes and what it leaves: the order of the names, the value found under a
name, and the slots of the other names. Storing many pairs in turn keeps the names that were there
in front and finds the last value that was stored under a name.
-/

namespace Stepwise.Ordered

variable {α γ : Type}

@[simp] theorem find?_nil (key : String) : find? ([] : Ordered α) key = none := rfl

theorem find?_cons (name key : String) (value : α) (rest : Ordered α) :
    find? ((name, value) :: rest) key = if name = key then some value else find? rest key := rfl

theorem keys_cons (name : String) (value : α) (rest : Ordered α) :
    keys ((name, value) :: rest) = name :: keys rest := rfl

/-- The value found under a name after a value is stored. -/
theorem find?_set (entries : Ordered α) (key other : String) (value : α) :
    find? (set entries key value) other =
      if key = other then some value else find? entries other := by
  induction entries with
  | nil => rfl
  | cons slot rest ih =>
      obtain ⟨name, old⟩ := slot
      by_cases hk : name = key
      · subst hk
        by_cases ho : name = other <;> simp [set, find?_cons, ho]
      · by_cases ho : name = other
        · subst ho
          simp [set, find?_cons, hk, Ne.symm hk]
        · simp [set, find?_cons, hk, ho, ih]

@[simp] theorem find?_set_self (entries : Ordered α) (key : String) (value : α) :
    find? (set entries key value) key = some value := by
  simp [find?_set]

/-- Of two values stored under one name the second one stays. -/
theorem set_set (entries : Ordered α) (key : String) (value value' : α) :
    set (set entries key value) key value' = set entries key value' := by
  induction entries with
  | nil => simp [set]
  | cons slot rest ih =>
      obtain ⟨name, old⟩ := slot
      by_cases hk : name = key <;> simp [set, hk, ih]

/-- Storing the value that is found changes nothing. -/
theorem set_eq_self {entries : Ordered α} {key : String} {value : α}
    (h : find? entries key = some value) : set entries key value = entries := by
  induction entries with
  | nil => cases h
  | cons slot rest ih =>
      obtain ⟨name, old⟩ := slot
      by_cases hk : name = key
      · obtain rfl : old = value := by simpa [find?_cons, hk] using h
        simp [set, hk]
      · simp [set, hk, ih (by simpa [find?_cons, hk] using h)]

theorem has_iff_mem_keys (entries : Ordered α) (key : String) :
    has entries key = true ↔ key ∈ keys entries := by
  induction entries with
  | nil => simp [has, keys]
  | cons slot rest ih =>
      obtain ⟨name, value⟩ := slot
      by_cases hk : name = key
      · simp [has, keys, find?_cons, hk]
      · have hne : key ≠ name := Ne.symm hk
        simpa [has, keys, find?_cons, hk, hne] using ih

theorem find?_eq_none_iff (entries : Ordered α) (key : String) :
    find? entries key = none ↔ key ∉ keys entries := by
  rw [← has_iff_mem_keys, has, Option.isSome_iff_ne_none, not_not]

theorem find?_append (xs ys : Ordered α) (key : String) :
    find? (xs ++ ys) key = (find? xs key).or (find? ys key) := by
  induction xs with
  | nil => rfl
  | cons slot rest ih =>
      obtain ⟨name, value⟩ := slot
      by_cases hk : name = key <;> simp [find?_cons, hk, ih]

/-- A name that stands at most once is found from either end. -/
theorem find?_reverse {entries : Ordered α} {key : String}
    (h : (keys entries).count key ≤ 1) : find? entries.reverse key = find? entries key := by
  induction entries with
  | nil => rfl
  | cons slot rest ih =>
      obtain ⟨name, value⟩ := slot
      rw [keys_cons] at h
      rw [List.reverse_cons, find?_append, find?_cons, find?_cons, find?_nil]
      by_cases hk : name = key
      · subst hk
        have hrest : name ∉ keys rest := by
          rw [List.count_cons_self] at h
          exact List.count_eq_zero.mp (by simpa using h)
        have hnone : find? rest.reverse name = none :=
          (find?_eq_none_iff _ _).mpr (by simpa [keys] using hrest)
        simp [hnone]
      · have hrest : (keys rest).count key ≤ 1 := by
          rwa [List.count_cons_of_ne hk] at h
        simp [hk, ih hrest]

/-- In a map with every value changed the changed value is found. -/
theorem find?_map (f : α → γ) (entries : Ordered α) (key : String) :
    find? (entries.map fun slot => (slot.1, f slot.2)) key = (find? entries key).map f := by
  induction entries with
  | nil => rfl
  | cons slot rest ih =>
      obtain ⟨name, value⟩ := slot
      by_cases hk : name = key <;> simp [find?_cons, hk, ih]

theorem map_set (f : α → γ) (entries : Ordered α) (key : String) (value : α) :
    (set entries key value).map (fun slot => (slot.1, f slot.2)) =
      set (entries.map fun slot => (slot.1, f slot.2)) key (f value) := by
  induction entries with
  | nil => rfl
  | cons slot rest ih =>
      obtain ⟨name, old⟩ := slot
      by_cases hk : name = key <;> simp [set, hk, ih]

/-- Storing under a name that is present keeps all names in place. -/
theorem keys_set_of_mem {entries : Ordered α} {key : String} (h : key ∈ keys entries)
    (value : α) : keys (set entries key value) = keys entries := by
  induction entries with
  | nil => simp [keys] at h
  | cons slot rest ih =>
      obtain ⟨name, old⟩ := slot
      by_cases hk : name = key
      · simp [set, keys, hk]
      · have hrest : key ∈ keys rest := by
          simpa [keys, Ne.symm hk] using h
        have ih := ih hrest
        simp only [keys] at ih
        simp [set, keys, hk, ih]

/-- A new name goes to the end. -/
theorem keys_set_of_not_mem {entries : Ordered α} {key : String} (h : key ∉ keys entries)
    (value : α) : keys (set entries key value) = keys entries ++ [key] := by
  induction entries with
  | nil => rfl
  | cons slot rest ih =>
      obtain ⟨name, old⟩ := slot
      have hk : name ≠ key := fun hk => h (by simp [keys, hk])
      have hrest : key ∉ keys rest := fun hr => h (by simpa [keys] using Or.inr hr)
      have ih := ih hrest
      simp only [keys] at ih
      simp [set, keys, hk, ih]

theorem mem_keys_set (entries : Ordered α) (key : String) (value : α) (other : String) :
    other ∈ keys (set entries key value) ↔ other = key ∨ other ∈ keys entries := by
  by_cases hk : key ∈ keys entries
  · rw [keys_set_of_mem hk]
    exact ⟨Or.inr, fun h => h.elim (fun heq => heq ▸ hk) id⟩
  · rw [keys_set_of_not_mem hk, List.mem_append, List.mem_singleton, or_comm]

/-- A name that stands in the first part of a map is stored there. -/
theorem set_append_of_mem {xs : Ordered α} {key : String} (h : key ∈ keys xs) (ys : Ordered α)
    (value : α) : set (xs ++ ys) key value = set xs key value ++ ys := by
  induction xs with
  | nil => simp [keys] at h
  | cons slot rest ih =>
      obtain ⟨name, old⟩ := slot
      by_cases hk : name = key
      · simp [set, hk]
      · have hrest : key ∈ keys rest := by
          simpa [keys, Ne.symm hk] using h
        simp [set, hk, ih hrest]

theorem set_append_of_not_mem {xs : Ordered α} {key : String} (h : key ∉ keys xs)
    (ys : Ordered α) (value : α) : set (xs ++ ys) key value = xs ++ set ys key value := by
  induction xs with
  | nil => rfl
  | cons slot rest ih =>
      obtain ⟨name, old⟩ := slot
      have hk : name ≠ key := fun hk => h (by simp [keys, hk])
      have hrest : key ∉ keys rest := fun hr => h (by simpa [keys] using Or.inr hr)
      simp [set, hk, ih hrest]

theorem set_of_not_mem {entries : Ordered α} {key : String} (h : key ∉ keys entries)
    (value : α) : set entries key value = entries ++ [(key, value)] := by
  have happend := set_append_of_not_mem h [] value
  rwa [List.append_nil] at happend

theorem keys_prefix_set (entries : Ordered α) (key : String) (value : α) :
    keys entries <+: keys (set entries key value) := by
  by_cases h : key ∈ keys entries
  · have hkeys := keys_set_of_mem h value
    exact hkeys ▸ List.prefix_rfl
  · rw [keys_set_of_not_mem h]
    exact List.prefix_append _ _

theorem keys_nodup_set {entries : Ordered α} (h : (keys entries).Nodup) (key : String)
    (value : α) : (keys (set entries key value)).Nodup := by
  by_cases hk : key ∈ keys entries
  · rwa [keys_set_of_mem hk]
  · rw [keys_set_of_not_mem hk]
    exact List.nodup_append.mpr ⟨h, by simp, by
      intro a ha b hb
      rw [List.mem_singleton.mp hb]
      exact fun hab => hk (hab ▸ ha)⟩

/-- With distinct names, storing under a name that is present changes that slot alone. -/
theorem set_eq_map {entries : Ordered α} {key : String} (hn : (keys entries).Nodup)
    (h : key ∈ keys entries) (value : α) :
    set entries key value =
      entries.map fun slot => (slot.1, if slot.1 = key then value else slot.2) := by
  induction entries with
  | nil => simp [keys] at h
  | cons slot rest ih =>
      obtain ⟨name, old⟩ := slot
      obtain ⟨hout, hrest⟩ : name ∉ keys rest ∧ (keys rest).Nodup := List.nodup_cons.mp hn
      by_cases hk : name = key
      · subst hk
        have hsame : rest.map (fun slot => (slot.1, if slot.1 = name then value else slot.2)) =
            rest := by
          refine (List.map_congr_left fun other hother => ?_).trans (List.map_id rest)
          have hne : other.1 ≠ name := fun he =>
            hout (he ▸ (List.mem_map_of_mem hother : other.1 ∈ keys rest))
          simp [hne]
        simp [set, hsame]
      · have hmem : key ∈ keys rest := by
          simpa [keys, Ne.symm hk] using h
        simp [set, hk, ih hrest hmem]

/-- A slot of a map with distinct names is found under its name. -/
theorem find?_of_mem {entries : Ordered α} (hn : (keys entries).Nodup) {slot : String × α}
    (h : slot ∈ entries) : find? entries slot.1 = some slot.2 := by
  induction entries with
  | nil => cases h
  | cons first rest ih =>
      obtain ⟨name, value⟩ := first
      obtain ⟨hout, hrest⟩ : name ∉ keys rest ∧ (keys rest).Nodup := List.nodup_cons.mp hn
      rcases List.mem_cons.mp h with rfl | hmem
      · simp [find?_cons]
      · have hne : name ≠ slot.1 := fun he =>
          hout (he ▸ (List.mem_map_of_mem hmem : slot.1 ∈ keys rest))
        simpa [find?_cons, hne] using ih hrest hmem

theorem mem_of_find? {entries : Ordered α} {key : String} {value : α}
    (h : find? entries key = some value) : (key, value) ∈ entries := by
  induction entries with
  | nil => cases h
  | cons slot rest ih =>
      obtain ⟨name, old⟩ := slot
      by_cases hk : name = key
      · obtain rfl : old = value := by simpa [find?_cons, hk] using h
        exact hk ▸ List.mem_cons_self
      · exact List.mem_cons_of_mem _ (ih (by simpa [find?_cons, hk] using h))

/-! ## Storing many pairs -/

@[simp] theorem setAll_nil (entries : Ordered α) : setAll entries [] = entries := rfl

@[simp] theorem setAll_cons (entries : Ordered α) (pair : String × α)
    (pairs : List (String × α)) :
    setAll entries (pair :: pairs) = setAll (set entries pair.1 pair.2) pairs := rfl

theorem setAll_append (entries : Ordered α) (xs ys : List (String × α)) :
    setAll entries (xs ++ ys) = setAll (setAll entries xs) ys :=
  List.foldl_append

/-- Values may be changed before or after they are stored. -/
theorem map_setAll (f : α → γ) (entries : Ordered α) (pairs : List (String × α)) :
    (setAll entries pairs).map (fun slot => (slot.1, f slot.2)) =
      setAll (entries.map fun slot => (slot.1, f slot.2))
        (pairs.map fun pair => (pair.1, f pair.2)) := by
  induction pairs generalizing entries with
  | nil => rfl
  | cons pair rest ih => rw [setAll_cons, ih, map_set, List.map_cons, setAll_cons]

theorem map_ofPairs (f : α → γ) (pairs : List (String × α)) :
    (ofPairs pairs).map (fun slot => (slot.1, f slot.2)) =
      ofPairs (pairs.map fun pair => (pair.1, f pair.2)) :=
  map_setAll f [] pairs

theorem keys_prefix_setAll (entries : Ordered α) (pairs : List (String × α)) :
    keys entries <+: keys (setAll entries pairs) := by
  induction pairs generalizing entries with
  | nil => exact List.prefix_rfl
  | cons pair rest ih => exact (keys_prefix_set entries pair.1 pair.2).trans (ih _)

/-- The names that were there stay in front, and the new ones follow in the order of their first
pairs. -/
theorem keys_setAll (entries : Ordered α) (pairs : List (String × α)) :
    keys (setAll entries pairs) =
      keys entries ++ ((pairs.map Prod.fst).filter (· ∉ keys entries)).eraseDups := by
  induction pairs generalizing entries with
  | nil => simp
  | cons pair rest ih =>
      rw [setAll_cons, ih, List.map_cons]
      by_cases hk : pair.1 ∈ keys entries
      · rw [keys_set_of_mem hk, List.filter_cons_of_neg (by simpa using hk)]
      · rw [keys_set_of_not_mem hk, List.filter_cons_of_pos (by simpa using hk),
          List.eraseDups_cons, List.filter_filter, List.append_assoc, List.singleton_append]
        congr 3
        refine List.filter_congr fun key _ => ?_
        by_cases hnew : key = pair.1 <;> simp [hnew]

/-- The last pair that was stored under a name decides, and without one the old value stays. -/
theorem find?_setAll (entries : Ordered α) (pairs : List (String × α)) (key : String) :
    find? (setAll entries pairs) key = (find? pairs.reverse key).or (find? entries key) := by
  induction pairs using List.reverseRecOn with
  | nil => rfl
  | append_singleton rest pair ih =>
      obtain ⟨name, value⟩ := pair
      rw [setAll_append, List.reverse_append]
      by_cases hk : name = key
      · simp [find?_cons, hk]
      · simp [find?_set, find?_cons, hk, ih]

theorem find?_setAll_of_last (entries : Ordered α) (before : List (String × α)) (key : String)
    (value : α) {after : List (String × α)} (h : key ∉ keys after) :
    find? (setAll entries (before ++ (key, value) :: after)) key = some value := by
  have hafter : find? after.reverse key = none :=
    (find?_eq_none_iff _ _).mpr (by simpa [keys] using h)
  simp [find?_setAll, find?_append, find?_cons, hafter]

theorem find?_setAll_of_not_mem (entries : Ordered α) {pairs : List (String × α)} {key : String}
    (h : key ∉ keys pairs) : find? (setAll entries pairs) key = find? entries key := by
  have hpairs : find? pairs.reverse key = none :=
    (find?_eq_none_iff _ _).mpr (by simpa [keys] using h)
  rw [find?_setAll, hpairs, Option.none_or]

/-- A name among pairs has a last pair. -/
theorem exists_last_of_mem_keys {pairs : List (String × α)} {key : String} (h : key ∈ keys pairs) :
    ∃ value before after, pairs = before ++ (key, value) :: after ∧ key ∉ keys after := by
  induction pairs with
  | nil => simp [keys] at h
  | cons pair rest ih =>
      by_cases hrest : key ∈ keys rest
      · obtain ⟨value, before, after, rfl, hafter⟩ := ih hrest
        exact ⟨value, pair :: before, after, rfl, hafter⟩
      · obtain ⟨name, value⟩ := pair
        obtain rfl : key = name := (List.mem_cons.mp h).resolve_right hrest
        exact ⟨value, [], rest, rfl, hrest⟩

/-- What is found in the map of pairs is the value of the last pair of the name. -/
theorem exists_last_of_find?_ofPairs {pairs : List (String × α)} {key : String} {value : α}
    (h : find? (ofPairs pairs) key = some value) :
    ∃ before after, pairs = before ++ (key, value) :: after ∧ key ∉ keys after := by
  have hmem : key ∈ keys pairs := by
    by_cases hkey : key ∈ keys pairs
    · exact hkey
    · rw [ofPairs, find?_setAll_of_not_mem [] hkey] at h
      cases h
  obtain ⟨last, before, after, rfl, hafter⟩ := exists_last_of_mem_keys hmem
  rw [ofPairs, find?_setAll_of_last [] before key last hafter] at h
  obtain rfl := Option.some.inj h
  exact ⟨before, after, rfl, hafter⟩

theorem keys_nodup_setAll {entries : Ordered α} (h : (keys entries).Nodup)
    (pairs : List (String × α)) : (keys (setAll entries pairs)).Nodup := by
  induction pairs generalizing entries with
  | nil => exact h
  | cons pair rest ih => exact ih (keys_nodup_set h pair.1 pair.2)

theorem keys_nodup_ofPairs (pairs : List (String × α)) : (keys (ofPairs pairs)).Nodup :=
  @keys_nodup_setAll α [] List.nodup_nil pairs

/-- Each name stands in the place of its first pair. -/
theorem keys_ofPairs (pairs : List (String × α)) :
    keys (ofPairs pairs) = (pairs.map Prod.fst).eraseDups := by
  have hall : (pairs.map Prod.fst).filter (· ∉ keys ([] : Ordered α)) = pairs.map Prod.fst :=
    List.filter_eq_self.mpr fun key _ => by simp [keys]
  rw [ofPairs, keys_setAll, hall]
  rfl

theorem not_mem_keys_of_nodup_append {entries rest : Ordered α} {slot : String × α}
    (h : (keys (entries ++ slot :: rest)).Nodup) : slot.1 ∉ keys entries := by
  rw [keys, List.map_append, List.map_cons] at h
  exact fun hmem => (List.nodup_append.mp h).2.2 _ hmem _ List.mem_cons_self rfl

/-- Storing new, distinct names puts them at the end as they stand. -/
theorem setAll_eq_append {entries : Ordered α} {pairs : List (String × α)}
    (h : (keys (entries ++ pairs)).Nodup) : setAll entries pairs = entries ++ pairs := by
  induction pairs generalizing entries with
  | nil => simp
  | cons pair rest ih =>
      have hassoc : entries ++ pair :: rest = (entries ++ [pair]) ++ rest := by simp
      rw [setAll_cons, set_of_not_mem (not_mem_keys_of_nodup_append h), hassoc]
      exact ih (hassoc ▸ h)

theorem ofPairs_eq_self {pairs : List (String × α)} (h : (keys pairs).Nodup) :
    ofPairs pairs = pairs :=
  setAll_eq_append h

theorem mem_of_mem_set {entries : Ordered α} {key : String} {value : α} {slot : String × α}
    (h : slot ∈ set entries key value) : slot = (key, value) ∨ slot ∈ entries := by
  induction entries with
  | nil => simpa [set] using h
  | cons first rest ih =>
      obtain ⟨name, old⟩ := first
      by_cases hk : name = key
      · rw [set, if_pos hk, hk] at h
        rcases List.mem_cons.mp h with hs | hr
        · exact Or.inl hs
        · exact Or.inr (List.mem_cons_of_mem _ hr)
      · rw [set, if_neg hk] at h
        rcases List.mem_cons.mp h with hs | hr
        · exact Or.inr (by simp [hs])
        · exact (ih hr).imp id (List.mem_cons_of_mem _)

/-- Every slot after pairs are stored is one of the pairs or was there before. -/
theorem mem_of_mem_setAll {entries : Ordered α} {pairs : List (String × α)} {slot : String × α}
    (h : slot ∈ setAll entries pairs) : slot ∈ pairs ∨ slot ∈ entries := by
  induction pairs using List.reverseRecOn with
  | nil => exact Or.inr h
  | append_singleton rest pair ih =>
      rw [setAll_append] at h
      rcases mem_of_mem_set h with hs | hr
      · exact Or.inl (by simp [hs])
      · exact (ih hr).imp (List.mem_append_left _) id

theorem forall_mem_setAll {P : α → Prop} {entries : Ordered α} {pairs : List (String × α)}
    (he : ∀ slot ∈ entries, P slot.2) (hp : ∀ pair ∈ pairs, P pair.2) :
    ∀ slot ∈ setAll entries pairs, P slot.2 :=
  fun slot hslot => (mem_of_mem_setAll hslot).elim (hp slot) (he slot)

/-- Every slot of a map made from pairs is one of the pairs. -/
theorem mem_of_mem_ofPairs {pairs : List (String × α)} {slot : String × α}
    (h : slot ∈ ofPairs pairs) : slot ∈ pairs :=
  (mem_of_mem_setAll h).resolve_right List.not_mem_nil

end Stepwise.Ordered
