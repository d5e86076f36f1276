import Stepwise.Json.Printer
import Stepwise.Proofs.Redaction.Rules

/-!
# Names that are assigned

In a solid text the rule for assignments finds something exactly where a name with a word for
secrets stands right before an equals sign. No such name comes up where addresses are hidden or a
text is written between quotes: what these two put into a text ends a name, or begins no word for
secrets.
-/

namespace Stepwise.Redaction

open Text

/-- A name with a word for secrets stands at the end. -/
def EndsInName (cs : List Char) : Prop :=
  ∃ name, name <:+ cs ∧ (∀ c ∈ name, isNameChar c = true) ∧ names assignedWords name = true

/-- A name with a word for secrets stands right before an equals sign. -/
def Assigns (cs : List Char) : Prop :=
  ∃ front back, cs = front ++ '=' :: back ∧ EndsInName front

variable {xs ys : List Char}

theorem EndsInName.append_left (h : EndsInName ys) (xs : List Char) : EndsInName (xs ++ ys) := by
  obtain ⟨name, hname, hwords⟩ := h
  exact ⟨name, hname.trans (List.suffix_append xs ys), hwords⟩

/-- A name does not reach over a character that is none of a name. -/
theorem EndsInName.of_stop {stop : Char} (hstop : isNameChar stop = false)
    (h : EndsInName (xs ++ stop :: ys)) : EndsInName ys := by
  obtain ⟨name, hname, hchars, hwords⟩ := h
  have hnotin : stop ∉ name := not_mem_of_class hchars hstop
  rcases List.suffix_or_suffix_of_suffix hname (List.suffix_append xs (stop :: ys)) with hs | hs
  · rcases List.suffix_cons_iff.mp hs with rfl | hs
    · exact absurd List.mem_cons_self hnotin
    · exact ⟨name, hs, hchars, hwords⟩
  · exact absurd (hs.mem List.mem_cons_self) hnotin

namespace Assigns

theorem mem (h : Assigns xs) : '=' ∈ xs := by
  obtain ⟨front, back, rfl, -⟩ := h
  exact List.mem_append_right _ List.mem_cons_self

theorem append_right (h : Assigns xs) (ys : List Char) : Assigns (xs ++ ys) := by
  obtain ⟨front, back, rfl, hname⟩ := h
  exact ⟨front, back ++ ys, by simp, hname⟩

theorem append_left (h : Assigns ys) (xs : List Char) : Assigns (xs ++ ys) := by
  obtain ⟨front, back, rfl, hname⟩ := h
  exact ⟨xs ++ front, back, by simp, hname.append_left xs⟩

/-- The equals sign stands in front of a text that has none. -/
theorem of_append (hys : '=' ∉ ys) (h : Assigns (xs ++ ys)) : Assigns xs := by
  obtain ⟨front, back, hsplit, hname⟩ := h
  obtain ⟨mid, rfl, -⟩ := split_front hys hsplit
  exact ⟨front, mid, rfl, hname⟩

/-- An assignment lies on one side of a character that ends a name. -/
theorem cases_of_stop {stop : Char} (hstop : isNameChar stop = false) (hne : stop ≠ '=')
    (h : Assigns (xs ++ stop :: ys)) : Assigns xs ∨ Assigns ys := by
  obtain ⟨front, back, hsplit, hname⟩ := h
  rcases split_cases hsplit with ⟨mid, rfl, -⟩ | ⟨mid, rfl, hmid⟩
  · exact Or.inl ⟨front, mid, rfl, hname⟩
  · cases mid with
    | nil => exact absurd (List.cons.inj hmid).1 hne
    | cons m mid =>
        obtain ⟨rfl, rfl⟩ := List.cons.inj hmid
        exact Or.inr ⟨mid, back, rfl, hname.of_stop hstop⟩

end Assigns

/-! ## What the rule finds -/

/-- In front of something solid without an equals sign the rule finds nothing exactly when no name is
assigned. -/
theorem assignment_none_iff (hxs : IsSolidText (xs ++ ys)) (hne : ys ≠ []) (hys : '=' ∉ ys) :
    (∀ s, s <:+ xs ++ ys → s ≠ [] → assignment none s = none) ↔ ¬Assigns xs := by
  constructor
  · rintro hnothing ⟨front, back, rfl, name, ⟨before, rfl⟩, hname⟩
    have hs : name ++ '=' :: (back ++ ys) <:+ before ++ name ++ '=' :: back ++ ys :=
      ⟨before, by simp⟩
    have hsolid : IsSolidText (name ++ '=' :: (back ++ ys)) := fun c hc => hxs c (hs.mem hc)
    have hfound : assignment none (name ++ '=' :: (back ++ ys)) =
        some ⟨name ++ ['='], back ++ ys, []⟩ :=
      (assignment_eq_some_iff_of_solid hsolid).mpr
        ⟨name, back ++ ys, rfl, hname, by simp [hne], rfl⟩
    rw [hnothing _ hs (by simp)] at hfound
    cases hfound
  · rintro hassigns s ⟨before, hs⟩ -
    cases hfound : assignment none s with
    | none => rfl
    | some f =>
        have hsolid : IsSolidText s := fun c hc => hxs c (hs ▸ List.mem_append_right _ hc)
        obtain ⟨name, secret, rfl, hname, -⟩ := (assignment_eq_some_iff_of_solid hsolid).mp hfound
        rw [← List.append_assoc] at hs
        obtain ⟨mid, rfl, -⟩ := split_front hys hs.symm
        exact absurd ⟨_, mid, rfl, name, List.suffix_append _ _, hname⟩ hassigns

/-! ## Hiding addresses -/

/-- Where addresses are hidden no name is assigned that was not before. The induction is over the
steps of the sweep, with what is in front of a step left open. -/
theorem Assigns.of_sweeps {cs out : List Char} (hsweep : Sweeps addressUser cs out)
    (front : List Char) (h : Assigns (front ++ out)) : Assigns (front ++ cs) := by
  induction hsweep generalizing front with
  | done => exact h
  | @pass c cs out hnone hrest ih =>
      rw [List.append_cons] at h ⊢
      exact ih _ h
  | @hide f cs out hsecret hfound hrest ih =>
      obtain ⟨scheme, user, password, rest, -, ⟨-, hchars⟩, -, -, rfl⟩ :=
        addressUser_eq_some_iff.mp hfound
      have hkept : '=' ∉ scheme ++ slashes ++ mark := by
        rw [List.append_assoc, List.mem_append, not_or]
        exact ⟨not_mem_of_class hchars (by decide), by decide⟩
      have hsplit : front ++ (Found.shown ⟨scheme ++ slashes, user ++ ':' :: password, ['@']⟩ ++ out) =
          front ++ (scheme ++ slashes ++ mark) ++ '@' :: out := by simp [Found.shown]
      rw [hsplit] at h
      rcases h.cases_of_stop (by decide) (by decide) with hleft | hright
      · exact (hleft.of_append hkept).append_right _
      · exact ((ih [] hright).append_left _).append_left _

/-! ## Writing a text between quotes -/

/-- A word for secrets begins with one of these letters. -/
def wordStarts : List Char := ['k', 't', 's', 'p']

theorem head?_of_mem_assignedWords {w : String} (hw : w ∈ assignedWords) :
    ∃ x ∈ wordStarts, w.toList.head? = some x := by
  have hall : assignedWords.all (fun w => w.toList.head?.any fun x => x ∈ wordStarts) = true := by
    decide
  obtain ⟨x, hx, hstart⟩ := (Option.any_eq_true _ _).mp (List.all_eq_true.mp hall w hw)
  exact ⟨x, of_decide_eq_true hstart, hx⟩

/-- A text without the letters with which words for secrets begin. -/
def StartsNoWord (cs : List Char) : Prop := ∀ c ∈ cs, fold c ∉ wordStarts

instance (cs : List Char) : Decidable (StartsNoWord cs) := List.decidableBAll _ cs

/-- A word for secrets does not begin where none of its letters stands. -/
theorem names_of_append (hxs : StartsNoWord xs)
    (h : names assignedWords (xs ++ ys) = true) : names assignedWords ys = true := by
  obtain ⟨w, hw, hspells⟩ := List.any_eq_true.mp h
  refine List.any_eq_true.mpr ⟨w, hw, spells_iff.mpr ?_⟩
  obtain ⟨x, hx, hhead⟩ := head?_of_mem_assignedWords hw
  obtain ⟨rest, hrest⟩ := List.head?_eq_some_iff.mp hhead
  obtain ⟨before, behind, hsplit⟩ := spells_iff.mp hspells
  rw [hrest, List.map_append, List.append_assoc, List.cons_append] at hsplit
  rw [hrest]
  rcases split_cases hsplit.symm with ⟨mid, hfront, -⟩ | ⟨mid, -, hback⟩
  · have hmem : x ∈ xs.map fold := hfront ▸ List.mem_append_right _ List.mem_cons_self
    obtain ⟨c, hc, rfl⟩ := List.mem_map.mp hmem
    exact absurd hx (hxs c hc)
  · exact ⟨mid, behind, by rw [hback]; simp⟩

theorem Assigns.of_starts (hequals : '=' ∉ xs) (hxs : StartsNoWord xs)
    (h : Assigns (xs ++ ys)) : Assigns ys := by
  obtain ⟨front, back, hsplit, name, hname, hchars, hwords⟩ := h
  rcases split_cases hsplit with ⟨mid, rfl, -⟩ | ⟨mid, rfl, rfl⟩
  · exact absurd (by simp) hequals
  refine ⟨mid, back, rfl, ?_⟩
  rcases List.suffix_or_suffix_of_suffix hname (List.suffix_append xs mid) with hs | ⟨inside, rfl⟩
  · exact ⟨name, hs, hchars, hwords⟩
  · obtain ⟨before, hbefore⟩ := hname
    rw [← List.append_assoc] at hbefore
    obtain rfl := List.append_cancel_right hbefore
    refine ⟨mid, List.suffix_refl mid, fun c hc => hchars c (List.mem_append_right _ hc), ?_⟩
    exact names_of_append (fun c hc => hxs c (List.mem_append_right _ hc)) hwords

theorem escapeChar_of_ge {c : Char} (hc : 128 ≤ c.toNat) : Json.escapeChar c = [c] := by
  have hne (d : Char) (hd : d.toNat < 128) : c ≠ d := by
    rintro rfl
    exact absurd hc (Nat.not_le.mpr hd)
  have hcontrol : ¬c.toNat < 0x20 := by omega
  simp [Json.escapeChar, hne '"' (by decide), hne '\\' (by decide), hne '\x08' (by decide),
    hne '\x0c' (by decide), hne '\n' (by decide), hne '\r' (by decide), hne '\t' (by decide),
    hcontrol]

/-- What is so for an ASCII character, and for one that is written as it is, is so for all. -/
theorem escapeChar_induction {P : Char → List Char → Prop} (hself : ∀ c, P c [c])
    (hascii : ∀ n : Fin 128, P (Char.ofNat n) (Json.escapeChar (Char.ofNat n))) (c : Char) :
    P c (Json.escapeChar c) := by
  by_cases hc : c.toNat < 128
  · exact of_ascii (P := fun c => P c (Json.escapeChar c)) hascii hc
  · rw [escapeChar_of_ge (Nat.le_of_not_lt hc)]
    exact hself c

/-- An escape is a backslash with characters that do not begin a word for secrets. -/
theorem escapeChar_cases {c : Char} (hc : isBlank c = false) :
    Json.escapeChar c = [c] ∨ ∃ code, Json.escapeChar c = '\\' :: code ∧ '=' ∉ code ∧
      StartsNoWord code := by
  have hshape : isBlank c = false → Json.escapeChar c = [c] ∨
      ((Json.escapeChar c).head? = some '\\' ∧ '=' ∉ (Json.escapeChar c).tail ∧
        StartsNoWord (Json.escapeChar c).tail) :=
    escapeChar_induction (P := fun c written => isBlank c = false → written = [c] ∨
      (written.head? = some '\\' ∧ '=' ∉ written.tail ∧ StartsNoWord written.tail))
      (fun c _ => Or.inl rfl) (by decide +kernel) c
  rcases hshape hc with hself | ⟨hhead, hcode⟩
  · exact Or.inl hself
  · obtain ⟨code, hwritten⟩ := List.head?_eq_some_iff.mp hhead
    rw [hwritten] at hcode
    exact Or.inr ⟨code, hwritten, hcode⟩

/-- Between quotes no name is assigned that was not before. The induction is over the text, with
what is in front of a character left open. -/
theorem Assigns.of_escaped {cs : List Char} (hcs : IsSolidText cs) (front : List Char)
    (h : Assigns (front ++ cs.flatMap Json.escapeChar)) : Assigns (front ++ cs) := by
  induction cs generalizing front with
  | nil => exact h
  | cons c cs ih =>
      rw [List.flatMap_cons] at h
      rcases escapeChar_cases (hcs.not_isBlank List.mem_cons_self) with
        hself | ⟨code, hwritten, hequals, hstarts⟩
      · rw [hself, List.singleton_append, List.append_cons] at h
        rw [List.append_cons]
        exact ih hcs.tail _ h
      · rw [hwritten, List.cons_append] at h
        rcases h.cases_of_stop (by decide) (by decide) with hleft | hright
        · exact hleft.append_right _
        · exact (((ih hcs.tail code hright).of_starts hequals hstarts).append_left [c]).append_left
            front

end Stepwise.Redaction
