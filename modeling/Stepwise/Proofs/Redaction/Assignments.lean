import Stepwise.Proofs.Redaction.Rules

/-!
# Assigned secrets

A value that is assigned to a name with a word for secrets is hidden as a whole, whatever it
consists of, as long as there is no white space in it. The sweep for addresses comes first and may
rewrite parts of the value, but it leaves the name and the equals sign alone and leaves the value
neither empty nor with white space. The sweeps that come after find nothing in what is left, or
hide the mark once more.
-/

namespace Stepwise.Redaction

open Text

/-! ## Names and secrets -/

/-- A text of ASCII letters, digits and some other characters. -/
def IsMadeOf (others : List Char) (text : String) : Prop :=
  ∀ c ∈ text.toList, c.isAlphanum = true ∨ c ∈ others

instance (others : List Char) (text : String) : Decidable (IsMadeOf others text) :=
  List.decidableBAll _ text.toList

/-- A text that is not empty and without white space. -/
def IsSecret (secret : String) : Prop :=
  secret ≠ "" ∧ IsSolidText secret.toList

instance (secret : String) : Decidable (IsSecret secret) :=
  inferInstanceAs (Decidable (secret ≠ "" ∧ IsSolidText secret.toList))

namespace IsMadeOf

variable {others : List Char} {text : String} (h : IsMadeOf others text)
include h

/-- What is so for letters and digits and for the others is so for the whole text. -/
theorem forall_mem {P : Char → Prop} [DecidablePred P]
    (halphanum : ∀ {c}, c.isAlphanum = true → P c)
    (hothers : others.all (fun c => decide (P c)) = true) : ∀ c ∈ text.toList, P c := by
  intro c hc
  rcases h c hc with hletter | hother
  · exact halphanum hletter
  · exact of_decide_eq_true (List.all_eq_true.mp hothers c hother)

theorem isSolidText (hothers : others.all (fun c => decide (isSolid c = true)) = true) :
    IsSolidText text.toList :=
  h.forall_mem (fun halphanum => by simp [isSolid, isBlank_of_isAlphanum halphanum]) hothers

theorem fold_eq_toLower (hothers : others.all (fun c => decide (fold c = c.toLower)) = true) :
    ∀ c ∈ text.toList, fold c = c.toLower :=
  h.forall_mem fold_of_isAlphanum hothers

end IsMadeOf

/-! ## Words in names -/

/-- One of some words stands in a text, in any case of the ASCII letters. -/
def Holds (words : List String) (text : String) : Prop :=
  ∃ w ∈ words, w.toList <:+: text.toList.map Char.toLower

/-- A word that stands in a text is found there, if folding is the change to lower case. -/
theorem names_of_holds {words : List String} {text : String} (h : Holds words text)
    (hfold : ∀ c ∈ text.toList, fold c = c.toLower) : names words text.toList = true := by
  obtain ⟨w, hw, hinfix⟩ := h
  refine List.any_eq_true.mpr ⟨w, hw, spells_iff.mpr ?_⟩
  rw [List.map_congr_left hfold]
  exact hinfix

/-! ## Databases -/

/-- What is found in a solid text with one equals sign is all that is behind the sign. -/
theorem databaseAddress_of_name {name rest : List Char} {f : Found} (hname : '=' ∉ name)
    (hrest : IsSolidText rest) (h : databaseAddress none (name ++ '=' :: rest) = some f) :
    f = ⟨name ++ ['='], rest, []⟩ := by
  obtain ⟨found, secret, behind, hsplit, hfound, ⟨-, -, hbehind⟩, rfl⟩ :=
    parts_of_databaseAddress h
  have hequals : '=' ∉ found := by
    intro hmem
    have hfold : fold '=' ∈ found.map fold := List.mem_map_of_mem hmem
    rw [hfound] at hfold
    exact absurd hfold (by decide)
  obtain ⟨rfl, rfl⟩ := eq_of_first_eq hname hequals hsplit
  obtain rfl := hrest.right.eq_nil_of_head? hbehind
  rw [List.append_nil]

theorem sweep_databaseAddress_found {name : List Char} {f : Found} (hname : '=' ∉ name)
    (h : databaseAddress none (name ++ '=' :: mark) = some f) :
    sweep databaseAddress (name ++ '=' :: mark) = name ++ '=' :: mark := by
  have htext : name ++ '=' :: mark = Found.text ⟨name ++ ['='], mark, []⟩ ++ [] := by
    simp [Found.text]
  obtain rfl := databaseAddress_of_name hname isSolid_of_mem_mark h
  rw [sweep_hide databaseAddress_looksAhead h htext]
  simp [Found.shown, sweep_nil]

/-- Where the mark is assigned, the sweep for databases changes nothing: it finds nothing, or the
mark. -/
theorem sweep_databaseAddress_mark {name : List Char} (hname : '=' ∉ name) :
    sweep databaseAddress (name ++ '=' :: mark) = name ++ '=' :: mark := by
  have hmark : sweep databaseAddress mark = mark :=
    (databaseAddress_needs '@' (by decide)).sweep_eq_self databaseAddress_looksAhead
      (by decide)
  induction name with
  | nil =>
      cases hfound : databaseAddress none ('=' :: mark) with
      | some f => exact sweep_databaseAddress_found hname hfound
      | none => rw [List.nil_append, sweep_pass databaseAddress_looksAhead hfound, hmark]
  | cons c name ih =>
      cases hfound : databaseAddress none (c :: name ++ '=' :: mark) with
      | some f => exact sweep_databaseAddress_found hname hfound
      | none =>
          have hrest := ih fun hmem => hname (List.mem_cons_of_mem c hmem)
          exact (sweep_pass databaseAddress_looksAhead hfound).trans (congrArg (c :: ·) hrest)

/-! ## Assignments -/

/-- A name that holds a word for secrets hides what is assigned to it. -/
theorem sweep_assignment_whole {name secret : List Char}
    (hname : ∀ c ∈ name, isNameChar c = true) (hword : names assignedWords name = true)
    (hsolid : IsSolidText (name ++ '=' :: secret)) (hsecret : secret ≠ []) :
    sweep assignment (name ++ '=' :: secret) = name ++ '=' :: mark := by
  have hfound : assignment none (name ++ '=' :: secret) = some ⟨name ++ ['='], secret, []⟩ :=
    (assignment_eq_some_iff_of_solid hsolid).mpr
      ⟨name, secret, rfl, ⟨hname, hword⟩, hsecret, rfl⟩
  have htext : name ++ '=' :: secret = Found.text ⟨name ++ ['='], secret, []⟩ ++ [] := by
    simp [Found.text]
  rw [sweep_hide assignment_looksAhead hfound htext]
  simp [Found.shown, sweep_nil]

/-- The value that is assigned to a name with a word for secrets is hidden whole: whatever other
rules find in it, the name with the mark is all that is left. -/
theorem assigned_secret_is_hidden {name value : String}
    (hname : IsMadeOf ['_'] name)
    (hword : Holds ["key", "token", "secret", "password", "passwd"] name)
    (hvalue : IsSecret value) :
    redact (name ++ "=" ++ value) = name ++ "=[REDACTED]" := by
  have hchars : ∀ c ∈ name.toList, isNameChar c = true :=
    hname.forall_mem
      (fun halphanum => by simp [isNameChar, isLetterOrDigit_of_isAlphanum halphanum]) (by decide)
  have hwords : names assignedWords name.toList = true :=
    names_of_holds hword (hname.fold_eq_toLower (by decide))
  have hnotin {c : Char} (hc : isNameChar c = false) : c ∉ name.toList :=
    not_mem_of_class hchars hc
  have hsign : IsSolidText ['='] := by decide
  have htext : IsSolidText (name.toList ++ '=' :: value.toList) :=
    (hname.isSolidText (by decide)).append (hsign.append hvalue.2)
  -- The sweep for addresses works behind the equals sign only.
  have haddress : sweep addressUser (name.toList ++ '=' :: value.toList) =
      name.toList ++ '=' :: sweep addressUser value.toList :=
    (addressUser_needs (by decide)).sweep_append addressUser_looksAhead (by decide)
      (hnotin (by decide)) _
  have hleft : sweep addressUser value.toList ≠ [] :=
    (sweeps addressUser_looksAhead _).ne_nil (by simpa using hvalue.1)
  have hsecret := sweep_assignment_whole hchars hwords
    (haddress ▸ htext.sweep addressUser_looksAhead) hleft
  have hmember : sweep member (name.toList ++ '=' :: mark) = name.toList ++ '=' :: mark := by
    refine (member_needs '@').sweep_eq_self member_looksAhead ?_
    simp only [List.mem_append, not_or]
    exact ⟨hnotin (by decide), by decide⟩
  have hline : (name ++ "=" ++ value).toList = name.toList ++ '=' :: value.toList := by simp
  rw [redact, hline, redactChars_of_solid htext, haddress, hsecret, hmember,
    sweep_databaseAddress_mark (hnotin (by decide))]
  apply String.toList_inj.mp
  simp
  rfl

/-- A value with an address, a quote, another assignment and the name of a scheme in it. -/
theorem assigned_secret_is_hidden_mixed :
    redact ("My_ToKeN2" ++ "=" ++ "=http://u:p@h\"key\":\"x\"Bearer:API_KEY=y") =
      "My_ToKeN2" ++ "=[REDACTED]" :=
  assigned_secret_is_hidden (by decide) ⟨"token", by decide⟩ (by decide)

end Stepwise.Redaction
