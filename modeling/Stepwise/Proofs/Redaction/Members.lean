import Stepwise.Proofs.Redaction.AssignedNames
import Stepwise.Proofs.Redaction.Assignments

/-!
# Secrets in members of an object

The object with one member, a key with a word for secrets and a text, is redacted to the object with
the mark in place of the text, if the text as it is written holds no quote and assigns no name once
addresses in it are hidden. A quote in a text is written behind a backslash, but the rule for members
takes it for the end of the text, so that the rest of it stays. A name that is assigned in the text
hides everything behind it, the end of the object too, and then there is no member to be found.
-/

namespace Stepwise.Redaction

open Text

/-! ## The text of the object -/

/-- The object with one member, without white space. -/
def memberText (key secret : String) : String :=
  (Json.obj [(key, .str secret)]).compact

/-- A text as it is written between quotes. -/
def written (secret : String) : List Char :=
  secret.toList.flatMap Json.escapeChar

/-- What stands in front of the text of a member. -/
def opening (key : List Char) : List Char :=
  '\x7b' :: '"' :: (key ++ ['"', ':', '"'])

/-- What stands behind it. -/
def closing : List Char := ['"', '\x7d']

/-- A key is made of ASCII letters, digits, underscores, points and hyphens. -/
def IsKey (key : String) : Prop := IsMadeOf ['_', '.', '-'] key

instance (key : String) : Decidable (IsKey key) :=
  inferInstanceAs (Decidable (IsMadeOf _ key))

variable {key secret : String}

namespace IsKey

theorem isKeyChar (h : IsKey key) : ∀ c ∈ key.toList, isKeyChar c = true :=
  IsMadeOf.forall_mem h
    (fun halphanum => by simp [Redaction.isKeyChar, isLetterOrDigit_of_isAlphanum halphanum])
    (by decide)

theorem not_mem (h : IsKey key) {c : Char} (hc : Redaction.isKeyChar c = false) : c ∉ key.toList :=
  not_mem_of_class h.isKeyChar hc

theorem isSolidText (h : IsKey key) : IsSolidText key.toList :=
  IsMadeOf.isSolidText h (by decide)

/-- A key is written as it is. -/
theorem written_eq (h : IsKey key) : written key = key.toList := by
  have halphanum {c : Char} (hc : c.isAlphanum = true) : Json.escapeChar c = [c] :=
    of_ascii (P := fun c => c.isAlphanum = true → Json.escapeChar c = [c]) (by decide +kernel)
      (toNat_lt_of_isAlphanum hc) hc
  have hself := IsMadeOf.forall_mem h halphanum (by decide)
  rw [written, List.flatMap_congr hself, List.flatMap_singleton']

end IsKey

theorem toList_memberText (h : IsKey key) (secret : String) :
    (memberText key secret).toList = opening key.toList ++ (written secret ++ closing) := by
  have hkey := h.written_eq
  rw [written] at hkey
  simp [memberText, Json.compact, Json.compactMembers, Json.quoted, opening, closing, written, hkey]

theorem isSolidText_written (h : IsSolidText secret.toList) : IsSolidText (written secret) := by
  intro d hd
  obtain ⟨c, hc, hd⟩ := List.mem_flatMap.mp hd
  have hsolid : isBlank c = false → IsSolidText (Json.escapeChar c) :=
    escapeChar_induction (P := fun c written => isBlank c = false → IsSolidText written)
      (fun c hc => by simpa [IsSolidText, isSolid] using hc) (by decide +kernel) c
  exact hsolid (h.not_isBlank hc) d hd

theorem quote_not_mem_written (h : '"' ∉ secret.toList) : '"' ∉ written secret := by
  intro hmem
  obtain ⟨c, hc, hd⟩ := List.mem_flatMap.mp hmem
  have hplain : c ≠ '"' → '"' ∉ Json.escapeChar c :=
    escapeChar_induction (P := fun c written => c ≠ '"' → '"' ∉ written)
      (fun c hc => by simpa using Ne.symm hc) (by decide +kernel) c
  exact hplain (fun heq => h (heq ▸ hc)) hd

/-- A text that is not empty begins with no quote where it is written. -/
theorem exists_written_eq_cons (h : secret ≠ "") :
    ∃ c rest, written secret = c :: rest ∧ c ≠ '"' := by
  obtain ⟨c, cs, hcs⟩ := List.exists_cons_of_ne_nil (l := secret.toList) (by simpa using h)
  have hfirst : c ≠ '"' → (Json.escapeChar c).head?.any (· != '"') = true :=
    escapeChar_induction (P := fun c written => c ≠ '"' → written.head?.any (· != '"') = true)
      (fun c hc => by simpa using hc) (by decide +kernel) c
  have hhead : (Json.escapeChar c).head?.any (· != '"') = true := by
    by_cases hc : c = '"'
    · subst hc
      rfl
    · exact hfirst hc
  obtain ⟨d, hd, hne⟩ := (Option.any_eq_true _ _).mp hhead
  obtain ⟨rest, hrest⟩ := List.head?_eq_some_iff.mp hd
  exact ⟨d, rest ++ cs.flatMap Json.escapeChar, by simp [written, hcs, hrest], by simpa using hne⟩

/-! ## The sweep for addresses -/

/-- An address ends with an at sign, so what is behind a text without one makes no difference. -/
theorem addressUser_append (xs : List Char) {ys : List Char} (hys : '@' ∉ ys) :
    addressUser none (xs ++ ys) = addressUser none xs := by
  ext f
  rw [addressUser_eq_some_iff, addressUser_eq_some_iff]
  constructor
  · rintro ⟨scheme, user, password, rest, hsplit, hparts⟩
    have hat : xs ++ ys =
        scheme ++ (slashes ++ (user ++ ':' :: password)) ++ '@' :: rest := by
      rw [hsplit]
      simp [address]
    obtain ⟨mid, rfl, -⟩ := split_front hys hat
    exact ⟨scheme, user, password, mid, by simp [address], hparts⟩
  · rintro ⟨scheme, user, password, rest, rfl, hparts⟩
    exact ⟨scheme, user, password, rest ++ ys, by simp [address], hparts⟩

theorem Sweeps.append {cs out ys : List Char} (h : Sweeps addressUser cs out) (hys : '@' ∉ ys) :
    sweep addressUser (cs ++ ys) = out ++ ys := by
  induction h with
  | done =>
      refine sweep_eq_self fun before s hs => ?_
      exact addressUser_append [] fun hmem => hys (hs.mem hmem)
  | pass hnone hrest ih =>
      rw [← addressUser_append _ hys] at hnone
      exact (sweep_pass addressUser_looksAhead hnone).trans (congrArg (_ :: ·) ih)
  | hide hsecret hfound hrest ih =>
      rw [← addressUser_append _ hys] at hfound
      rw [sweep_hide addressUser_looksAhead hfound (List.append_assoc _ _ _), ih,
        List.append_assoc]

/-- The first character is never hidden with an address. -/
theorem Sweeps.head?_eq {cs out : List Char} (h : Sweeps addressUser cs out) :
    out.head? = cs.head? := by
  cases h with
  | done => rfl
  | pass hnone hrest => rfl
  | hide hsecret hfound hrest =>
      obtain ⟨scheme, user, password, rest, -, ⟨⟨c, hc, -⟩, -⟩, -, -, rfl⟩ :=
        addressUser_eq_some_iff.mp hfound
      obtain ⟨behind, rfl⟩ := List.head?_eq_some_iff.mp hc
      rfl

/-- What is left of a text, as it is written, when the addresses in it are hidden. -/
def withoutAddresses (secret : String) : List Char :=
  sweep addressUser (written secret)

theorem sweep_addressUser_opening (h : IsKey key) (cs : List Char) :
    sweep addressUser (opening key.toList ++ cs) = opening key.toList ++ sweep addressUser cs := by
  have hquote (xs : List Char) (hxs : ':' ∉ xs) (ys : List Char) :
      sweep addressUser (xs ++ '"' :: ys) = xs ++ '"' :: sweep addressUser ys :=
    (addressUser_needs (by decide)).sweep_append addressUser_looksAhead (by decide) hxs ys
  have hcolon (ys : List Char) :
      sweep addressUser (':' :: '"' :: ys) = ':' :: '"' :: sweep addressUser ys :=
    (sweep_pass addressUser_looksAhead (addressUser_of_not_isLetter (by decide) _)).trans
      (congrArg (':' :: ·) (hquote [] (by decide) ys))
  have hopening (ys : List Char) :
      opening key.toList ++ ys = ['\x7b'] ++ '"' :: (key.toList ++ '"' :: ':' :: '"' :: ys) := by
    simp [opening]
  rw [hopening, hopening, hquote ['\x7b'] (by decide), hquote _ (h.not_mem (by decide)), hcolon]

theorem sweep_address_memberText (h : IsKey key) (secret : String) :
    sweep addressUser (memberText key secret).toList =
      opening key.toList ++ (withoutAddresses secret ++ closing) := by
  rw [toList_memberText h, sweep_addressUser_opening h,
    (sweeps addressUser_looksAhead _).append (by decide), withoutAddresses]

/-! ## The sweep for assignments -/

theorem sweep_assignment_opening (h : IsKey key) (cs : List Char) :
    sweep assignment (opening key.toList ++ cs) = opening key.toList ++ sweep assignment cs := by
  have hfront : '=' ∉ '\x7b' :: '"' :: (key.toList ++ ['"', ':']) := by
    simpa using h.not_mem (c := '=') (by decide)
  have hopening (ys : List Char) :
      opening key.toList ++ ys = '\x7b' :: '"' :: (key.toList ++ ['"', ':']) ++ '"' :: ys := by
    simp [opening]
  rw [hopening, hopening, (assignment_needs (by decide) (by decide)).sweep_append
    assignment_looksAhead (by decide) hfront]

/-! ## The sweep for members -/

/-- The text of a member is hidden up to its first quote. -/
theorem sweep_member_opening (h : IsKey key) (hword : Holds memberWords key) {front : List Char}
    (hne : front ≠ []) (hfront : '"' ∉ front) (back : List Char) :
    sweep member (opening key.toList ++ (front ++ '"' :: back)) =
      opening key.toList ++ (mark ++ '"' :: sweep member back) := by
  have hwords : names memberWords key.toList = true :=
    names_of_holds hword (IsMadeOf.fold_eq_toLower h (by decide))
  have hfound : member none ('"' :: (key.toList ++ '"' :: ':' :: '"' :: (front ++ '"' :: back))) =
      some ⟨'"' :: (key.toList ++ ['"', ':', '"']), front, ['"']⟩ :=
    member_eq_some_iff.mpr ⟨key.toList, [], [], front, back, rfl, ⟨h.isKeyChar, hwords⟩, by simp,
      by simp, ⟨hne, hfront⟩, rfl⟩
  have htext : '"' :: (key.toList ++ '"' :: ':' :: '"' :: (front ++ '"' :: back)) =
      Found.text ⟨'"' :: (key.toList ++ ['"', ':', '"']), front, ['"']⟩ ++ back := by
    simp [Found.text]
  have hopening : opening key.toList ++ (front ++ '"' :: back) = [] ++ '\x7b' ::
      ('"' :: (key.toList ++ '"' :: ':' :: '"' :: (front ++ '"' :: back))) := by
    simp [opening]
  rw [hopening, (member_needs '\x7b').sweep_append member_looksAhead (by decide) (by decide),
    sweep_hide member_looksAhead hfound htext]
  simp [Found.shown, opening]

namespace Sweeps

variable {cs out : List Char}

/-- The sweep for members keeps every quote. -/
theorem count_quote (h : Sweeps member cs out) : out.count '"' = cs.count '"' := by
  induction h with
  | done => rfl
  | pass hnone hrest ih => rw [List.count_cons, List.count_cons, ih]
  | hide hsecret hfound hrest ih =>
      obtain ⟨key, gap, space, secret, rest, -, -, -, -, ⟨-, hplain⟩, rfl⟩ :=
        member_eq_some_iff.mp hfound
      have hmark : mark.count '"' = 0 := by decide
      have hcount : secret.count '"' = 0 := List.count_eq_zero.mpr hplain
      simp only [Found.text, Found.shown, List.count_append, ih, hmark, hcount, Nat.add_zero,
        Nat.zero_add]

/-- The sweep for members keeps the last character, if it is no quote. -/
theorem getLast?_eq {c : Char} (h : Sweeps member cs out) (hc : c ≠ '"')
    (hlast : cs.getLast? = some c) : out.getLast? = some c := by
  induction h with
  | done => exact hlast
  | @pass d cs out hnone hrest ih =>
      cases cs with
      | nil =>
          rw [hrest.eq_nil]
          exact hlast
      | cons e cs =>
          rw [List.getLast?_cons_cons] at hlast
          rw [List.getLast?_cons, ih hlast]
          rfl
  | @hide f cs out hsecret hfound hrest ih =>
      obtain ⟨key, gap, space, secret, rest, -, -, -, -, -, rfl⟩ := member_eq_some_iff.mp hfound
      cases cs with
      | nil =>
          simp only [Found.text, List.append_nil, List.getLast?_append, List.getLast?_singleton,
            Option.some_or] at hlast
          exact absurd (Option.some.inj hlast).symm hc
      | cons d cs =>
          rw [List.getLast?_append, List.getLast?_cons, Option.some_or, ← List.getLast?_cons] at hlast
          rw [List.getLast?_append, ih hlast, Option.some_or]

end Sweeps

/-! ## The whole redaction -/

/-- A text that the sweeps for assignments and members hide whole. -/
def IsUnbroken (cs : List Char) : Prop := '"' ∉ cs ∧ ¬Assigns cs

theorem toList_memberText_mark (h : IsKey key) :
    (memberText key "[REDACTED]").toList = opening key.toList ++ (mark ++ closing) := by
  rw [toList_memberText h]
  rfl

theorem isSolidText_memberText (h : IsKey key) (hsecret : IsSecret secret) :
    IsSolidText (memberText key secret).toList := by
  have hstart : IsSolidText ['\x7b', '"'] := by decide
  have hopening : IsSolidText (opening key.toList) :=
    hstart.append (h.isSolidText.append (by decide))
  rw [toList_memberText h]
  exact hopening.append ((isSolidText_written hsecret.2).append (by decide))

theorem isSolidText_withoutAddresses (hsecret : IsSecret secret) :
    IsSolidText (withoutAddresses secret ++ closing) :=
  IsSolidText.append ((isSolidText_written hsecret.2).sweep addressUser_looksAhead)
    (by decide)

/-- What is left of the text of a member is not empty and begins with no quote. -/
theorem exists_withoutAddresses_eq_cons (h : secret ≠ "") :
    ∃ c rest, withoutAddresses secret = c :: rest ∧ c ≠ '"' := by
  obtain ⟨c, rest, hwritten, hc⟩ := exists_written_eq_cons h
  have hhead := (sweeps addressUser_looksAhead (written secret)).head?_eq
  rw [hwritten, List.head?_cons, ← hwritten] at hhead
  obtain ⟨behind, hbehind⟩ := List.head?_eq_some_iff.mp hhead
  exact ⟨c, behind, hbehind, hc⟩

theorem redactChars_memberText (h : IsKey key) (hsecret : IsSecret secret) :
    redactChars (memberText key secret).toList =
      sweep databaseAddress (sweep member (opening key.toList ++
        sweep assignment (withoutAddresses secret ++ closing))) := by
  rw [redactChars_of_solid (isSolidText_memberText h hsecret), sweep_address_memberText h,
    sweep_assignment_opening h]

/-- Without quotes and assigned names the text of a member is hidden whole. -/
theorem redactChars_of_isUnbroken (h : IsKey key) (hword : Holds memberWords key)
    (hsecret : IsSecret secret) (hplain : IsUnbroken (withoutAddresses secret)) :
    redactChars (memberText key secret).toList = opening key.toList ++ (mark ++ closing) := by
  have hassignment : sweep assignment (withoutAddresses secret ++ closing) =
      withoutAddresses secret ++ closing := by
    refine sweep_eq_self fun before s hs => ?_
    rw [assignment_looksAhead.blind]
    by_cases hne : s = []
    · subst hne
      rfl
    · exact (assignment_none_iff (isSolidText_withoutAddresses hsecret) (by decide)
        (by decide)).mpr hplain.2 s hs hne
  obtain ⟨c, rest, hcons, -⟩ := exists_withoutAddresses_eq_cons hsecret.1
  have hne : withoutAddresses secret ≠ [] := by simp [hcons]
  have hmember := sweep_member_opening h hword hne hplain.1 ['\x7d']
  have hend : sweep member ['\x7d'] = ['\x7d'] :=
    (member_needs '@').sweep_eq_self member_looksAhead (by decide)
  rw [hend] at hmember
  have hequals : '=' ∉ opening key.toList ++ (mark ++ closing) := by
    have hkey := h.not_mem (c := '=') (by decide)
    have hmark : '=' ∉ mark := by decide
    simp [opening, closing, hkey, hmark]
  rw [redactChars_memberText h hsecret, hassignment]
  exact (congrArg (sweep databaseAddress) hmember).trans
    ((databaseAddress_needs '@' (by decide)).sweep_eq_self databaseAddress_looksAhead hequals)

theorem getLast?_append_mark (front : List Char) : (front ++ mark).getLast? = some ']' := by
  rw [List.getLast?_append]
  rfl

/-- Where the sweep for members leaves the object with the mark there was no quote in the text. -/
theorem quote_not_mem_of_hidden {key text : List Char}
    (h : sweep member (opening key ++ (text ++ closing)) = opening key ++ (mark ++ closing)) :
    '"' ∉ text := by
  have hcount := (sweeps member_looksAhead (opening key ++ (text ++ closing))).count_quote
  have hmark : mark.count '"' = 0 := by decide
  rw [h] at hcount
  simp only [List.count_append, hmark] at hcount
  exact List.count_eq_zero.mp (by omega)

/-- A quote that is left, or an assigned name, leaves something else: the quote is one too many, or
the end of the object is hidden. -/
theorem redactChars_of_not_isUnbroken (h : IsKey key) (hsecret : IsSecret secret)
    (hplain : ¬IsUnbroken (withoutAddresses secret)) :
    redactChars (memberText key secret).toList ≠ opening key.toList ++ (mark ++ closing) := by
  intro hhidden
  have hsolid := isSolidText_withoutAddresses hsecret
  have hline : IsSolidText (opening key.toList ++
      sweep assignment (withoutAddresses secret ++ closing)) := by
    rw [← sweep_assignment_opening h, ← sweep_address_memberText h]
    exact ((isSolidText_memberText h hsecret).sweep addressUser_looksAhead).sweep
      assignment_looksAhead
  -- The object ends with its brace, and a hidden end of the text with the bracket of the mark.
  have hend : (opening key.toList ++ (mark ++ closing)).getLast? = some '\x7d' := by
    simp [closing]
  rw [redactChars_memberText h hsecret] at hhidden
  rcases databaseAddress_hidesRest.sweeps_cases (sweeps databaseAddress_looksAhead _)
    (hline.sweep member_looksAhead) with ⟨hself, -⟩ | ⟨front, hfront⟩
  · rw [hself] at hhidden
    rcases assignment_hidesRest.sweeps_cases (sweeps assignment_looksAhead _) hsolid with
      ⟨hkept, hnothing⟩ | ⟨front, hfront⟩
    · rw [hkept] at hhidden
      exact hplain ⟨quote_not_mem_of_hidden hhidden,
        (assignment_none_iff hsolid (by decide) (by decide)).mp hnothing⟩
    · rw [hfront, ← List.append_assoc] at hhidden
      have hlast := (sweeps member_looksAhead (opening key.toList ++ front ++ mark)).getLast?_eq
        (by decide) (getLast?_append_mark _)
      rw [hhidden, hend] at hlast
      exact absurd (Option.some.inj hlast) (by decide)
  · have hlast := getLast?_append_mark front
    rw [← hfront, hhidden, hend] at hlast
    exact absurd (Option.some.inj hlast) (by decide)

/-- A text without quotes in which no name is assigned is unbroken as it is written. -/
theorem isUnbroken_withoutAddresses (hsecret : IsSecret secret)
    (hplain : IsUnbroken secret.toList) : IsUnbroken (withoutAddresses secret) := by
  have hsweep := sweeps addressUser_looksAhead (written secret)
  constructor
  · intro hmem
    rcases hsweep.mem hmem with hwritten | hmark
    · exact quote_not_mem_written hplain.1 hwritten
    · exact absurd hmark (by decide)
  · intro hassigns
    have hwritten : Assigns (written secret) := Assigns.of_sweeps hsweep [] hassigns
    exact hplain.2 (Assigns.of_escaped hsecret.2 [] hwritten)

/-- What is left of the object with one member, a key with a word for secrets and a text without
white space. Texts without quotes in which no name with such a word is assigned leave one and the
same object, the one with the mark as its text. Exactly for these is this so, where quotes and names
are looked for in the text as it is written, without the addresses in it: every other text leaves
something else. -/
theorem member_texts_alike (hkey : IsKey key)
    (hword : Holds ["key", "token", "secret", "password"] key) :
    (∀ s t, IsSecret s → IsSecret t → IsUnbroken s.toList → IsUnbroken t.toList →
      redact (memberText key s) = redact (memberText key t)) ∧
    ∀ s, IsSecret s → (redact (memberText key s) = memberText key "[REDACTED]" ↔
      IsUnbroken (withoutAddresses s)) := by
  have hhidden (s : String) : redact (memberText key s) = memberText key "[REDACTED]" ↔
      redactChars (memberText key s).toList = opening key.toList ++ (mark ++ closing) := by
    rw [← String.toList_inj, redact, String.toList_ofList, toList_memberText_mark hkey]
  constructor
  · intro s t hs ht hplain hplain'
    have hleft := redactChars_of_isUnbroken hkey hword hs (isUnbroken_withoutAddresses hs hplain)
    have hright := redactChars_of_isUnbroken hkey hword ht (isUnbroken_withoutAddresses ht hplain')
    rw [(hhidden s).mpr hleft, (hhidden t).mpr hright]
  · intro s hs
    rw [hhidden]
    refine ⟨fun hleft => ?_, redactChars_of_isUnbroken hkey hword hs⟩
    by_contra hplain
    exact redactChars_of_not_isUnbroken hkey hs hplain hleft

/-- A quote in the name of a user is hidden with the address. -/
theorem member_texts_alike_of_address :
    let s := "http://a\"b:c@h"
    let t := "\\u0022\x01"
    redact (memberText "api.Key" s) = memberText "api.Key" "[REDACTED]" ∧
      redact (memberText "api.Key" t) = redact (memberText "api.Key" "x") := by
  have hkey : IsKey "api.Key" := by decide
  have hword : Holds ["key", "token", "secret", "password"] "api.Key" := ⟨"key", by decide⟩
  have hs : IsSecret "http://a\"b:c@h" := by decide
  have ht : IsSecret "\\u0022\x01" := by decide
  have hx : IsSecret "x" := by decide
  have hunbroken {cs : List Char} (hquote : '"' ∉ cs) (hequals : '=' ∉ cs) : IsUnbroken cs :=
    ⟨hquote, fun hassigns => hequals hassigns.mem⟩
  obtain ⟨halike, hhidden⟩ := member_texts_alike hkey hword
  exact ⟨(hhidden _ hs).mpr (hunbroken (by decide +kernel) (by decide +kernel)),
    halike _ _ ht hx (hunbroken (by decide) (by decide)) (hunbroken (by decide) (by decide))⟩

/-- A quote in the text ends what is hidden. -/
theorem rest_behind_quote_stays :
    IsKey "api_key" ∧ Holds ["key", "token", "secret", "password"] "api_key" ∧
      IsSecret "a\"b" ∧ IsSecret "a" ∧
      redact (memberText "api_key" "a\"b") = "\x7b\"api_key\":\"[REDACTED]\"b\"\x7d" ∧
      redact (memberText "api_key" "a\"b") ≠ redact (memberText "api_key" "a") :=
  ⟨by decide, ⟨"key", by decide⟩, by decide, by decide, by decide +kernel, by decide +kernel⟩

end Stepwise.Redaction
