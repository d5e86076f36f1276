import Stepwise.Proofs.Redaction.Assignments

/-!
# Passwords in addresses

In the address of a user the password is hidden together with the user's name, so that texts that
differ in the password alone are redacted to one text. The rule asks for a name of at least one
character. Where it is empty nothing hides the password: the text is redacted as if it were any other.
-/

namespace Stepwise.Redaction

open Text

/-! ## Parts of an address -/

/-- An ASCII letter, and then letters, digits, plus signs, points and hyphens. -/
def IsSchemeName (scheme : String) : Prop :=
  (∃ c ∈ scheme.toList.head?, c.isAlpha = true) ∧ IsMadeOf ['+', '.', '-'] scheme

/-- A name of a user, which may be empty. -/
def IsUser (user : String) : Prop :=
  IsSolidText user.toList ∧ '/' ∉ user.toList ∧ '@' ∉ user.toList ∧ ':' ∉ user.toList

def IsPassword (password : String) : Prop :=
  IsSecret password ∧ '/' ∉ password.toList ∧ '@' ∉ password.toList

instance (scheme : String) : Decidable (IsSchemeName scheme) :=
  @instDecidableAnd _ _ (Option.decidableExistsMem _) inferInstance

instance (user : String) : Decidable (IsUser user) :=
  inferInstanceAs (Decidable (_ ∧ _))

instance (password : String) : Decidable (IsPassword password) :=
  inferInstanceAs (Decidable (_ ∧ _))

/-- The text of an address with a user and a password in front of the host. -/
def addressText (scheme user password rest : String) : String :=
  scheme ++ "://" ++ user ++ ":" ++ password ++ "@" ++ rest

theorem toList_addressText (scheme user password rest : String) :
    (addressText scheme user password rest).toList =
      address scheme.toList user.toList password.toList rest.toList := by
  simp [addressText, address, slashes]

variable {scheme user password rest : String}

namespace IsSchemeName

theorem isSchemeChar (h : IsSchemeName scheme) : ∀ c ∈ scheme.toList, isSchemeChar c = true :=
  h.2.forall_mem
    (fun halphanum => by simp [Redaction.isSchemeChar, isLetterOrDigit_of_isAlphanum halphanum])
    (by decide)

theorem isScheme (h : IsSchemeName scheme) : IsScheme scheme.toList := by
  obtain ⟨c, hc, hletter⟩ := h.1
  exact ⟨⟨c, hc, isLetter_of_isAlpha hletter⟩, h.isSchemeChar⟩

theorem not_mem (h : IsSchemeName scheme) {c : Char} (hc : Redaction.isSchemeChar c = false) :
    c ∉ scheme.toList :=
  not_mem_of_class h.isSchemeChar hc

end IsSchemeName

theorem IsUser.isUserChar (h : IsUser user) : ∀ c ∈ user.toList, isUserChar c = true := by
  intro c hc
  obtain ⟨hsolid, hslash, hat, hcolon⟩ := h
  simp [Redaction.isUserChar, hsolid c hc, ne_of_mem_of_not_mem hc hslash,
    ne_of_mem_of_not_mem hc hat, ne_of_mem_of_not_mem hc hcolon]

theorem IsPassword.isPasswordChar (h : IsPassword password) :
    ∀ c ∈ password.toList, isPasswordChar c = true := by
  intro c hc
  obtain ⟨⟨-, hsolid⟩, hslash, hat⟩ := h
  simp [Redaction.isPasswordChar, hsolid c hc, ne_of_mem_of_not_mem hc hslash,
    ne_of_mem_of_not_mem hc hat]

/-! ## The sweep for addresses -/

/-- Behind a scheme the user and the password are hidden. -/
theorem sweep_address {scheme user password : List Char} (hscheme : IsScheme scheme)
    (huser : user ≠ [] ∧ ∀ c ∈ user, isUserChar c = true)
    (hpassword : password ≠ [] ∧ ∀ c ∈ password, isPasswordChar c = true) (rest : List Char) :
    sweep addressUser (address scheme user password rest) =
      scheme ++ slashes ++ mark ++ '@' :: sweep addressUser rest := by
  have hfound : addressUser none (address scheme user password rest) =
      some ⟨scheme ++ slashes, user ++ ':' :: password, ['@']⟩ :=
    addressUser_eq_some_iff.mpr ⟨scheme, user, password, rest, rfl, hscheme, huser, hpassword, rfl⟩
  have htext : address scheme user password rest =
      Found.text ⟨scheme ++ slashes, user ++ ':' :: password, ['@']⟩ ++ rest := by
    simp [Found.text, address]
  rw [sweep_hide addressUser_looksAhead hfound htext]
  simp [Found.shown]

/-- An address needs a slash, and only a scheme and a colon come before it. -/
theorem addressUser_needs_slash {stop : Char} (hstop : isSchemeChar stop = false)
    (hcolon : stop ≠ ':') : Needs addressUser '/' stop := by
  intro cs f h
  obtain ⟨scheme, user, password, rest, rfl, ⟨-, hchars⟩, -⟩ := addressUser_eq_some_iff.mp h
  refine ⟨scheme ++ [':'], '/' :: (user ++ ':' :: (password ++ '@' :: rest)),
    by simp [address, slashes], ?_⟩
  rw [List.mem_append, not_or]
  exact ⟨not_mem_of_class hchars hstop, by simpa using hcolon⟩

/-- A scheme with slashes and a colon behind it is no start of an address: the user is missing. -/
theorem addressUser_without_user {scheme : List Char} (hscheme : ':' ∉ scheme) (cs : List Char) :
    addressUser none (scheme ++ (slashes ++ ':' :: cs)) = none := by
  cases hfound : addressUser none (scheme ++ (slashes ++ ':' :: cs)) with
  | none => rfl
  | some f =>
      obtain ⟨scheme', user, password, rest, hsplit, ⟨-, hchars⟩, ⟨huser, hnamed⟩, -⟩ :=
        addressUser_eq_some_iff.mp hfound
      have hscheme' : ':' ∉ scheme' := not_mem_of_class hchars (by decide)
      obtain ⟨-, hbehind⟩ := eq_of_first_eq hscheme hscheme' hsplit
      obtain ⟨c, user, rfl⟩ := List.exists_cons_of_ne_nil huser
      have hcolon := (List.cons.inj (List.cons.inj (List.cons.inj hbehind).2).2).1
      rw [← hcolon] at hnamed
      exact absurd (hnamed ':' List.mem_cons_self) (by decide)

/-- Without a user the sweep leaves the password where it is. -/
theorem sweep_address_without_user {scheme password : List Char} (hscheme : ':' ∉ scheme)
    (hpassword : '/' ∉ password) (rest : List Char) :
    sweep addressUser (address scheme [] password rest) =
      scheme ++ (slashes ++ (':' :: password ++ '@' :: sweep addressUser rest)) := by
  have hbehind : sweep addressUser (':' :: password ++ '@' :: rest) =
      ':' :: password ++ '@' :: sweep addressUser rest :=
    (addressUser_needs_slash (by decide) (by decide)).sweep_append addressUser_looksAhead
      (by decide) (by simpa using hpassword) rest
  induction scheme with
  | nil =>
      have hpass {c : Char} (hc : isLetter c = false) (cs : List Char) :
          sweep addressUser (c :: cs) = c :: sweep addressUser cs :=
        sweep_pass addressUser_looksAhead (addressUser_of_not_isLetter hc cs)
      have hslashes (cs : List Char) :
          sweep addressUser (slashes ++ cs) = slashes ++ sweep addressUser cs :=
        (hpass (by decide) _).trans (congrArg (':' :: ·)
          ((hpass (by decide) _).trans (congrArg ('/' :: ·) (hpass (by decide) cs))))
      exact (hslashes _).trans (congrArg (slashes ++ ·) hbehind)
  | cons c scheme ih =>
      have hrest := ih fun hmem => hscheme (List.mem_cons_of_mem c hmem)
      exact (sweep_pass addressUser_looksAhead (addressUser_without_user hscheme _)).trans
        (congrArg (c :: ·) hrest)

/-! ## The sweeps after it -/

/-- What the sweeps leave that follow the one for addresses. -/
def laterSweeps (cs : List Char) : List Char :=
  sweep databaseAddress (sweep member (sweep assignment cs))

/-- In front of an at sign they need an equals sign or a quote. -/
theorem laterSweeps_append {xs : List Char} (hequals : '=' ∉ xs) (hquote : '"' ∉ xs)
    (ys : List Char) : laterSweeps (xs ++ '@' :: ys) = xs ++ '@' :: laterSweeps ys := by
  rw [laterSweeps,
    (assignment_needs (by decide) (by decide)).sweep_append assignment_looksAhead (by decide)
      hequals,
    (member_needs '@').sweep_append member_looksAhead (by decide) hquote,
    (databaseAddress_needs '@' (by decide)).sweep_append databaseAddress_looksAhead (by decide)
      hequals]
  rfl

/-- What is left of the part of the text that is behind an address. -/
def behindAddress (rest : String) : String :=
  String.ofList (laterSweeps (sweep addressUser rest.toList))

theorem isSolidText_address (hscheme : IsSchemeName scheme) (huser : IsUser user)
    (hpassword : IsPassword password) (hrest : IsSolidText rest.toList) :
    IsSolidText (address scheme.toList user.toList password.toList rest.toList) := by
  have hsolid := hscheme.2.isSolidText (by decide)
  have hslashes : IsSolidText slashes := by decide
  have hcolon : IsSolidText [':'] := by decide
  have hat : IsSolidText ['@'] := by decide
  exact hsolid.append (hslashes.append (huser.1.append (hcolon.append
    (hpassword.1.2.append (hat.append hrest)))))

/-- With a user the mark takes the place of the user and the password. -/
theorem redact_address (hscheme : IsSchemeName scheme) (huser : IsUser user) (hne : user ≠ "")
    (hpassword : IsPassword password) (hrest : IsSolidText rest.toList) :
    redact (addressText scheme user password rest) =
      scheme ++ "://[REDACTED]@" ++ behindAddress rest := by
  have hnamed : user.toList ≠ [] := by simpa using hne
  have hsecret : password.toList ≠ [] := by simpa using hpassword.1.1
  have hsweep := sweep_address hscheme.isScheme ⟨hnamed, huser.isUserChar⟩
    ⟨hsecret, hpassword.isPasswordChar⟩ rest.toList
  have hfront {c : Char} (hc : isSchemeChar c = false) (hother : c ∉ slashes ++ mark) :
      c ∉ scheme.toList ++ slashes ++ mark := by
    rw [List.append_assoc, List.mem_append, not_or]
    exact ⟨hscheme.not_mem hc, hother⟩
  have hlater := laterSweeps_append (hfront (c := '=') (by decide) (by decide))
    (hfront (c := '"') (by decide) (by decide)) (sweep addressUser rest.toList)
  rw [redact, toList_addressText,
    redactChars_of_solid (isSolidText_address hscheme huser hpassword hrest), hsweep,
    ← laterSweeps, hlater]
  apply String.toList_inj.mp
  simp [behindAddress, slashes]
  rfl

/-- Without a user the password stays. -/
theorem redact_address_without_user (hscheme : IsSchemeName scheme)
    (hpassword : IsPassword password) (hequals : '=' ∉ password.toList)
    (hquote : '"' ∉ password.toList) (hrest : IsSolidText rest.toList) :
    redact (addressText scheme "" password rest) =
      scheme ++ "://:" ++ password ++ "@" ++ behindAddress rest := by
  have hsweep := sweep_address_without_user (hscheme.not_mem (c := ':') (by decide)) hpassword.2.1
    rest.toList
  have hfront {c : Char} (hc : isSchemeChar c = false) (hslashes : c ∉ slashes ++ [':'])
      (hother : c ∉ password.toList) :
      c ∉ scheme.toList ++ (slashes ++ ':' :: password.toList) := by
    have hsign : c ∉ slashes ++ ':' :: password.toList := by
      rw [List.append_cons, List.mem_append, not_or]
      exact ⟨hslashes, hother⟩
    rw [List.mem_append, not_or]
    exact ⟨hscheme.not_mem hc, hsign⟩
  have hlater := laterSweeps_append (hfront (c := '=') (by decide) (by decide) hequals)
    (hfront (c := '"') (by decide) (by decide) hquote) (sweep addressUser rest.toList)
  have hempty : IsUser "" := by decide
  have htext : scheme.toList ++ (slashes ++ (':' :: password.toList ++
        '@' :: sweep addressUser rest.toList)) =
      scheme.toList ++ (slashes ++ ':' :: password.toList) ++
        '@' :: sweep addressUser rest.toList := by simp
  rw [redact, toList_addressText,
    redactChars_of_solid (isSolidText_address hscheme hempty hpassword hrest),
    show "".toList = [] from rfl, hsweep, htext, ← laterSweeps, hlater]
  apply String.toList_inj.mp
  simp [behindAddress, slashes]

/-- Behind a scheme and a user the password is hidden, whatever it is: texts that differ in nothing
else are redacted to one text, in which the mark stands for the user and the password. This is so
exactly when the user has a name. Without one a password, unless an equals sign or a quote in it
lets another rule find something, stands in the redacted text as it is. -/
theorem passwords_alike_iff_user (hscheme : IsSchemeName scheme) (huser : IsUser user)
    (hrest : IsSolidText rest.toList) :
    ((∀ p q, IsPassword p → IsPassword q →
        redact (addressText scheme user p rest) = redact (addressText scheme user q rest)) ↔
      user ≠ "") ∧
    (user ≠ "" → ∀ p, IsPassword p → redact (addressText scheme user p rest) =
      scheme ++ "://[REDACTED]@" ++ behindAddress rest) ∧
    (user = "" → ∀ p, IsPassword p → '=' ∉ p.toList → '"' ∉ p.toList →
      redact (addressText scheme user p rest) =
        scheme ++ "://:" ++ p ++ "@" ++ behindAddress rest) := by
  refine ⟨⟨?_, ?_⟩, ?_, ?_⟩
  · rintro halike rfl
    have ha : IsPassword "a" := by decide
    have hb : IsPassword "b" := by decide
    have hequal := halike "a" "b" ha hb
    rw [redact_address_without_user hscheme ha (by decide) (by decide) hrest,
      redact_address_without_user hscheme hb (by decide) (by decide) hrest] at hequal
    have hchars := congrArg String.toList hequal
    simp at hchars
  · intro hne p q hp hq
    rw [redact_address hscheme huser hne hp hrest, redact_address hscheme huser hne hq hrest]
  · intro hne p hp
    exact redact_address hscheme huser hne hp hrest
  · rintro rfl p hp hequals hquote
    exact redact_address_without_user hscheme hp hequals hquote hrest

/-- An address with a user, and with a password and a rest in which other rules find something. -/
theorem passwords_alike_of_mailer :
    let rest := "mail.example.com/?token=abc"
    redact (addressText "smtp" "mailer" "hunter2" rest) =
      redact (addressText "smtp" "mailer" "k:\"key=http:" rest) := by
  have hscheme : IsSchemeName "smtp" := by decide
  have huser : IsUser "mailer" := by decide
  have hshort : IsPassword "hunter2" := by decide
  have hodd : IsPassword "k:\"key=http:" := by decide
  exact (passwords_alike_iff_user hscheme huser (by decide)).1.mpr (by decide) _ _ hshort hodd

/-- Without a user the two passwords are left, and the texts differ. -/
theorem password_without_user_stays :
    IsSchemeName "redis" ∧ IsUser "" ∧ IsPassword "hunter2" ∧ IsPassword "hunter3" ∧
      redact (addressText "redis" "" "hunter2" "h") = "redis://:hunter2@h" ∧
      redact (addressText "redis" "" "hunter2" "h") ≠
        redact (addressText "redis" "" "hunter3" "h") :=
  ⟨by decide, by decide, by decide, by decide, by decide +kernel, by decide +kernel⟩

end Stepwise.Redaction
