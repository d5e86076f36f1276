import Stepwise.Proofs.Redaction.Sweep
import Stepwise.Proofs.Text.Caseless

/-!
# What the rules find

Each rule is said by the text that it finds: its parts in order, and what each of them consists of.
From this follows that the rules for addresses, assignments, members and databases look ahead only,
and which character each of them needs. The rules for headers need white space behind a name, so a
solid text, one without white space, is swept by the other four alone.
-/

namespace Stepwise.Redaction

open Text

variable {before : Option Char} {cs : List Char} {f : Found}

/-! ## Solid texts -/

/-- A text without white space. -/
def IsSolidText (cs : List Char) : Prop := ∀ c ∈ cs, isSolid c = true

instance (cs : List Char) : Decidable (IsSolidText cs) := List.decidableBAll _ cs

namespace IsSolidText

variable {xs ys : List Char}

theorem left (h : IsSolidText (xs ++ ys)) : IsSolidText xs :=
  fun c hc => h c (List.mem_append_left _ hc)

theorem right (h : IsSolidText (xs ++ ys)) : IsSolidText ys :=
  fun c hc => h c (List.mem_append_right _ hc)

theorem append (hxs : IsSolidText xs) (hys : IsSolidText ys) : IsSolidText (xs ++ ys) :=
  fun c hc => (List.mem_append.mp hc).elim (hxs c) (hys c)

theorem tail {c : Char} (h : IsSolidText (c :: xs)) : IsSolidText xs :=
  fun d hd => h d (List.mem_cons_of_mem c hd)

theorem not_isBlank (h : IsSolidText xs) {c : Char} (hc : c ∈ xs) : isBlank c = false := by
  simpa [isSolid] using h c hc

/-- White space inside a solid text is empty. -/
theorem eq_nil_of_isBlank (h : IsSolidText xs) (hblank : ∀ c ∈ xs, isBlank c = true) : xs = [] := by
  refine List.eq_nil_iff_forall_not_mem.mpr fun c hc => ?_
  have hsolid := h.not_isBlank hc
  rw [hblank c hc] at hsolid
  cases hsolid

/-- What stands behind a run of solid characters in a solid text is empty. -/
theorem eq_nil_of_head? (h : IsSolidText xs) (hhead : ∀ c ∈ xs.head?, isSolid c = false) :
    xs = [] := by
  cases xs with
  | nil => rfl
  | cons c xs =>
      have hsolid := h c List.mem_cons_self
      rw [hhead c rfl] at hsolid
      cases hsolid

/-- A sweep leaves a solid text solid. -/
theorem sweep {rule : Rule} (h : IsSolidText xs) (hahead : LooksAhead rule) :
    IsSolidText (sweep rule xs) :=
  fun c hc => ((sweeps hahead xs).mem hc).elim (h c) (isSolid_of_mem_mark c)

end IsSolidText

/-! ## Rules that need white space -/

theorem run?_isBlank_of_solid (h : IsSolidText cs) : run? isBlank cs = none := by
  cases hrun : run? isBlank cs with
  | none => rfl
  | some split =>
      obtain ⟨gap, rest⟩ := split
      obtain ⟨rfl, hne, hgap, -⟩ := run?_eq_some_iff.mp hrun
      exact absurd (h.left.eq_nil_of_isBlank hgap) hne

theorem authorization_of_solid (h : IsSolidText cs) : authorization before cs = none := by
  rw [authorization]
  cases hname : spelled? "authorization:".toList cs with
  | none => rfl
  | some split =>
      obtain ⟨name, rest⟩ := split
      obtain ⟨rfl, -⟩ := split_of_spelled? hname
      simp [run?_isBlank_of_solid h.right]

theorem credentials_of_solid (h : IsSolidText cs) (scheme : List Char) (inToken : Char → Bool) :
    credentials scheme inToken before cs = none := by
  rw [credentials]
  split
  case isFalse => rfl
  case isTrue =>
    cases hname : spelled? scheme cs with
    | none => rfl
    | some split =>
        obtain ⟨name, rest⟩ := split
        obtain ⟨rfl, -⟩ := split_of_spelled? hname
        simp [run?_isBlank_of_solid h.right]

/-- A solid text is swept for addresses, assignments, members and databases alone. -/
theorem redactChars_of_solid (h : IsSolidText cs) :
    redactChars cs =
      sweep databaseAddress (sweep member (sweep assignment (sweep addressUser cs))) := by
  have hauthorization : sweep authorization cs = cs :=
    sweep_eq_self fun before s hs => authorization_of_solid fun c hc => h c (hs.mem hc)
  have hcredentials (scheme : List Char) (inToken : Char → Bool) :
      sweep (credentials scheme inToken) cs = cs :=
    sweep_eq_self fun before s hs =>
      credentials_of_solid (fun c hc => h c (hs.mem hc)) scheme inToken
  simp only [redactChars, rules, List.foldl_cons, List.foldl_nil]
  rw [hauthorization, bearer, hcredentials, basic, hcredentials]

/-! ## Addresses -/

/-- The name of a scheme: a letter, and characters of schemes behind it. -/
def IsScheme (scheme : List Char) : Prop :=
  (∃ c ∈ scheme.head?, isLetter c = true) ∧ ∀ c ∈ scheme, isSchemeChar c = true

/-- What stands between a scheme and the user. -/
def slashes : List Char := "://".toList

/-- An address with a user and a password, and what stands behind it. -/
def address (scheme user password rest : List Char) : List Char :=
  scheme ++ (slashes ++ (user ++ ':' :: (password ++ '@' :: rest)))

theorem isSymbols_slashes : IsSymbols slashes := by decide

/-- A scheme in front of slashes is the run of the characters of schemes. -/
theorem isScheme_iff {scheme : List Char} (rest : List Char) :
    (∃ split, run? isLetter (scheme ++ (slashes ++ rest)) = some split) ∧
        run isSchemeChar (scheme ++ (slashes ++ rest)) = (scheme, slashes ++ rest) ↔
      IsScheme scheme := by
  have hcolon : ∀ c ∈ (slashes ++ rest).head?, isSchemeChar c = false := by
    intro c hc
    obtain rfl : ':' = c := Option.some.inj hc
    decide
  rw [run_eq_iff, exists_run?_iff]
  constructor
  · rintro ⟨⟨c, hc, hletter⟩, -, hchars, -⟩
    refine ⟨⟨c, ?_, hletter⟩, hchars⟩
    cases scheme with
    | nil =>
        obtain rfl : ':' = c := Option.some.inj hc
        exact absurd hletter (by decide)
    | cons d scheme => exact hc
  · rintro ⟨⟨c, hc, hletter⟩, hchars⟩
    refine ⟨⟨c, ?_, hletter⟩, rfl, hchars, hcolon⟩
    rw [List.head?_append, Option.mem_def.mp hc]
    rfl

/-- In front of a host there is a scheme, a user and a password, none of them empty. -/
theorem addressUser_eq_some_iff : addressUser before cs = some f ↔
    ∃ scheme user password rest, cs = address scheme user password rest ∧
      IsScheme scheme ∧ (user ≠ [] ∧ ∀ c ∈ user, isUserChar c = true) ∧
      (password ≠ [] ∧ ∀ c ∈ password, isPasswordChar c = true) ∧
      f = ⟨scheme ++ slashes, user ++ ':' :: password, ['@']⟩ := by
  have hcolon : IsSymbols [':'] := by decide
  have hat : IsSymbols ['@'] := by decide
  simp only [addressUser, Option.bind_eq_bind, Option.bind_eq_some_iff]
  constructor
  · rintro ⟨letters, hletters, ⟨found, afterSlashes⟩, hslashes, ⟨user, afterUser⟩, huser,
      ⟨colon, afterColon⟩, hsecond, ⟨password, afterPassword⟩, hpassword, ⟨sign, rest⟩, hsign, hf⟩
    obtain ⟨scheme, afterScheme, hrun⟩ :
      ∃ scheme afterScheme, run isSchemeChar cs = (scheme, afterScheme) := ⟨_, _, rfl⟩
    simp only [hrun] at hslashes huser hsecond hpassword hsign hf
    obtain ⟨rfl, rfl⟩ := (spelled?_symbols_iff isSymbols_slashes).mp hslashes
    obtain ⟨rfl, hnamed, hchars, -⟩ := run?_eq_some_iff.mp huser
    obtain ⟨rfl, rfl⟩ := (spelled?_symbols_iff hcolon).mp hsecond
    obtain ⟨rfl, hsecret, hsolid, -⟩ := run?_eq_some_iff.mp hpassword
    obtain ⟨rfl, rfl⟩ := (spelled?_symbols_iff hat).mp hsign
    obtain ⟨rfl, -⟩ := run_eq_iff.mp hrun
    refine ⟨scheme, user, password, rest, by simp [address, slashes],
      (isScheme_iff _).mp ⟨⟨_, hletters⟩, hrun⟩, ⟨hnamed, hchars⟩, ⟨hsecret, hsolid⟩, ?_⟩
    simpa [slashes] using (Option.some.inj hf).symm
  · rintro ⟨scheme, user, password, rest, rfl, hscheme, ⟨huser, hchars⟩, ⟨hpassword, hsolid⟩, rfl⟩
    obtain ⟨⟨letters, hletters⟩, hrun⟩ :=
      (isScheme_iff (user ++ ':' :: (password ++ '@' :: rest))).mpr hscheme
    refine ⟨letters, hletters, (slashes, _),
      (spelled?_symbols_iff isSymbols_slashes).mpr ⟨congrArg Prod.snd hrun, rfl⟩,
      (user, _), run?_append_cons huser hchars (by decide) _,
      ([':'], _), spelled?_symbols hcolon _,
      (password, _), run?_append_cons hpassword hsolid (by decide) _,
      (['@'], rest), spelled?_symbols hat rest, ?_⟩
    simp [address, hrun]

theorem addressUser_looksAhead : LooksAhead addressUser where
  blind before cs := rfl
  part h := by
    obtain ⟨scheme, user, password, rest, rfl, -, -, -, rfl⟩ := addressUser_eq_some_iff.mp h
    exact ⟨rest, by simp [Found.text, address]⟩
  secret h := by
    obtain ⟨scheme, user, password, rest, rfl, -, -, -, rfl⟩ := addressUser_eq_some_iff.mp h
    simp

/-- An address needs a colon, and only the characters of a scheme come before it. -/
theorem addressUser_needs {stop : Char} (hstop : isSchemeChar stop = false) :
    Needs addressUser ':' stop := by
  intro cs f h
  obtain ⟨scheme, user, password, rest, rfl, ⟨-, hchars⟩, -, -, -⟩ := addressUser_eq_some_iff.mp h
  exact ⟨scheme, '/' :: '/' :: (user ++ ':' :: (password ++ '@' :: rest)), rfl,
    not_mem_of_class hchars hstop⟩

/-- An address does not begin with anything but a letter. -/
theorem addressUser_of_not_isLetter {c : Char} (hc : isLetter c = false) (cs : List Char) :
    addressUser none (c :: cs) = none := by
  cases hfound : addressUser none (c :: cs) with
  | none => rfl
  | some f =>
      obtain ⟨scheme, user, password, rest, hsplit, ⟨⟨d, hd, hletter⟩, -⟩, -⟩ :=
        addressUser_eq_some_iff.mp hfound
      cases scheme with
      | nil => cases hd
      | cons e scheme =>
          obtain rfl : e = d := Option.some.inj hd
          rw [(List.cons.inj hsplit).1, hletter] at hc
          cases hc

/-! ## Assignments -/

/-- The words for secrets in names of values that are assigned. -/
def assignedWords : List String := ["key", "token", "secret", "password", "passwd"]

/-- An assignment is found as a name that holds a word for secrets, an equals sign and a secret,
with white space between them at most. -/
theorem parts_of_assignment (h : assignment before cs = some f) :
    ∃ name gap space secret rest, cs = name ++ (gap ++ '=' :: (space ++ (secret ++ rest))) ∧
      ((∀ c ∈ name, isNameChar c = true) ∧ names assignedWords name = true) ∧
      (∀ c ∈ gap, isBlank c = true) ∧ (∀ c ∈ space, isBlank c = true) ∧
      (secret ≠ [] ∧ (∀ c ∈ secret, isSolid c = true) ∧ ∀ c ∈ rest.head?, isSolid c = false) ∧
      f = ⟨name ++ gap ++ ['='] ++ space, secret, []⟩ := by
  have hequals : IsSymbols ['='] := by decide
  simp only [assignment, Option.bind_eq_bind, Option.bind_eq_some_iff] at h
  obtain ⟨⟨name, afterName⟩, hname, h⟩ := h
  obtain ⟨rfl, -, hchars, -⟩ := run?_eq_some_iff.mp hname
  split at h
  case isFalse => cases h
  case isTrue hwords =>
    obtain ⟨gap, afterGap, hgap⟩ :
      ∃ gap afterGap, run isBlank afterName = (gap, afterGap) := ⟨_, _, rfl⟩
    simp only [hgap, Option.bind_eq_some_iff] at h
    obtain ⟨⟨sign, afterSign⟩, hsign, ⟨secret, rest⟩, hsecret, hf⟩ := h
    obtain ⟨rfl, rfl⟩ := (spelled?_symbols_iff hequals).mp hsign
    obtain ⟨space, afterSpace, hspace⟩ :
      ∃ space afterSpace, run isBlank afterSign = (space, afterSpace) := ⟨_, _, rfl⟩
    simp only [hspace] at hsecret hf
    obtain ⟨rfl, hsecrets⟩ := run?_eq_some_iff.mp hsecret
    obtain ⟨rfl, hblank, -⟩ := run_eq_iff.mp hspace
    obtain ⟨rfl, hblanks, -⟩ := run_eq_iff.mp hgap
    exact ⟨name, gap, space, secret, rest, rfl, ⟨hchars, hwords⟩, hblanks, hblank, hsecrets,
      (Option.some.inj hf).symm⟩

theorem assignment_looksAhead : LooksAhead assignment where
  blind before cs := rfl
  part h := by
    obtain ⟨name, gap, space, secret, rest, rfl, -, -, -, -, rfl⟩ := parts_of_assignment h
    exact ⟨rest, by simp [Found.text]⟩
  secret h := by
    obtain ⟨name, gap, space, secret, rest, rfl, -, -, -, ⟨hsecret, -⟩, rfl⟩ :=
      parts_of_assignment h
    exact hsecret

/-- An assignment needs an equals sign, and only a name and white space come before it. -/
theorem assignment_needs {stop : Char} (hname : isNameChar stop = false)
    (hblank : isBlank stop = false) : Needs assignment '=' stop := by
  intro cs f h
  obtain ⟨name, gap, space, secret, rest, rfl, ⟨hchars, -⟩, hgap, -, -, -⟩ :=
    parts_of_assignment h
  refine ⟨name ++ gap, space ++ (secret ++ rest), by simp, ?_⟩
  rw [List.mem_append, not_or]
  exact ⟨not_mem_of_class hchars hname, not_mem_of_class hgap hblank⟩

/-- In a solid text the name stands right before the equals sign, and the secret is all that is
behind it. -/
theorem assignment_eq_some_iff_of_solid (hcs : IsSolidText cs) :
    assignment before cs = some f ↔
      ∃ name secret, cs = name ++ '=' :: secret ∧
        ((∀ c ∈ name, isNameChar c = true) ∧ names assignedWords name = true) ∧ secret ≠ [] ∧
        f = ⟨name ++ ['='], secret, []⟩ := by
  constructor
  · intro h
    obtain ⟨name, gap, space, secret, rest, rfl, hname, hgap, hspace, ⟨hsecret, -, hrest⟩, rfl⟩ :=
      parts_of_assignment h
    have hbehind : IsSolidText (space ++ (secret ++ rest)) := hcs.right.right.tail
    obtain rfl := hcs.right.left.eq_nil_of_isBlank hgap
    obtain rfl := hbehind.left.eq_nil_of_isBlank hspace
    obtain rfl := hbehind.right.right.eq_nil_of_head? hrest
    exact ⟨name, secret, by simp, hname, hsecret, by simp⟩
  · rintro ⟨name, secret, rfl, ⟨hchars, hwords⟩, hsecret, rfl⟩
    have hne : name ≠ [] := by
      rintro rfl
      exact absurd hwords (by decide)
    have hname := run?_append_cons hne hchars (d := '=') (by decide) secret
    have hgap : run isBlank ('=' :: secret) = ([], '=' :: secret) := rfl
    have hsign : spelled? ['='] ('=' :: secret) = some (['='], secret) := rfl
    have hspace : run isBlank secret = ([], secret) :=
      run_eq_iff.mpr ⟨rfl, by simp, fun c hc => hcs.right.tail.not_isBlank (List.mem_of_head? hc)⟩
    have hrun : run? isSolid secret = some (secret, []) :=
      run?_eq_some_iff.mpr ⟨by simp, hsecret, hcs.right.tail, by simp⟩
    simp only [assignedWords] at hwords
    simp [assignment, hname, hwords, hgap, hsign, hspace, hrun]

/-! ## Members -/

/-- The words for secrets in keys. -/
def memberWords : List String := ["key", "token", "secret", "password"]

/-- A member is found as a quoted key that holds a word for secrets, a colon and a quoted text, with
white space around the colon at most. -/
theorem member_eq_some_iff : member before cs = some f ↔
    ∃ key gap space secret rest,
      cs = '"' :: (key ++ '"' :: (gap ++ ':' :: (space ++ '"' :: (secret ++ '"' :: rest)))) ∧
      ((∀ c ∈ key, isKeyChar c = true) ∧ names memberWords key = true) ∧
      (∀ c ∈ gap, isBlank c = true) ∧ (∀ c ∈ space, isBlank c = true) ∧
      (secret ≠ [] ∧ '"' ∉ secret) ∧
      f = ⟨'"' :: (key ++ '"' :: (gap ++ ':' :: (space ++ ['"']))), secret, ['"']⟩ := by
  have hquote : IsSymbols ['"'] := by decide
  have hcolon : IsSymbols [':'] := by decide
  constructor
  · intro h
    simp only [member, Option.bind_eq_bind, Option.bind_eq_some_iff] at h
    obtain ⟨⟨quote, afterQuote⟩, hopen, ⟨key, afterKey⟩, hkey, h⟩ := h
    obtain ⟨rfl, rfl⟩ := (spelled?_symbols_iff hquote).mp hopen
    obtain ⟨rfl, -, hchars, -⟩ := run?_eq_some_iff.mp hkey
    split at h
    case isFalse => cases h
    case isTrue hwords =>
      simp only [Option.bind_eq_some_iff] at h
      obtain ⟨⟨close, afterClose⟩, hclose, ⟨colon, afterColon⟩, hsign, ⟨start, afterStart⟩, hstart,
        ⟨secret, afterSecret⟩, hsecret, ⟨stop, rest⟩, hstop, hf⟩ := h
      obtain ⟨rfl, rfl⟩ := (spelled?_symbols_iff hquote).mp hclose
      obtain ⟨gap, afterGap, hgap⟩ :
        ∃ gap afterGap, run isBlank afterClose = (gap, afterGap) := ⟨_, _, rfl⟩
      simp only [hgap] at hsign hf
      obtain ⟨rfl, rfl⟩ := (spelled?_symbols_iff hcolon).mp hsign
      obtain ⟨space, afterSpace, hspace⟩ :
        ∃ space afterSpace, run isBlank afterColon = (space, afterSpace) := ⟨_, _, rfl⟩
      simp only [hspace] at hstart hf
      obtain ⟨rfl, rfl⟩ := (spelled?_symbols_iff hquote).mp hstart
      obtain ⟨rfl, hne, hplain, -⟩ := run?_eq_some_iff.mp hsecret
      obtain ⟨rfl, rfl⟩ := (spelled?_symbols_iff hquote).mp hstop
      obtain ⟨rfl, hspaces, -⟩ := run_eq_iff.mp hspace
      obtain ⟨rfl, hgaps, -⟩ := run_eq_iff.mp hgap
      refine ⟨key, gap, space, secret, rest, by simp, ⟨hchars, hwords⟩, hgaps, hspaces,
        ⟨hne, not_mem_of_class hplain rfl⟩, ?_⟩
      simpa using (Option.some.inj hf).symm
  · rintro ⟨key, gap, space, secret, rest, rfl, ⟨hchars, hwords⟩, hgap, hspace, ⟨hne, hplain⟩, rfl⟩
    have hkey : key ≠ [] := by
      rintro rfl
      exact absurd hwords (by decide)
    have hopen (cs : List Char) : spelled? ['"'] ('"' :: cs) = some (['"'], cs) :=
      spelled?_symbols hquote cs
    have hsign (cs : List Char) : spelled? [':'] (':' :: cs) = some ([':'], cs) :=
      spelled?_symbols hcolon cs
    have hother : ∀ c ∈ secret, (c != '"') = true :=
      fun c hc => bne_iff_ne.mpr (ne_of_mem_of_not_mem hc hplain)
    have hname := run?_append_cons hkey hchars (d := '"') (by decide)
    have hgaps := run_append_cons hgap (d := ':') (by decide)
    have hspaces := run_append_cons hspace (d := '"') (by decide)
    have htext := run?_append_cons hne hother (d := '"') (by decide)
    simp only [memberWords] at hwords
    simp [member, hopen, hname, hwords, hgaps, hsign, hspaces, htext]

theorem member_looksAhead : LooksAhead member where
  blind before cs := rfl
  part h := by
    obtain ⟨key, gap, space, secret, rest, rfl, -, -, -, -, rfl⟩ := member_eq_some_iff.mp h
    exact ⟨rest, by simp [Found.text]⟩
  secret h := by
    obtain ⟨key, gap, space, secret, rest, rfl, -, -, -, ⟨hsecret, -⟩, rfl⟩ :=
      member_eq_some_iff.mp h
    exact hsecret

/-- A member needs a quote, and nothing comes before it. -/
theorem member_needs (stop : Char) : Needs member '"' stop := by
  intro cs f h
  obtain ⟨key, gap, space, secret, rest, rfl, -⟩ := member_eq_some_iff.mp h
  exact ⟨[], _, rfl, List.not_mem_nil⟩

/-! ## Databases -/

/-- The name of the value that holds the address of a database. -/
def databaseName : List Char := "database_url".toList

theorem parts_of_databaseAddress (h : databaseAddress before cs = some f) :
    ∃ name secret rest, cs = name ++ '=' :: (secret ++ rest) ∧ name.map fold = databaseName ∧
      (secret ≠ [] ∧ (∀ c ∈ secret, isSolid c = true) ∧ ∀ c ∈ rest.head?, isSolid c = false) ∧
      f = ⟨name ++ ['='], secret, []⟩ := by
  simp only [databaseAddress, Option.bind_eq_bind, Option.bind_eq_some_iff] at h
  obtain ⟨⟨front, afterFront⟩, hfront, ⟨secret, rest⟩, hsecret, hf⟩ := h
  obtain ⟨rfl, hfold⟩ := split_of_spelled? hfront
  obtain ⟨rfl, hsecrets⟩ := run?_eq_some_iff.mp hsecret
  obtain ⟨name, sign, rfl, hname, hsign⟩ :=
    List.map_eq_append_iff.mp (hfold.trans (rfl : _ = databaseName ++ ['=']))
  obtain rfl : sign = ['='] := (map_fold_eq_iff (by decide)).mp hsign
  exact ⟨name, secret, rest, by simp, hname, hsecrets, (Option.some.inj hf).symm⟩

theorem databaseAddress_looksAhead : LooksAhead databaseAddress where
  blind before cs := rfl
  part h := by
    obtain ⟨name, secret, rest, rfl, -, -, rfl⟩ := parts_of_databaseAddress h
    exact ⟨rest, by simp [Found.text]⟩
  secret h := by
    obtain ⟨name, secret, rest, rfl, -, ⟨hsecret, -⟩, rfl⟩ := parts_of_databaseAddress h
    exact hsecret

/-- The address of a database needs an equals sign, and only its name comes before it. -/
theorem databaseAddress_needs (stop : Char) (hstop : fold stop ∉ databaseName) :
    Needs databaseAddress '=' stop := by
  intro cs f h
  obtain ⟨name, secret, rest, rfl, hname, -, -⟩ := parts_of_databaseAddress h
  refine ⟨name, secret ++ rest, rfl, fun hmem => hstop ?_⟩
  rw [← hname]
  exact List.mem_map_of_mem hmem

/-! ## Rules that hide the rest of a solid text -/

/-- A rule that hides all that is behind the place where it finds something, in a solid text. -/
def HidesRest (rule : Rule) : Prop :=
  ∀ {cs f}, IsSolidText cs → rule none cs = some f → cs = f.text ∧ f.tail = []

theorem assignment_hidesRest : HidesRest assignment := by
  intro cs f hcs h
  obtain ⟨name, secret, rfl, -, -, rfl⟩ := (assignment_eq_some_iff_of_solid hcs).mp h
  exact ⟨by simp [Found.text], rfl⟩

theorem databaseAddress_hidesRest : HidesRest databaseAddress := by
  intro cs f hcs h
  obtain ⟨name, secret, rest, rfl, -, ⟨-, -, hrest⟩, rfl⟩ := parts_of_databaseAddress h
  obtain rfl := hcs.right.tail.right.eq_nil_of_head? hrest
  exact ⟨by simp [Found.text], rfl⟩

/-- Such a rule finds nothing at any place, or the mark is the end of what is left. -/
theorem HidesRest.sweeps_cases {rule : Rule} (h : HidesRest rule) {cs out : List Char}
    (hsweep : Sweeps rule cs out) (hcs : IsSolidText cs) :
    (out = cs ∧ ∀ s, s <:+ cs → s ≠ [] → rule none s = none) ∨ ∃ front, out = front ++ mark := by
  induction hsweep with
  | done =>
      refine Or.inl ⟨rfl, fun s hs hne => ?_⟩
      exact absurd (List.suffix_nil.mp hs) hne
  | pass hnone hrest ih =>
      rcases ih hcs.tail with ⟨rfl, hnothing⟩ | ⟨front, rfl⟩
      · refine Or.inl ⟨rfl, fun s hs hne => ?_⟩
        rcases List.suffix_cons_iff.mp hs with rfl | hs
        · exact hnone
        · exact hnothing s hs hne
      · exact Or.inr ⟨_ :: front, rfl⟩
  | @hide f cs out hsecret hfound hrest ih =>
      obtain ⟨htext, htail⟩ := h hcs hfound
      obtain rfl : cs = [] := List.append_right_eq_self.mp htext
      exact Or.inr ⟨f.kept, by simp [Found.shown, htail, hrest.eq_nil]⟩

end Stepwise.Redaction
