import Stepwise.Proofs.Settings.Document
import Stepwise.Proofs.Text.Trim

/-!
# Variables over settings

A variable is set when its value is a text that is not blank, and then to the text without the white
space around it. A setting in the layer of the variables is what its own variable means, if that is set, and
otherwise what it is below, whatever the other variables are. Only a number and a mode can be
spelled wrong; of the variables that can, the first one that is decides the error.
-/

namespace Stepwise

variable {α : Type}

namespace Environment

/-- A variable is set to a text: its value is a text that is not blank, and this is what is left of
it without the white space around it. -/
def Sets (env : Environment) (name value : String) : Prop :=
  ∃ raw, env.assigned.find? name = some (.text raw) ∧ Text.isBlankText raw = false ∧
    Text.trim raw = value

theorem value?_eq_some_iff {env : Environment} {name value : String} :
    env.value? name = some value ↔ env.Sets name value := by
  have hraw (raw : String) : (env.assigned.find? name).bind VariableValue.text? = some raw ↔
      env.assigned.find? name = some (.text raw) := by
    cases env.assigned.find? name with
    | none => simp
    | some found => cases found <;> simp [VariableValue.text?]
  rw [value?, Sets, Option.bind_eq_some_iff]
  simp only [hraw]
  refine exists_congr fun raw => and_congr_right fun _ => ?_
  by_cases hblank : Text.isBlankText raw = true
  · have hempty := (Text.isTrimOf_trim raw).eq_empty_iff.mpr hblank
    simp [hempty, hblank]
  · have hblank := Bool.eq_false_iff.mpr hblank
    simp [Text.trim_ne_empty hblank, hblank]

theorem Sets.unique {env : Environment} {name first second : String} (hfirst : env.Sets name first)
    (hsecond : env.Sets name second) : first = second := by
  rw [← value?_eq_some_iff] at hfirst hsecond
  exact Option.some.inj (hfirst.symm.trans hsecond)

/-- A setting in the layer of the variables: what its variable means, or what it is below. -/
def Layer (env : Environment) (name : String) (means : String → α → Prop) (below a : α) : Prop :=
  (∃ value, env.Sets name value ∧ means value a) ∨ ((∀ value, ¬env.Sets name value) ∧ a = below)

theorem layer_iff {env : Environment} {name : String} {means : String → α → Prop} {below a : α} :
    env.Layer name means below a ↔
      match env.value? name with
      | some value => means value a
      | none => a = below := by
  simp only [Layer, ← value?_eq_some_iff]
  cases env.value? name <;> simp

/-- The first of some variables that is set to a text it cannot mean. -/
inductive FirstInvalid (env : Environment) :
    List (String × (String → Prop)) → String → String → Prop
  | here {name value : String} {valid : String → Prop} {rest : List (String × (String → Prop))}
      (set : env.Sets name value) (invalid : ¬valid value) :
      FirstInvalid env ((name, valid) :: rest) name value
  | later {name other value : String} {valid : String → Prop}
      {rest : List (String × (String → Prop))} (fine : ∀ text, env.Sets name text → valid text)
      (found : FirstInvalid env rest other value) :
      FirstInvalid env ((name, valid) :: rest) other value

@[simp]
theorem not_firstInvalid_nil {env : Environment} {name value : String} :
    ¬env.FirstInvalid [] name value :=
  nofun

theorem firstInvalid_cons_iff {env : Environment} {name other value : String}
    {valid : String → Prop} {rest : List (String × (String → Prop))} :
    env.FirstInvalid ((name, valid) :: rest) other value ↔
      (other = name ∧ env.Sets name value ∧ ¬valid value) ∨
        ((∀ text, env.Sets name text → valid text) ∧ env.FirstInvalid rest other value) := by
  constructor
  · rintro (⟨hset, hinvalid⟩ | ⟨hfine, hfound⟩)
    · exact .inl ⟨rfl, hset, hinvalid⟩
    · exact .inr ⟨hfine, hfound⟩
  · rintro (⟨rfl, hset, hinvalid⟩ | ⟨hfine, hfound⟩)
    · exact .here hset hinvalid
    · exact .later hfine hfound

end Environment

/-! ## What texts spell -/

/-- Decimal digits, with a plus sign in front or not, of a number that fits in so many bits. -/
def Text.SpellsUnsigned (bits : Nat) (text : String) (n : Nat) : Prop :=
  ∃ digits, (text.toList = digits ∨ text.toList = '+' :: digits) ∧ digits ≠ [] ∧
    (∀ c ∈ digits, c.isDigit = true) ∧ Nat.ofDigitChars 10 digits 0 = n ∧ n < Nat.pow 2 bits

/-- The name of a mode, in which the case of ASCII letters does not count. -/
def TlsMode.SpelledBy (text : String) (mode : TlsMode) : Prop :=
  text.toList.map Char.toLower = mode.name.toList

theorem TlsMode.ofText?_eq_some_iff {text : String} {mode : TlsMode} :
    TlsMode.ofText? text = some mode ↔ TlsMode.SpelledBy text mode := by
  rw [ofText?, ofName?_eq_some_iff, SpelledBy, ← String.toList_inj, String.toList_ofList]

namespace Settings

/-- The digits of a text behind its plus sign, if it has one. -/
def unsignedDigits : List Char → List Char
  | '+' :: rest => rest
  | cs => cs

theorem unsignedDigits_eq_iff {cs digits : List Char} (h : ∀ c ∈ digits, c.isDigit = true) :
    unsignedDigits cs = digits ↔ cs = digits ∨ cs = '+' :: digits := by
  constructor
  · rintro rfl
    rw [unsignedDigits.eq_def]
    split
    · exact .inr rfl
    · exact .inl rfl
  · rintro (rfl | rfl)
    · rw [unsignedDigits.eq_def]
      split
      · -- a plus sign is no digit
        cases h '+' List.mem_cons_self
      · rfl
    · rfl

theorem unsigned?_eq_some_iff_digits {bits : Nat} {text : String} {n : Nat} :
    unsigned? bits text = some n ↔
      unsignedDigits text.toList ≠ [] ∧ (∀ c ∈ unsignedDigits text.toList, c.isDigit = true) ∧
        Nat.ofDigitChars 10 (unsignedDigits text.toList) 0 = n ∧ n < Nat.pow 2 bits := by
  have hvalue (digits : List Char) :
      digits.foldl (fun n c => n * 10 + (c.toNat - '0'.toNat)) 0 =
        Nat.ofDigitChars 10 digits 0 := by
    simp only [Nat.ofDigitChars_eq_foldl, Nat.mul_comm]
  change (if (unsignedDigits text.toList).isEmpty || !(unsignedDigits text.toList).all Char.isDigit
    then none
    else
      let n := (unsignedDigits text.toList).foldl (fun n c => n * 10 + (c.toNat - '0'.toNat)) 0
      if n < Nat.pow 2 bits then some n else none) = some n ↔ _
  rw [hvalue, ← List.all_eq_true]
  generalize unsignedDigits text.toList = digits
  dsimp only
  cases hempty : digits.isEmpty
  case true => simp [List.isEmpty_iff.mp hempty]
  case false =>
    have hne : digits ≠ [] := by
      rintro rfl
      cases hempty
    cases hall : digits.all Char.isDigit
    case false => simp
    case true =>
      simp only [Bool.not_true, Bool.or_false, Bool.false_eq_true, if_false, ne_eq, hne,
        not_false_eq_true, true_and, Option.ite_none_right_eq_some, Option.some.injEq]
      constructor
      · rintro ⟨hbound, rfl⟩
        exact ⟨rfl, hbound⟩
      · rintro ⟨rfl, hbound⟩
        exact ⟨hbound, rfl⟩

theorem unsigned?_eq_some_iff {bits : Nat} {text : String} {n : Nat} :
    unsigned? bits text = some n ↔ Text.SpellsUnsigned bits text n := by
  rw [unsigned?_eq_some_iff_digits]
  constructor
  · rintro ⟨hne, hdigits, hn, hbound⟩
    exact ⟨_, (unsignedDigits_eq_iff hdigits).mp rfl, hne, hdigits, hn, hbound⟩
  · rintro ⟨digits, htext, hne, hdigits, hn, hbound⟩
    rw [(unsignedDigits_eq_iff hdigits).mpr htext]
    exact ⟨hne, hdigits, hn, hbound⟩

/-! ## Variables in turn -/

/-- A variable with the values it takes, whatever the settings are. -/
def Override.Takes (o : Override) (rule : String × (String → Prop)) : Prop :=
  o.variableName = rule.1 ∧ ∀ value s, (∃ s', o.apply value s = some s') ↔ rule.2 value

/-- A variable leaves a part of the settings as it is. -/
def Override.Keeps (o : Override) (part : Settings → α) : Prop :=
  ∀ value s s', o.apply value s = some s' → part s' = part s

section Run

variable {env : Environment} {os : List Override} {s s' : Settings} {part : Settings → α}

/-- What one variable does: nothing if it is not set, and otherwise its change, if it takes the
value. -/
theorem applyAll_cons (env : Environment) (s : Settings) (o : Override) (rest : List Override) :
    ((∀ value, ¬env.Sets o.variableName value) ∧
      applyAll env (o :: rest) s = applyAll env rest s) ∨
    ∃ value, env.Sets o.variableName value ∧
      ((o.apply value s = none ∧
          applyAll env (o :: rest) s = .error (.invalidVariable o.variableName value)) ∨
        ∃ s₁, o.apply value s = some s₁ ∧ applyAll env (o :: rest) s = applyAll env rest s₁) := by
  simp only [← Environment.value?_eq_some_iff, applyAll]
  cases hvalue : env.value? o.variableName with
  | none => exact .inl ⟨nofun, rfl⟩
  | some value =>
      cases happly : o.apply value s with
      | none => exact .inr ⟨value, rfl, .inl ⟨happly, by simp [happly]⟩⟩
      | some s₁ => exact .inr ⟨value, rfl, .inr ⟨s₁, happly, by simp [happly]⟩⟩

/-- A run of variables keeps what each of them keeps. -/
theorem applyAll_keeps (hkeeps : ∀ o ∈ os, o.Keeps part) (hok : applyAll env os s = .ok s') :
    part s' = part s := by
  induction os generalizing s with
  | nil =>
      cases hok
      rfl
  | cons o rest ih =>
      have hrest := fun other hmem => hkeeps other (List.mem_cons_of_mem _ hmem)
      obtain ⟨-, hstep⟩ | ⟨value, -, ⟨-, hstep⟩ | ⟨s₁, happly, hstep⟩⟩ :=
        applyAll_cons env s o rest
      · exact ih hrest (hstep ▸ hok)
      · rw [hstep] at hok
        cases hok
      · exact (ih hrest (hstep ▸ hok)).trans (hkeeps o List.mem_cons_self value s s₁ happly)

/-- A part that one variable decides and the others keep is in the layer of that variable, however
many others there are and wherever it stands among them. -/
theorem applyAll_layer (hok : applyAll env os s = .ok s') (part : Settings → α) {name : String}
    {means : String → α → Prop} (hmem : name ∈ os.map Override.variableName)
    (hdistinct : (os.map Override.variableName).Nodup)
    (hmeans : ∀ o ∈ os, o.variableName = name →
      ∀ value s s', o.apply value s = some s' → means value (part s'))
    (hothers : ∀ o ∈ os, o.variableName ≠ name → o.Keeps part) :
    env.Layer name means (part s) (part s') := by
  induction os generalizing s with
  | nil => cases hmem
  | cons o rest ih =>
      rw [List.map_cons] at hmem hdistinct
      obtain ⟨hfirst, hdistinct⟩ := List.nodup_cons.mp hdistinct
      have hmeansRest := fun other hlater => hmeans other (List.mem_cons_of_mem o hlater)
      have hothersRest := fun other hlater => hothers other (List.mem_cons_of_mem o hlater)
      have hstep := applyAll_cons env s o rest
      by_cases hname : o.variableName = name
      · -- no later variable changes what this one has decided
        subst hname
        have hkeeps : ∀ other ∈ rest, other.Keeps part := fun other hlater =>
          hothersRest other hlater fun heq => hfirst (heq ▸ List.mem_map_of_mem hlater)
        obtain ⟨hunset, hstep⟩ | ⟨value, hset, ⟨-, hstep⟩ | ⟨s₁, happly, hstep⟩⟩ := hstep
        · exact .inr ⟨hunset, applyAll_keeps hkeeps (hstep ▸ hok)⟩
        · rw [hstep] at hok
          cases hok
        · refine .inl ⟨value, hset, ?_⟩
          rw [applyAll_keeps hkeeps (hstep ▸ hok)]
          exact hmeans o List.mem_cons_self rfl value s s₁ happly
      · have hlater := (List.mem_cons.mp hmem).resolve_left (Ne.symm hname)
        obtain ⟨-, hstep⟩ | ⟨value, -, ⟨-, hstep⟩ | ⟨s₁, happly, hstep⟩⟩ := hstep
        · exact ih (hstep ▸ hok) hlater hdistinct hmeansRest hothersRest
        · rw [hstep] at hok
          cases hok
        · have hkept := hothers o List.mem_cons_self hname value s s₁ happly
          exact hkept ▸ ih (hstep ▸ hok) hlater hdistinct hmeansRest hothersRest

/-- What some variables bring about and no variable undoes holds if it did or one of them is set. -/
theorem applyAll_holds_iff (hok : applyAll env os s = .ok s') (holds : Settings → Prop)
    (makers : List String)
    (hmakes : ∀ o ∈ os, ∀ value s s', o.apply value s = some s' →
      (holds s' ↔ holds s ∨ o.variableName ∈ makers)) :
    holds s' ↔ holds s ∨
      ∃ o ∈ os, o.variableName ∈ makers ∧ ∃ value, env.Sets o.variableName value := by
  induction os generalizing s with
  | nil =>
      cases hok
      simp
  | cons o rest ih =>
      have hrest := fun other hmem => hmakes other (List.mem_cons_of_mem _ hmem)
      rw [List.exists_mem_cons_iff]
      obtain ⟨hunset, hstep⟩ | ⟨value, hset, ⟨-, hstep⟩ | ⟨s₁, happly, hstep⟩⟩ :=
        applyAll_cons env s o rest
      · have hno : ¬∃ value, env.Sets o.variableName value := fun ⟨value, hset⟩ =>
          hunset value hset
        simpa only [hno, and_false, false_or] using ih (hstep ▸ hok) hrest
      · rw [hstep] at hok
        cases hok
      · have hyes : ∃ value, env.Sets o.variableName value := ⟨value, hset⟩
        have hmade := hmakes o List.mem_cons_self value s s₁ happly
        rw [ih (hstep ▸ hok) hrest, hmade, or_assoc]
        simp only [hyes, and_true]

/-- A run of variables fails with the first one that is set to a value it does not take. -/
theorem applyAll_eq_error_iff {rules : List (String × (String → Prop))} {e : SettingsError}
    (htakes : List.Forall₂ Override.Takes os rules) :
    applyAll env os s = .error e ↔
      ∃ name value, e = .invalidVariable name value ∧ env.FirstInvalid rules name value := by
  induction htakes generalizing s with
  | nil => simp [applyAll]
  | @cons o rule rest rules htakes _ ih =>
      obtain ⟨name, valid⟩ := rule
      obtain ⟨rfl, hvalid⟩ := htakes
      dsimp only at hvalid
      simp only [Environment.firstInvalid_cons_iff]
      obtain ⟨hunset, hstep⟩ | ⟨value, hset, ⟨happly, hstep⟩ | ⟨s₁, happly, hstep⟩⟩ :=
        applyAll_cons env s o rest
      · rw [hstep, ih]
        simp [hunset]
      · have hinvalid : ¬valid value := by simp [← hvalid value s, happly]
        rw [hstep, Except.error.injEq]
        constructor
        · rintro rfl
          exact ⟨_, value, rfl, .inl ⟨rfl, hset, hinvalid⟩⟩
        · rintro ⟨_, other, rfl, ⟨rfl, hother, -⟩ | ⟨hfine, -⟩⟩
          · rw [hset.unique hother]
          · exact absurd (hfine value hset) hinvalid
      · have hfine : ∀ text, env.Sets o.variableName text → valid text := fun text htext =>
          (hvalid text s).mp ⟨s₁, htext.unique hset ▸ happly⟩
        rw [hstep, ih]
        refine exists_congr fun other => exists_congr fun text => and_congr_right fun _ => ?_
        rw [and_iff_right hfine, or_iff_right]
        exact fun h => h.2.2 (hfine text h.2.1)

end Run

end Settings

end Stepwise
