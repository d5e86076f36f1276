import Stepwise.Proofs.Json.ReadBack

/-!
# Spelled values

A JSON value as it is spelled: with the white space between its parts, the escapes in its texts and
the literals of its numbers. Each spelling is valid by construction, and its text is read as its
value, whatever comes behind it.
-/

namespace Stepwise

namespace Json

/-! ## Spellings -/

/-- White space between the parts of a value. -/
abbrev Space := {cs : List Char // ∀ c ∈ cs, Fragment.isSpace c = true}

def Space.of (cs : List Char) (h : cs.all Fragment.isSpace = true) : Space :=
  ⟨cs, List.all_eq_true.mp h⟩

/-- A character between quotes as it is spelled. -/
inductive SpelledChar where
  /-- A character that stands for itself. -/
  | plain (char : Char) (bare : 0x20 ≤ char.toNat ∧ char ≠ '"' ∧ char ≠ '\\')
  /-- A letter behind a backslash. -/
  | short (letter char : Char) (reads : Fragment.shortEscape? letter = some char)
  /-- Four digits for a unit that is a character. -/
  | unit (a b c d : Char) (unit : Nat) (reads : Fragment.unit? a b c d = some unit)
      (whole : Text.isLeadUnit unit = false ∧ Text.isTrailUnit unit = false)
  /-- Two units that make a character together. -/
  | pair (a b c d : Char) (lead : Nat) (reads : Fragment.unit? a b c d = some lead)
      (e f g h : Char) (trail : Nat) (reads' : Fragment.unit? e f g h = some trail)
      (halves : Text.isLeadUnit lead = true ∧ Text.isTrailUnit trail = true)

/-- A number as it is spelled. -/
structure SpelledNumber where
  literal : List Char
  number : Number
  reads : readNumber literal = some (number, [])

mutual

/-- A value as it is spelled, without white space around it. -/
inductive Spelled where
  | null
  | bool (value : Bool)
  | num (number : SpelledNumber)
  | str (text : List SpelledChar)
  | emptyArr (gap : Space)
  | arr (items : SpelledItems)
  | emptyObj (gap : Space)
  | obj (members : SpelledMembers)

/-- Items between brackets. -/
inductive SpelledItems where
  | last (before : Space) (value : Spelled) (after : Space)
  | next (before : Space) (value : Spelled) (after : Space) (rest : SpelledItems)

/-- Members between braces. The gap stands between the name and its colon. -/
inductive SpelledMembers where
  | last (before : Space) (name : List SpelledChar) (gap before' : Space) (value : Spelled)
      (after : Space)
  | next (before : Space) (name : List SpelledChar) (gap before' : Space) (value : Spelled)
      (after : Space) (rest : SpelledMembers)

end

namespace SpelledChar

/-- The character that is meant. -/
def char : SpelledChar → Char
  | plain c _ => c
  | short _ c _ => c
  | unit _ _ _ _ u _ _ => Char.ofNat u
  | pair _ _ _ _ lead _ _ _ _ _ trail _ _ => Text.charOfPair lead trail

def text : SpelledChar → List Char
  | plain c _ => [c]
  | short letter _ _ => ['\\', letter]
  | unit a b c d _ _ _ => ['\\', 'u', a, b, c, d]
  | pair a b c d _ _ e f g h _ _ _ => ['\\', 'u', a, b, c, d, '\\', 'u', e, f, g, h]

end SpelledChar

/-- Spelled characters between quotes. -/
def quotedText (cs : List SpelledChar) : List Char :=
  '"' :: (cs.flatMap SpelledChar.text ++ ['"'])

/-- The text that spelled characters stand for. -/
def meant (cs : List SpelledChar) : String :=
  String.ofList (cs.map SpelledChar.char)

mutual

def Spelled.text : Spelled → List Char
  | .null => "null".toList
  | .bool b => if b then "true".toList else "false".toList
  | .num n => n.literal
  | .str cs => quotedText cs
  | .emptyArr gap => '[' :: (gap.val ++ [']'])
  | .arr items => '[' :: (items.text ++ [']'])
  | .emptyObj gap => '\x7b' :: (gap.val ++ ['\x7d'])
  | .obj members => '\x7b' :: (members.text ++ ['\x7d'])

def SpelledItems.text : SpelledItems → List Char
  | .last before v after => before.val ++ v.text ++ after.val
  | .next before v after rest => before.val ++ v.text ++ after.val ++ ',' :: rest.text

def SpelledMembers.text : SpelledMembers → List Char
  | .last before name gap before' v after =>
      before.val ++ quotedText name ++ gap.val ++ ':' :: (before'.val ++ v.text ++ after.val)
  | .next before name gap before' v after rest =>
      before.val ++ quotedText name ++ gap.val ++ ':' :: (before'.val ++ v.text ++ after.val) ++
        ',' :: rest.text

end

mutual

/-- The value that is spelled. -/
def Spelled.value : Spelled → Json
  | .null => .null
  | .bool b => .bool b
  | .num n => .num n.number
  | .str cs => .str (meant cs)
  | .emptyArr _ => .arr []
  | .arr items => .arr items.values
  | .emptyObj _ => .obj []
  | .obj members => .obj members.values

def SpelledItems.values : SpelledItems → List Json
  | .last _ v _ => [v.value]
  | .next _ v _ rest => v.value :: rest.values

def SpelledMembers.values : SpelledMembers → List (String × Json)
  | .last _ name _ _ v _ => [(meant name, v.value)]
  | .next _ name _ _ v _ rest => (meant name, v.value) :: rest.values

end

/-- A text with one value and white space around it. -/
structure SpelledText where
  before : Space
  spelled : Spelled
  after : Space

namespace SpelledText

def text (t : SpelledText) : String :=
  String.ofList (t.before.val ++ (t.spelled.text ++ t.after.val))

def value (t : SpelledText) : Json := t.spelled.value

end SpelledText

/-! ## Number literals in front of other characters -/

variable {cs left rest : List Char}

theorem readDigits_of_endsNumber {ds : List Char} (h : readDigits cs = some (ds, left))
    (hrest : EndsNumber rest) : readDigits (cs ++ rest) = some (ds, left ++ rest) := by
  have htake : (cs ++ rest).takeWhile Char.isDigit = cs.takeWhile Char.isDigit := by
    rw [List.takeWhile_append, hrest.takeWhile]
    split
    · next hall => rw [List.append_nil, (List.takeWhile_prefix _).eq_of_length hall]
    · rfl
  have hdrop : (cs ++ rest).dropWhile Char.isDigit = cs.dropWhile Char.isDigit ++ rest := by
    rw [List.dropWhile_append, hrest.dropWhile]
    split
    · next hnone => rw [List.isEmpty_iff.mp hnone, List.nil_append]
    · rfl
  rw [readDigits] at h ⊢
  rw [htake, hdrop]
  cases hds : cs.takeWhile Char.isDigit with
  | nil =>
      rw [hds] at h
      cases h
  | cons d ds' =>
      rw [hds] at h
      cases h
      rfl

theorem readFraction_of_endsNumber {fraction : Option (List Char)}
    (h : readFraction cs = some (fraction, left)) (hrest : EndsNumber rest) :
    readFraction (cs ++ rest) = some (fraction, left ++ rest) := by
  cases cs with
  | nil =>
      cases h
      exact hrest.readFraction
  | cons c cs =>
      by_cases hpoint : c = '.'
      · subst hpoint
        obtain ⟨⟨ds, left'⟩, hdigits, heq⟩ := Option.map_eq_some_iff.mp h
        cases heq
        rw [List.cons_append, readFraction, readDigits_of_endsNumber hdigits hrest]
        rfl
      · have hkeep (tail : List Char) : readFraction (c :: tail) = some (none, c :: tail) := by
          rw [readFraction]
          rintro tail' heq
          exact hpoint (List.cons.inj heq).1
        rw [hkeep] at h
        cases h
        exact hkeep _

theorem splitSign_append (hne : cs ≠ []) :
    Double.splitSign (cs ++ rest) =
      ((Double.splitSign cs).1, (Double.splitSign cs).2 ++ rest) := by
  cases cs with
  | nil => exact absurd rfl hne
  | cons c cs =>
      rw [List.cons_append]
      unfold Double.splitSign
      split
      · next heq => cases heq; rfl
      · next heq => cases heq; rfl
      · next hminus hplus =>
          split
          · next heq => cases heq; exact absurd rfl (hminus _)
          · next heq => cases heq; exact absurd rfl (hplus _)
          · rfl

theorem readExponent_of_endsNumber {power : Option Int}
    (h : readExponent cs = some (power, left)) (hrest : EndsNumber rest) :
    readExponent (cs ++ rest) = some (power, left ++ rest) := by
  cases cs with
  | nil =>
      cases h
      exact hrest.readExponent
  | cons c cs =>
      rw [List.cons_append]
      simp only [readExponent] at h ⊢
      by_cases he : c = 'e' ∨ c = 'E'
      · rw [if_pos he] at h ⊢
        obtain ⟨⟨ds, left'⟩, hdigits, heq⟩ := Option.map_eq_some_iff.mp h
        cases heq
        have hne : cs ≠ [] := by
          rintro rfl
          cases hdigits
        rw [splitSign_append hne]
        simp only
        rw [readDigits_of_endsNumber hdigits hrest]
        rfl
      · rw [if_neg he] at h ⊢
        cases h
        rfl

theorem readMagnitude_eq_some_iff {negative : Bool} {n : Number} :
    readMagnitude negative cs = some (n, left) ↔
      ∃ whole fraction power behind behind', readDigits cs = some (whole, behind) ∧
        ¬(whole.head? = some '0' ∧ 1 < whole.length) ∧
        readFraction behind = some (fraction, behind') ∧
        readExponent behind' = some (power, left) ∧
        Literal.number? negative ⟨whole, fraction, power⟩ = some n := by
  rw [readMagnitude, Option.bind_eq_some_iff]
  constructor
  · rintro ⟨⟨⟨whole, fraction, power⟩, left'⟩, hliteral, h⟩
    obtain ⟨number, hnumber, heq⟩ := Option.map_eq_some_iff.mp h
    obtain ⟨behind, behind', hwhole, hlead, hfraction, hpower⟩ :=
      readLiteral_eq_some_iff.mp hliteral
    cases heq
    exact ⟨whole, fraction, power, behind, behind', hwhole, hlead, hfraction, hpower, hnumber⟩
  · rintro ⟨whole, fraction, power, behind, behind', hwhole, hlead, hfraction, hpower, hnumber⟩
    refine ⟨(⟨whole, fraction, power⟩, left), readLiteral_eq_some_iff.mpr
      ⟨behind, behind', hwhole, hlead, hfraction, hpower⟩, ?_⟩
    simp only [hnumber, Option.map_some]

theorem readMagnitude_of_endsNumber {negative : Bool} {n : Number}
    (h : readMagnitude negative cs = some (n, left)) (hrest : EndsNumber rest) :
    readMagnitude negative (cs ++ rest) = some (n, left ++ rest) := by
  obtain ⟨whole, fraction, power, behind, behind', hwhole, hlead, hfraction, hpower, hnumber⟩ :=
    readMagnitude_eq_some_iff.mp h
  exact readMagnitude_eq_some_iff.mpr ⟨whole, fraction, power, behind ++ rest, behind' ++ rest,
    readDigits_of_endsNumber hwhole hrest, hlead, readFraction_of_endsNumber hfraction hrest,
    readExponent_of_endsNumber hpower hrest, hnumber⟩

/-- A number literal is read whatever comes behind it, if that does not go on with it. -/
theorem readNumber_of_endsNumber {n : Number} (h : readNumber cs = some (n, left))
    (hrest : EndsNumber rest) : readNumber (cs ++ rest) = some (n, left ++ rest) := by
  cases cs with
  | nil => cases h
  | cons c cs =>
      by_cases hminus : c = '-'
      · subst hminus
        rw [readNumber_minus] at h
        rw [List.cons_append, readNumber_minus]
        exact readMagnitude_of_endsNumber h hrest
      · have hhead (tail : List Char) : (c :: tail).head? ≠ some '-' := fun heq =>
          hminus (Option.some.inj heq)
        rw [readNumber_of_head (hhead cs)] at h
        rw [List.cons_append, readNumber_of_head (hhead _)]
        exact readMagnitude_of_endsNumber h hrest

/-! ## The characters of a number literal -/

/-- The characters that number literals are made of. -/
def isNumeral (c : Char) : Bool :=
  c.isDigit || c == '.' || c == 'e' || c == 'E' || c == '+' || c == '-'

theorem exists_of_readDigits {ds : List Char} (h : readDigits cs = some (ds, left)) :
    cs = ds ++ left ∧ ds ≠ [] ∧ ∀ c ∈ ds, c.isDigit = true := by
  rw [readDigits] at h
  cases hds : cs.takeWhile Char.isDigit with
  | nil =>
      rw [hds] at h
      cases h
  | cons d ds' =>
      rw [hds] at h
      cases h
      refine ⟨?_, List.cons_ne_nil _ _, fun c hc => ?_⟩
      · rw [← hds, List.takeWhile_append_dropWhile]
      · rw [← hds] at hc
        exact List.mem_takeWhile_imp hc

theorem isNumeral_of_isDigit {c : Char} (h : c.isDigit = true) : isNumeral c = true := by
  simp [isNumeral, h]

theorem toNat_of_isDigit {c : Char} (h : c.isDigit = true) : 48 ≤ c.toNat ∧ c.toNat ≤ 57 := by
  simp only [Char.isDigit, Bool.and_eq_true, decide_eq_true_eq] at h
  exact ⟨UInt32.le_iff_toNat_le.mp h.1, UInt32.le_iff_toNat_le.mp h.2⟩

theorem exists_of_readFraction {fraction : Option (List Char)}
    (h : readFraction cs = some (fraction, left)) :
    ∃ taken, cs = taken ++ left ∧ ∀ c ∈ taken, isNumeral c = true := by
  unfold readFraction at h
  split at h
  · obtain ⟨⟨ds, left'⟩, hdigits, heq⟩ := Option.map_eq_some_iff.mp h
    cases heq
    obtain ⟨hcs, -, hds⟩ := exists_of_readDigits hdigits
    exact ⟨'.' :: ds, by rw [hcs, List.cons_append],
      List.forall_mem_cons.mpr ⟨by decide, fun c hc => isNumeral_of_isDigit (hds c hc)⟩⟩
  · cases h
    exact ⟨[], rfl, by simp⟩

theorem exists_of_splitSign (cs : List Char) :
    ∃ taken, cs = taken ++ (Double.splitSign cs).2 ∧ ∀ c ∈ taken, isNumeral c = true := by
  unfold Double.splitSign
  split
  · exact ⟨['-'], rfl, by simp [isNumeral]⟩
  · exact ⟨['+'], rfl, by simp [isNumeral]⟩
  · exact ⟨[], rfl, by simp⟩

theorem exists_of_readExponent {power : Option Int} (h : readExponent cs = some (power, left)) :
    ∃ taken, cs = taken ++ left ∧ ∀ c ∈ taken, isNumeral c = true := by
  cases cs with
  | nil =>
      cases h
      exact ⟨[], rfl, by simp⟩
  | cons c cs =>
      simp only [readExponent] at h
      by_cases he : c = 'e' ∨ c = 'E'
      · rw [if_pos he] at h
        obtain ⟨⟨ds, left'⟩, hdigits, heq⟩ := Option.map_eq_some_iff.mp h
        cases heq
        obtain ⟨sign, hsign, hsignChars⟩ := exists_of_splitSign cs
        obtain ⟨hrest, -, hds⟩ := exists_of_readDigits hdigits
        refine ⟨c :: (sign ++ ds), ?_, ?_⟩
        · rw [List.cons_append, List.append_assoc, ← hrest, ← hsign]
        · refine List.forall_mem_cons.mpr ⟨by rcases he with rfl | rfl <;> decide, ?_⟩
          exact List.forall_mem_append.mpr ⟨hsignChars, fun c hc => isNumeral_of_isDigit (hds c hc)⟩
      · rw [if_neg he] at h
        cases h
        exact ⟨[], rfl, by simp⟩

/-- Behind its sign a number literal is a digit with numerals behind it. -/
theorem exists_of_readMagnitude {negative : Bool} {n : Number}
    (h : readMagnitude negative cs = some (n, left)) :
    ∃ d taken, cs = d :: taken ++ left ∧ d.isDigit = true ∧ ∀ c ∈ taken, isNumeral c = true := by
  obtain ⟨whole, fraction, power, behind, behind', hwhole, -, hfraction, hpower, -⟩ :=
    readMagnitude_eq_some_iff.mp h
  obtain ⟨hcs, hne, hdigits⟩ := exists_of_readDigits hwhole
  obtain ⟨taken, hbehind, htaken⟩ := exists_of_readFraction hfraction
  obtain ⟨taken', hbehind', htaken'⟩ := exists_of_readExponent hpower
  cases whole with
  | nil => exact absurd rfl hne
  | cons d ds =>
      obtain ⟨hd, hds⟩ := List.forall_mem_cons.mp hdigits
      refine ⟨d, ds ++ taken ++ taken', ?_, hd, ?_⟩
      · simp only [hcs, hbehind, hbehind', List.cons_append, List.append_assoc]
      · exact List.forall_mem_append.mpr ⟨List.forall_mem_append.mpr
          ⟨fun c hc => isNumeral_of_isDigit (hds c hc), htaken⟩, htaken'⟩

/-- A number literal is a digit with numerals behind it, behind an optional minus. -/
theorem SpelledNumber.literal_eq (n : SpelledNumber) :
    ∃ sign d taken, n.literal = sign ++ d :: taken ∧ (sign = [] ∨ sign = ['-']) ∧
      d.isDigit = true ∧ ∀ c ∈ taken, isNumeral c = true := by
  have hreads := n.reads
  by_cases hminus : n.literal.head? = some '-'
  · obtain ⟨digits, hcs⟩ := List.head?_eq_some_iff.mp hminus
    rw [hcs, readNumber_minus] at hreads
    obtain ⟨d, taken, hdigits, hd, htaken⟩ := exists_of_readMagnitude hreads
    exact ⟨['-'], d, taken, by rw [hcs, hdigits, List.append_nil]; rfl, .inr rfl, hd, htaken⟩
  · rw [readNumber_of_head hminus] at hreads
    obtain ⟨d, taken, hdigits, hd, htaken⟩ := exists_of_readMagnitude hreads
    exact ⟨[], d, taken, by rw [hdigits, List.append_nil]; rfl, .inl rfl, hd, htaken⟩

end Json

namespace Fragment

open Json (Space SpelledChar SpelledNumber Spelled SpelledItems SpelledMembers EndsNumber)

/-! ## Texts and white space -/

/-- Spelled characters are read up to and with the closing quote. -/
theorem readText_spelled (cs : List SpelledChar) (rest : List Char) :
    readText (cs.flatMap SpelledChar.text ++ '"' :: rest) =
      some (cs.map SpelledChar.char, rest) := by
  induction cs with
  | nil => simp [readText]
  | cons c cs ih =>
      rw [List.flatMap_cons, List.append_assoc, List.map_cons]
      cases c with
      | plain c bare =>
          obtain ⟨hcontrol, -, hback⟩ := bare
          simp [SpelledChar.text, SpelledChar.char, readText, hback,
            Nat.not_lt.mpr hcontrol, ih]
      | short letter c reads =>
          have hletter : letter ≠ 'u' := by
            rintro rfl
            cases reads
          simp [SpelledChar.text, SpelledChar.char, readText, hletter, reads, ih]
      | unit a b c d u reads whole =>
          simp [SpelledChar.text, SpelledChar.char, readText, reads, whole.1, whole.2, ih]
      | pair a b c d lead reads e f g h trail reads' halves =>
          simp [SpelledChar.text, SpelledChar.char, readText, reads, reads', halves.1, halves.2, ih]

theorem skipSpace_append (gap : Space) (cs : List Char) :
    skipSpace (gap.val ++ cs) = skipSpace cs := by
  rw [skipSpace, List.dropWhile_append_of_pos gap.property, skipSpace]

theorem skipSpace_append_cons (gap : Space) {c : Char} (h : isSpace c = false) (cs : List Char) :
    skipSpace (gap.val ++ c :: cs) = c :: cs := by
  rw [skipSpace_append, skipSpace_cons h]

theorem readValue_append (gap : Space) (level : Nat) (cs : List Char) :
    readValue level (gap.val ++ cs) = readValue level cs := by
  rw [← readValue_skipSpace, skipSpace_append, readValue_skipSpace]

/-- White space ends a number. -/
theorem endsNumber_append (gap : Space) {rest : List Char} (h : EndsNumber rest) :
    EndsNumber (gap.val ++ rest) := by
  obtain ⟨cs, hcs⟩ := gap
  cases cs with
  | nil => exact h
  | cons c cs =>
      have hc := hcs c List.mem_cons_self
      intro d hd
      obtain rfl : c = d := Option.some.inj hd
      simp only [isSpace, Bool.or_eq_true, beq_iff_eq] at hc
      rcases hc with ((rfl | rfl) | rfl) | rfl <;> decide

/-! ## Values -/

/-- A spelled value starts with no white space and with no closing bracket. -/
theorem head_text (v : Spelled) :
    ∃ c tail, v.text = c :: tail ∧ isSpace c = false ∧ c ≠ ']' := by
  cases v with
  | null => exact ⟨'n', _, rfl, by decide, by decide⟩
  | bool b =>
      cases b with
      | true => exact ⟨'t', _, rfl, by decide, by decide⟩
      | false => exact ⟨'f', _, rfl, by decide, by decide⟩
  | num n =>
      obtain ⟨c, hhead, hother⟩ := head_of_readNumber n.reads
      obtain ⟨tail, htail⟩ := List.head?_eq_some_iff.mp hhead
      exact ⟨c, tail, htail, isSpace_eq_false hother, hother ']' (by decide)⟩
  | str cs => exact ⟨'"', _, rfl, by decide, by decide⟩
  | emptyArr gap => exact ⟨'[', _, rfl, by decide, by decide⟩
  | arr items => exact ⟨'[', _, rfl, by decide, by decide⟩
  | emptyObj gap => exact ⟨'\x7b', _, rfl, by decide, by decide⟩
  | obj members => exact ⟨'\x7b', _, rfl, by decide, by decide⟩

theorem skipSpace_items_ne (items : SpelledItems) (behind tail : List Char) :
    skipSpace (items.text ++ behind) ≠ ']' :: tail := by
  have hstart (before : Space) (v : Spelled) (more : List Char) :
      skipSpace (before.val ++ (v.text ++ more)) ≠ ']' :: tail := by
    obtain ⟨c, cs, hcs, hspace, hclose⟩ := head_text v
    rw [hcs, List.cons_append, skipSpace_append_cons before hspace]
    exact fun heq => hclose (List.cons.inj heq).1
  cases items with
  | last before v after =>
      simp only [SpelledItems.text, List.append_assoc]
      exact hstart before v _
  | next before v after rest =>
      simp only [SpelledItems.text, List.append_assoc]
      exact hstart before v _

/-- Up to its value a member is its name between quotes and a colon. -/
theorem skipSpace_member (before : Space) (name : List SpelledChar) (more : List Char) :
    skipSpace (before.val ++ (Json.quotedText name ++ more)) =
      '"' :: (name.flatMap SpelledChar.text ++ '"' :: more) := by
  simp only [Json.quotedText, List.cons_append, List.append_assoc, List.nil_append]
  exact skipSpace_append_cons before (by decide) _

theorem length_values_le (items : SpelledItems) :
    items.values.length ≤ items.text.countP (fun c => !isSpace c) + 1 := by
  cases items with
  | last before v after => simp [SpelledItems.values]
  | next before v after rest =>
      have hrest := length_values_le rest
      have hcomma : (!isSpace ',') = true := by decide
      simp only [SpelledItems.values, SpelledItems.text, List.length_cons, List.countP_append,
        List.countP_cons, hcomma, if_true]
      omega

theorem length_members_le (members : SpelledMembers) :
    members.values.length ≤ members.text.countP (fun c => !isSpace c) + 1 := by
  cases members with
  | last before name gap before' v after => simp [SpelledMembers.values]
  | next before name gap before' v after rest =>
      have hrest := length_members_le rest
      have hcomma : (!isSpace ',') = true := by decide
      simp only [SpelledMembers.values, SpelledMembers.text, List.length_cons, List.countP_append,
        List.countP_cons, hcomma, if_true]
      omega

mutual

/-- A spelled value is read as the value, whatever comes behind it. -/
theorem readValue_spelled (level : Nat) : ∀ v : Spelled, v.value.depth ≤ level →
    ∀ rest, EndsNumber rest → readValue level (v.text ++ rest) = (ofJson v.value, some rest)
  | .null, _, rest, _ => by
      simp [Spelled.text, Spelled.value, readValue.eq_def, skipSpace, isSpace, ofJson]
  | .bool true, _, rest, _ => by
      simp [Spelled.text, Spelled.value, readValue.eq_def, skipSpace, isSpace, ofJson]
  | .bool false, _, rest, _ => by
      simp [Spelled.text, Spelled.value, readValue.eq_def, skipSpace, isSpace, ofJson]
  | .num n, _, rest, hrest =>
      readValue_of_readNumber (Json.readNumber_of_endsNumber n.reads hrest) level
  | .str cs, _, rest, _ => by
      have hread := readText_spelled cs rest
      simp [Spelled.text, Spelled.value, Json.quotedText, Json.meant, readValue.eq_def, skipSpace,
        isSpace, hread, ofJson]
  | .emptyArr gap, hdepth, rest, _ => by
      obtain ⟨level, rfl⟩ := Nat.exists_eq_succ_of_ne_zero (Nat.ne_zero_of_lt hdepth)
      have hclose := skipSpace_append_cons gap (c := ']') (by decide) rest
      simp [Spelled.text, Spelled.value, readValue.eq_def, skipSpace_cons, isSpace, hclose, ofJson,
        ofItems]
  | .arr items, hdepth, rest, _ => by
      obtain ⟨level, rfl⟩ := Nat.exists_eq_succ_of_ne_zero (Nat.ne_zero_of_lt hdepth)
      have hitems := readItems_spelled level items (Nat.le_of_succ_le_succ hdepth)
      simp only [Spelled.text, Spelled.value, ofJson, List.cons_append, List.append_assoc,
        List.nil_append]
      apply readValue_arr
      · exact skipSpace_items_ne items _
      · apply hitems
        have hcount := length_values_le items
        have hskip := countP_le_length_skipSpace (items.text ++ ']' :: rest)
        rw [List.countP_append] at hskip
        omega
  | .emptyObj gap, hdepth, rest, _ => by
      obtain ⟨level, rfl⟩ := Nat.exists_eq_succ_of_ne_zero (Nat.ne_zero_of_lt hdepth)
      have hclose := skipSpace_append_cons gap (c := '\x7d') (by decide) rest
      simp [Spelled.text, Spelled.value, readValue.eq_def, skipSpace_cons, isSpace, hclose, ofJson,
        ofMembers]
  | .obj members, hdepth, rest, _ => by
      obtain ⟨level, rfl⟩ := Nat.exists_eq_succ_of_ne_zero (Nat.ne_zero_of_lt hdepth)
      have hmembers := readMembers_spelled level members (Nat.le_of_succ_le_succ hdepth)
      simp only [Spelled.text, Spelled.value, ofJson, List.cons_append, List.append_assoc,
        List.nil_append]
      apply readValue_obj
      · intro tail heq
        cases members <;>
          simp only [SpelledMembers.text, List.append_assoc, skipSpace_member] at heq <;>
          cases (List.cons.inj heq).1
      · apply hmembers
        have hcount := length_members_le members
        have hskip := countP_le_length_skipSpace (members.text ++ '\x7d' :: rest)
        rw [List.countP_append] at hskip
        omega

theorem readItems_spelled (level : Nat) : ∀ items : SpelledItems,
    Json.depthItems items.values ≤ level → ∀ rounds, items.values.length ≤ rounds → ∀ rest,
    readItems (readValue level) rounds (items.text ++ ']' :: rest) =
      (ofItems items.values, some rest)
  | .last before v after, hdepth, rounds, hrounds, rest => by
      obtain ⟨rounds, rfl⟩ := Nat.exists_eq_succ_of_ne_zero (Nat.ne_zero_of_lt hrounds)
      have hend : EndsNumber (']' :: rest) := by simp [EndsNumber]
      have hvalue := readValue_spelled level v (Nat.le_trans (Nat.le_max_left _ _) hdepth) _
        (endsNumber_append after hend)
      simp only [SpelledItems.text, SpelledItems.values, List.append_assoc]
      exact readItems_last ((readValue_append before level _).trans hvalue)
        (skipSpace_append_cons after (by decide) rest) rounds
  | .next before v after items, hdepth, rounds, hrounds, rest => by
      obtain ⟨rounds, rfl⟩ := Nat.exists_eq_succ_of_ne_zero (Nat.ne_zero_of_lt hrounds)
      obtain ⟨hfirst, hothers⟩ := Nat.max_le.mp hdepth
      have hvalue := readValue_spelled level v hfirst _
        (endsNumber_append after (endsNumber_comma (items.text ++ ']' :: rest)))
      have hnext := readItems_spelled level items hothers rounds
        (Nat.le_of_succ_le_succ hrounds) rest
      simp only [SpelledItems.text, SpelledItems.values, List.append_assoc, List.cons_append]
      exact readItems_next ((readValue_append before level _).trans hvalue)
        (skipSpace_append_cons after (by decide) _) hnext

theorem readMembers_spelled (level : Nat) : ∀ members : SpelledMembers,
    Json.depthMembers members.values ≤ level → ∀ rounds, members.values.length ≤ rounds → ∀ rest,
    readMembers (readValue level) rounds (members.text ++ '\x7d' :: rest) =
      (ofMembers members.values, some rest)
  | .last before name gap before' v after, hdepth, rounds, hrounds, rest => by
      obtain ⟨rounds, rfl⟩ := Nat.exists_eq_succ_of_ne_zero (Nat.ne_zero_of_lt hrounds)
      have hend : EndsNumber ('\x7d' :: rest) := by simp [EndsNumber]
      have hvalue := readValue_spelled level v (Nat.le_trans (Nat.le_max_left _ _) hdepth) _
        (endsNumber_append after hend)
      simp only [SpelledMembers.text, SpelledMembers.values, List.append_assoc, List.cons_append]
      exact readMembers_last (skipSpace_member before name _) (readText_spelled name _)
        (skipSpace_append_cons gap (by decide) _) ((readValue_append before' level _).trans hvalue)
        (skipSpace_append_cons after (by decide) rest) rounds
  | .next before name gap before' v after members, hdepth, rounds, hrounds, rest => by
      obtain ⟨rounds, rfl⟩ := Nat.exists_eq_succ_of_ne_zero (Nat.ne_zero_of_lt hrounds)
      obtain ⟨hfirst, hothers⟩ := Nat.max_le.mp hdepth
      have hvalue := readValue_spelled level v hfirst _
        (endsNumber_append after (endsNumber_comma (members.text ++ '\x7d' :: rest)))
      have hnext := readMembers_spelled level members hothers rounds
        (Nat.le_of_succ_le_succ hrounds) rest
      simp only [SpelledMembers.text, SpelledMembers.values, List.append_assoc, List.cons_append]
      exact readMembers_next (skipSpace_member before name _) (readText_spelled name _)
        (skipSpace_append_cons gap (by decide) _) ((readValue_append before' level _).trans hvalue)
        (skipSpace_append_cons after (by decide) _) hnext

end

end Fragment

namespace Json

/-- A text with a spelled value is read as the value, unless that is too deep. -/
theorem parse?_spelled (t : SpelledText) (hdepth : t.value.depth ≤ Fragment.maxDepth) :
    parse? t.text = some t.value := by
  have hend : EndsNumber (t.after.val ++ []) := Fragment.endsNumber_append t.after endsNumber_nil
  have hread : Fragment.readValue Fragment.maxDepth t.text.toList =
      (Fragment.ofJson t.value, some t.after.val) := by
    rw [List.append_nil] at hend
    rw [SpelledText.text, String.toList_ofList, Fragment.readValue_append]
    exact Fragment.readValue_spelled Fragment.maxDepth t.spelled hdepth t.after.val hend
  have hover : Fragment.skipSpace t.after.val = [] := by
    rw [← List.append_nil t.after.val, Fragment.skipSpace_append]
    rfl
  rw [parse?, Fragment.ofText, hread]
  simp only [hover, List.isEmpty_nil, Fragment.toJson?_ofJson]

end Json

end Stepwise
