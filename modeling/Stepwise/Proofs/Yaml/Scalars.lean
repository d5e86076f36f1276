import Stepwise.Proofs.Json.Spelled
import Stepwise.Yaml.Token

/-!
# Spelled scalars in YAML

White space, texts between quotes and words are read by the YAML reader as JSON has them, where the
two notations agree: characters that YAML allows and that end no line, and escapes other than those
of surrogate pairs.
-/

namespace Stepwise

open Stepwise.Json (Space SpelledChar quotedText meant)

/-- A spelled character that is the same in YAML. -/
def Json.SpelledChar.IsCommon : SpelledChar → Prop
  | .plain c _ => Yaml.isAllowed c = true ∧ Yaml.isBreak c = false
  | .short _ _ _ => True
  | .unit _ _ _ _ _ _ _ => True
  | .pair _ _ _ _ _ _ _ _ _ _ _ _ _ => False

instance : DecidablePred SpelledChar.IsCommon
  | .plain _ _ => inferInstanceAs (Decidable (_ ∧ _))
  | .short _ _ _ => inferInstanceAs (Decidable True)
  | .unit _ _ _ _ _ _ _ => inferInstanceAs (Decidable True)
  | .pair _ _ _ _ _ _ _ _ _ _ _ _ _ => inferInstanceAs (Decidable False)

/-- A spelled character that is a blank as it stands. -/
def Json.SpelledChar.isGap : SpelledChar → Bool
  | .plain c _ => Yaml.isBlank c
  | _ => false

namespace Yaml

/-! ## Cursors -/

namespace Cursor

@[simp] theorem rest_skip (c : Cursor) (n : Nat) : (c.skip n).rest = c.rest.drop n := rfl

@[simp] theorem line_skip (c : Cursor) (n : Nat) : (c.skip n).line = c.line := rfl

@[simp] theorem index_skip (c : Cursor) (n : Nat) : (c.skip n).index = c.index + n := rfl

@[simp] theorem skip_zero (c : Cursor) : c.skip 0 = c := rfl

@[simp] theorem skip_skip (c : Cursor) (m n : Nat) : (c.skip m).skip n = c.skip (m + n) := by
  simp only [skip, List.drop_drop, Nat.add_assoc]

variable {c : Cursor} {char : Char} {tail : List Char}

theorem peek?_of_rest (h : c.rest = char :: tail) : c.peek? = some char := by
  rw [peek?, h]
  rfl

theorem peek?_eq_none (h : c.rest = []) : c.peek? = none := by
  rw [peek?, h]
  rfl

theorem isAt_of_rest (h : c.rest = char :: tail) (other : Char) :
    c.isAt other = (char == other) := by
  rw [isAt, peek?_of_rest h]
  rfl

theorem isAtBlank_of_rest (h : c.rest = char :: tail) : c.isAtBlank = isBlank char := by
  rw [isAtBlank, peek?_of_rest h]

theorem isAtBreak_of_rest (h : c.rest = char :: tail) : c.isAtBreak = isBreak char := by
  rw [isAtBreak, peek?_of_rest h]

/-- The edge of a document stands at the start of a line. -/
theorem isAtEdge_of_column (h : 0 < c.column) : c.isAtEdge = false := by
  have hcolumn : (c.column == 0) = false := beq_false_of_ne (Nat.ne_of_gt h)
  simp only [isAtEdge, isAtMark, hcolumn, Bool.false_and, Bool.or_self]

/-- The edge of a document is a mark, and no other character. -/
theorem isAtEdge_of_rest (h : c.rest = char :: tail) (hdash : char ≠ '-') (hdot : char ≠ '.') :
    c.isAtEdge = false := by
  simp [isAtEdge, isAtMark, isAt_of_rest h, hdash, hdot]

end Cursor

/-! ## Characters of a class -/

/-- A list is a front of a class with a rest that does not start with the class. -/
theorem exists_front {α : Type} (inClass : α → Bool) (xs : List α) :
    ∃ front rest, xs = front ++ rest ∧ (∀ x ∈ front, inClass x = true) ∧
      ∀ x ∈ rest.head?, inClass x = false := by
  refine ⟨xs.takeWhile inClass, xs.dropWhile inClass, List.takeWhile_append_dropWhile.symm,
    fun x hx => List.mem_takeWhile_imp hx, fun x hx => ?_⟩
  have hhead := List.head?_dropWhile_not inClass xs
  rw [Option.mem_def.mp hx] at hhead
  exact hhead

/-- What is left when the characters of a class are skipped. -/
theorem Cursor.skipAll_append {c : Cursor} {front rest : List Char} {inClass : Char → Bool}
    (hfront : ∀ d ∈ front, inClass d = true) (hrest : c.rest = front ++ rest)
    (hstop : ∀ d ∈ rest.head?, inClass d = false) : c.skipAll inClass = c.skip front.length := by
  have htake : rest.takeWhile inClass = [] := by
    cases rest with
    | nil => rfl
    | cons d rest =>
        have hd := hstop d rfl
        simp [hd]
  rw [Cursor.skipAll, Cursor.span, hrest, List.takeWhile_append_of_pos hfront, htake,
    List.append_nil]

/-! ## White space -/

theorem isBlank_or_isBreak_of_isSpace {c : Char} (h : Fragment.isSpace c = true) :
    isBlank c = true ∨ isBreak c = true := by
  simp only [Fragment.isSpace, Bool.or_eq_true, beq_iff_eq] at h
  rcases h with ((rfl | rfl) | rfl) | rfl <;> decide

/-- Blanks inside a line are gathered up to what is no white space. -/
theorem Gap.read_blanks {bs : List Char} (hbs : ∀ b ∈ bs, isBlank b = true) {char : Char}
    (hblank : isBlank char = false) (hbreak : isBreak char = false) (tail : List Char) :
    ∀ (steps : Nat) (before : List Char) (c : Cursor), bs.length < steps →
      c.rest = bs ++ char :: tail →
      Gap.read Option.none steps ⟨before, false, [], []⟩ c =
        some (⟨before ++ bs, false, [], []⟩, c.skip bs.length) := by
  induction bs with
  | nil =>
      intro steps before c hsteps hrest
      obtain ⟨steps, rfl⟩ := Nat.exists_eq_succ_of_ne_zero (Nat.ne_zero_of_lt hsteps)
      simp only [Gap.read, Cursor.peek?_of_rest hrest, hblank, hbreak, Bool.false_eq_true, if_false,
        List.append_nil, List.length_nil, Cursor.skip_zero]
  | cons b bs ih =>
      intro steps before c hsteps hrest
      obtain ⟨hb, hothers⟩ := List.forall_mem_cons.mp hbs
      obtain ⟨steps, rfl⟩ := Nat.exists_eq_succ_of_ne_zero (Nat.ne_zero_of_lt hsteps)
      have hnext : (c.skip 1).rest = bs ++ char :: tail := by
        rw [Cursor.rest_skip, hrest]
        rfl
      have hread := ih hothers steps (before ++ [b]) (c.skip 1) (Nat.lt_of_succ_lt_succ hsteps)
        hnext
      simp only [Gap.read, Cursor.peek?_of_rest hrest, hb, if_true, Bool.false_eq_true, if_false,
        hread, Cursor.skip_skip, List.append_assoc, List.singleton_append, List.length_cons,
        Nat.add_comm 1]

/-- What goes on behind white space: nothing, or what is neither white space nor a comment, and no
byte order mark. -/
def GoesOn (tail : List Char) : Prop :=
  ∀ c ∈ tail.head?, Fragment.isSpace c = false ∧ isBlank c = false ∧ isBreak c = false ∧
    c ≠ '#' ∧ c ≠ '\ufeff'

/-- Where something goes on there is no comment and no line break. -/
theorem GoesOn.here {tail : List Char} (htail : GoesOn tail) {c : Cursor} (hrest : c.rest = tail) :
    c.isAt '#' = false ∧ c.isAtBreak = false := by
  cases tail with
  | nil =>
      rw [Cursor.isAt, Cursor.isAtBreak, Cursor.peek?_eq_none hrest]
      exact ⟨rfl, rfl⟩
  | cons d tail =>
      obtain ⟨-, -, hbreak, hcomment, -⟩ := htail d rfl
      rw [Cursor.isAt_of_rest hrest, Cursor.isAtBreak_of_rest hrest]
      exact ⟨beq_false_of_ne hcomment, hbreak⟩

/-- A line break takes one character or two, and what is left of white space is white space. -/
theorem Cursor.rest_readBreak {c : Cursor} {char : Char} {cs tail : List Char}
    (hbreak : isBreak char = true) (hrest : c.rest = char :: (cs ++ tail)) (htail : GoesOn tail) :
    ∃ front left, cs = front ++ left ∧ c.readBreak.2.rest = left ++ tail := by
  unfold readBreak
  rw [hrest]
  split
  · next rest heq =>
    cases cs with
    | nil =>
        have hhead : tail.head? = some '\n' := by
          rw [← List.nil_append tail, (List.cons.inj heq).2]
          rfl
        exact absurd (htail '\n' hhead).1 (by decide)
    | cons d cs =>
        refine ⟨[d], cs, rfl, ?_⟩
        exact (List.cons.inj (List.cons.inj heq).2).2.symm
  · next char' rest hne heq =>
    cases heq
    rw [if_pos hbreak]
    exact ⟨[], cs, rfl, rfl⟩
  · next heq => cases heq

/-- The white space behind a word is read up to what goes on. In the outermost block no tab is out
of place. -/
theorem Gap.read_space {tail : List Char} (htail : GoesOn tail) :
    ∀ (steps : Nat) (cs : List Char), (∀ c ∈ cs, Fragment.isSpace c = true) → cs.length < steps →
      ∀ (g : Gap) (c : Cursor), c.rest = cs ++ tail →
      ∃ g' c', Gap.read (some 0) steps g c = some (g', c') ∧ c'.rest = tail
  | 0, _, _, hsteps => absurd hsteps (Nat.not_lt_zero _)
  | steps + 1, [], _, _ => by
      intro g c hrest
      rw [List.nil_append] at hrest
      cases htailEq : tail with
      | nil =>
          rw [htailEq] at hrest
          exact ⟨g, c, by simp only [Gap.read, Cursor.peek?_eq_none hrest], hrest⟩
      | cons d tail' =>
          rw [htailEq] at hrest
          obtain ⟨-, hblank, hbreak, -⟩ := htail d (by rw [htailEq]; rfl)
          refine ⟨g, c, ?_, hrest⟩
          simp only [Gap.read, Cursor.peek?_of_rest hrest, hblank, hbreak, Bool.false_eq_true,
            if_false]
  | steps + 1, d :: cs, hcs, hsteps => by
      intro g c hrest
      obtain ⟨hd, hothers⟩ := List.forall_mem_cons.mp hcs
      have hshort : cs.length < steps := Nat.lt_of_succ_lt_succ hsteps
      have hnext : (c.skip 1).rest = cs ++ tail := by
        rw [Cursor.rest_skip, hrest]
        rfl
      by_cases hblank : isBlank d = true
      · have htab : ((some (0 : Int)).any fun least => decide ((c.column : Int) < least)) = false := by
          simp
        simp only [Gap.read, Cursor.peek?_of_rest hrest, hblank, if_true, htab, Bool.and_false,
          Bool.false_eq_true, if_false]
        split
        · exact Gap.read_space htail steps cs hothers hshort _ _ hnext
        · exact Gap.read_space htail steps cs hothers hshort _ _ hnext
      · have hbreak := (isBlank_or_isBreak_of_isSpace hd).resolve_left hblank
        obtain ⟨front, left, rfl, hleft⟩ := Cursor.rest_readBreak hbreak hrest htail
        have hothers' := (List.forall_mem_append.mp hothers).2
        have hshort' : left.length < steps := by
          rw [List.length_append] at hshort
          omega
        simp only [Gap.read, Cursor.peek?_of_rest hrest, hblank, hbreak, if_true,
          Bool.false_eq_true, if_false]
        split
        · exact Gap.read_space htail steps left hothers' hshort' _ _ hleft
        · exact Gap.read_space htail steps left hothers' hshort' _ _ hleft

/-! ## Texts between quotes -/

namespace Quoted

/-- A digit has the same value in both notations. -/
theorem hexValue?_eq (c : Char) : hexValue? c = Fragment.hexValue? c := by
  have hdigit : c.isDigit = true ↔ '0' ≤ c ∧ c ≤ '9' := by
    simp only [Char.isDigit, Bool.and_eq_true, decide_eq_true_eq]
    exact Iff.rfl
  simp only [hexValue?, Fragment.hexValue?, hdigit]

/-- The number of four digits in a row. -/
theorem hexNumber?_of_unit? {a b c d : Char} {unit : Nat}
    (h : Fragment.unit? a b c d = some unit) : hexNumber? 0 [a, b, c, d] = some unit := by
  simp only [Fragment.unit?, Option.bind_eq_bind, Option.bind_eq_some_iff, Option.pure_def] at h
  obtain ⟨w, ha, x, hb, y, hc, z, hd, heq⟩ := h
  simp only [hexNumber?, hexValue?_eq, ha, hb, hc, hd, Option.bind_some, Nat.zero_mul,
    Nat.zero_add, heq]

theorem hexValue?_lt {c : Char} {v : Nat} (h : Fragment.hexValue? c = some v) : v < 16 := by
  have hle (d : Char) : c ≤ d → c.toNat ≤ d.toNat := fun hcd =>
    UInt32.le_iff_toNat_le.mp (Char.le_def.mp hcd)
  unfold Fragment.hexValue? at h
  split at h
  · next hc =>
    have hbound : c.toNat ≤ 57 := hle '9' hc.2
    cases h
    change c.toNat - 48 < 16
    omega
  · split at h
    · next hc =>
      have hbound : c.toNat ≤ 102 := hle 'f' hc.2
      cases h
      change c.toNat - 97 + 10 < 16
      omega
    · split at h
      · next hc =>
        have hbound : c.toNat ≤ 70 := hle 'F' hc.2
        cases h
        change c.toNat - 65 + 10 < 16
        omega
      · cases h

theorem unit?_lt {a b c d : Char} {unit : Nat} (h : Fragment.unit? a b c d = some unit) :
    unit < 0x10000 := by
  simp only [Fragment.unit?, Option.bind_eq_bind, Option.bind_eq_some_iff, Option.pure_def] at h
  obtain ⟨w, ha, x, hb, y, hc, z, hd, heq⟩ := h
  have hw := hexValue?_lt ha
  have hx := hexValue?_lt hb
  have hy := hexValue?_lt hc
  have hz := hexValue?_lt hd
  cases heq
  omega

/-- A unit that is no half of a pair is a character. -/
theorem charOfCode?_of_unit? {a b c d : Char} {unit : Nat}
    (h : Fragment.unit? a b c d = some unit) (hlead : Text.isLeadUnit unit = false)
    (htrail : Text.isTrailUnit unit = false) : charOfCode? unit = some (Char.ofNat unit) := by
  have hbound := unit?_lt h
  have hvalid : unit.isValidChar := by
    simp only [Text.isLeadUnit, Text.isTrailUnit, Bool.and_eq_false_iff, decide_eq_false_iff_not]
      at hlead htrail
    rw [Nat.isValidChar]
    omega
  rw [charOfCode?, if_pos hvalid]

/-- The escapes of one letter are escapes in YAML too. -/
theorem shortEscape?_of_shortEscape? {letter c : Char}
    (h : Fragment.shortEscape? letter = some c) :
    codeLength? letter = none ∧ shortEscape? letter = some c ∧ isBreak letter = false := by
  unfold Fragment.shortEscape? at h
  split at h <;> cases h <;> decide

theorem peekAt?_of_rest {c : Cursor} {char next : Char} {tail : List Char}
    (h : c.rest = char :: next :: tail) : c.peekAt? 1 = some next := by
  rw [Cursor.peekAt?, h]
  rfl

/-- An escape stands for the same character in both notations. -/
theorem escape?_short {c : Cursor} {letter char : Char} {tail : List Char}
    (h : Fragment.shortEscape? letter = some char) (hrest : c.rest = '\\' :: letter :: tail) :
    escape? c = some (char, c.skip 2) := by
  obtain ⟨hlength, hshort, -⟩ := shortEscape?_of_shortEscape? h
  simp only [escape?, peekAt?_of_rest hrest, hlength, hshort, Option.bind_eq_bind,
    Option.bind_some, Option.map_some]

theorem escape?_unit {c : Cursor} {a b d e : Char} {unit : Nat} {tail : List Char}
    (h : Fragment.unit? a b d e = some unit) (hlead : Text.isLeadUnit unit = false)
    (htrail : Text.isTrailUnit unit = false)
    (hrest : c.rest = '\\' :: 'u' :: a :: b :: d :: e :: tail) :
    escape? c = some (Char.ofNat unit, c.skip 6) := by
  have hlength : codeLength? 'u' = some 4 := rfl
  have hdigits : (c.rest.drop 2).take 4 = [a, b, d, e] := by
    rw [hrest]
    rfl
  have hfour : ¬[a, b, d, e].length < 4 := by simp
  simp only [escape?, peekAt?_of_rest hrest, hlength, hdigits, if_neg hfour,
    hexNumber?_of_unit? h, charOfCode?_of_unit? h hlead htrail, Option.bind_eq_bind,
    Option.bind_some]

/-- One spelled character of a word is read. -/
theorem word_cons {s : SpelledChar} (hcommon : s.IsCommon) (hgap : s.isGap = false) (steps : Nat)
    (back : List Char) {c : Cursor} {tail : List Char} (hrest : c.rest = s.text ++ tail) :
    word .double (steps + 1) back c =
      word .double steps (s.char :: back) (c.skip s.text.length) := by
  cases s with
  | plain char bare =>
      have hquote := bare.2.1
      have hback := bare.2.2
      have hblank : isBlank char = false := hgap
      have hbreak : isBreak char = false := hcommon.2
      have hpeek := Cursor.peek?_of_rest hrest
      simp [word, hpeek, hblank, hbreak, hquote, hback, Style.quote, SpelledChar.char,
        SpelledChar.text]
  | short letter char reads =>
      have hescape := escape?_short reads hrest
      obtain ⟨-, -, hbreak⟩ := shortEscape?_of_shortEscape? reads
      have hpeek := Cursor.peek?_of_rest hrest
      have hnext := peekAt?_of_rest hrest
      have hback : isBlank '\\' = false ∧ isBreak '\\' = false := by decide
      simp [word, hpeek, hnext, hback, hbreak, hescape, Style.quote, SpelledChar.char,
        SpelledChar.text]
  | unit a b d e u reads whole =>
      have hescape := escape?_unit reads whole.1 whole.2 hrest
      have hpeek := Cursor.peek?_of_rest hrest
      have hnext := peekAt?_of_rest hrest
      have hback : isBlank '\\' = false ∧ isBreak '\\' = false ∧ isBreak 'u' = false := by decide
      simp [word, hpeek, hnext, hback, hescape, Style.quote, SpelledChar.char, SpelledChar.text]
  | pair => exact hcommon.elim

/-- A word between quotes ends at a blank or at the closing quote. -/
theorem word_spelled {char : Char} (hstop : isBlank char = true ∨ char = '"') (tail : List Char) :
    ∀ (cs : List SpelledChar), (∀ s ∈ cs, s.IsCommon ∧ s.isGap = false) →
      ∀ (steps : Nat) (back : List Char) (c : Cursor), cs.length < steps →
      c.rest = cs.flatMap SpelledChar.text ++ char :: tail →
      word .double steps back c = some ⟨(cs.map SpelledChar.char).reverse ++ back, false,
        c.skip (cs.flatMap SpelledChar.text).length⟩
  | [], _, steps, back, c, hsteps, hrest => by
      obtain ⟨steps, rfl⟩ := Nat.exists_eq_succ_of_ne_zero (Nat.ne_zero_of_lt hsteps)
      have hpeek := Cursor.peek?_of_rest hrest
      rcases hstop with hblank | rfl
      · simp [word, hpeek, hblank]
      · have hquote : isBlank '"' = false ∧ isBreak '"' = false := by decide
        simp [word, hpeek, hquote, Style.quote]
  | s :: cs, hcs, steps, back, c, hsteps, hrest => by
      obtain ⟨⟨hcommon, hgap⟩, hothers⟩ := List.forall_mem_cons.mp hcs
      obtain ⟨steps, rfl⟩ := Nat.exists_eq_succ_of_ne_zero (Nat.ne_zero_of_lt hsteps)
      rw [List.flatMap_cons, List.append_assoc] at hrest
      have hnext : (c.skip s.text.length).rest = cs.flatMap SpelledChar.text ++ char :: tail := by
        rw [Cursor.rest_skip, hrest, List.drop_left]
      rw [word_cons hcommon hgap steps back hrest, word_spelled hstop tail cs hothers steps _ _
        (Nat.lt_of_succ_lt_succ hsteps) hnext]
      simp only [Cursor.skip_skip, List.flatMap_cons, List.length_append, List.map_cons,
        List.reverse_cons, List.append_assoc, List.singleton_append]

theorem text_of_isGap {s : SpelledChar} (h : s.isGap = true) :
    s.text = [s.char] ∧ isBlank s.char = true := by
  cases s with
  | plain char bare => exact ⟨rfl, h⟩
  | short => cases h
  | unit => cases h
  | pair => cases h

/-- Blanks stand for themselves. -/
theorem flatMap_text_of_isGap : ∀ {cs : List SpelledChar}, (∀ s ∈ cs, s.isGap = true) →
    cs.flatMap SpelledChar.text = cs.map SpelledChar.char ∧
      ∀ b ∈ cs.map SpelledChar.char, isBlank b = true
  | [], _ => ⟨rfl, by simp⟩
  | s :: cs, hcs => by
      obtain ⟨hs, hothers⟩ := List.forall_mem_cons.mp hcs
      obtain ⟨htext, hblank⟩ := text_of_isGap hs
      obtain ⟨htexts, hblanks⟩ := flatMap_text_of_isGap hothers
      rw [List.flatMap_cons, List.map_cons, htext, htexts]
      exact ⟨rfl, List.forall_mem_cons.mpr ⟨hblank, hblanks⟩⟩

/-- Other spelled characters start with no white space. -/
theorem head_text_of_not_isGap {s : SpelledChar} (hcommon : s.IsCommon) (hgap : s.isGap = false) :
    ∃ char tail, s.text = char :: tail ∧ isBlank char = false ∧ isBreak char = false := by
  cases s with
  | plain char bare => exact ⟨char, [], rfl, hgap, hcommon.2⟩
  | short letter => exact ⟨'\\', _, rfl, by decide, by decide⟩
  | unit => exact ⟨'\\', _, rfl, by decide, by decide⟩
  | pair => exact hcommon.elim

/-- The closing quote stands behind a word. -/
theorem readFrom_last {cs : List SpelledChar} (hcs : ∀ s ∈ cs, s.IsCommon ∧ s.isGap = false)
    {steps : Nat} (hsteps : cs.length ≤ steps) (back tail : List Char) {c : Cursor}
    (hcolumn : 0 < c.column) (hrest : c.rest = cs.flatMap SpelledChar.text ++ '"' :: tail) :
    readFrom .double (steps + 1) back c = some (back.reverse ++ cs.map SpelledChar.char,
      c.skip ((cs.flatMap SpelledChar.text).length + 1)) := by
  have hedge : c.isAtEdge = false := Cursor.isAtEdge_of_column hcolumn
  have hend : c.atEnd = false := by
    simp [Cursor.atEnd, hrest]
  have hword := word_spelled (.inr rfl) tail cs hcs (steps + 1) back c (Nat.lt_succ_of_le hsteps)
    hrest
  have hquote : (c.skip (cs.flatMap SpelledChar.text).length).isAt Style.double.quote = true := by
    have hnext : (c.skip (cs.flatMap SpelledChar.text).length).rest = '"' :: tail := by
      rw [Cursor.rest_skip, hrest, List.drop_left]
    rw [Cursor.isAt_of_rest hnext]
    rfl
  simp only [readFrom, hedge, hend, Bool.or_self, Bool.false_eq_true, if_false, hword, hquote,
    if_true, Cursor.skip_skip, List.reverse_append, List.reverse_reverse]

/-- Behind a word and blanks the text goes on. -/
theorem readFrom_next {cs bs : List SpelledChar} (hcs : ∀ s ∈ cs, s.IsCommon ∧ s.isGap = false)
    (hbs : ∀ s ∈ bs, s.isGap = true) (hne : bs ≠ []) {steps : Nat} (hsteps : cs.length ≤ steps)
    (hsteps' : bs.length ≤ steps) {char : Char} (hblank : isBlank char = false)
    (hbreak : isBreak char = false) (back tail : List Char) {c : Cursor} (hcolumn : 0 < c.column)
    (hrest : c.rest = cs.flatMap SpelledChar.text ++ (bs.flatMap SpelledChar.text ++
      char :: tail)) :
    readFrom .double (steps + 1) back c =
      readFrom .double steps (((cs ++ bs).map SpelledChar.char).reverse ++ back)
        (c.skip ((cs ++ bs).flatMap SpelledChar.text).length) := by
  have hedge : c.isAtEdge = false := Cursor.isAtEdge_of_column hcolumn
  have hend : c.atEnd = false := by
    simp [Cursor.atEnd, hrest]
  obtain ⟨htext, hblanks⟩ := flatMap_text_of_isGap hbs
  obtain ⟨b, more, hb⟩ : ∃ b more, bs.map SpelledChar.char = b :: more := by
    cases bs with
    | nil => exact absurd rfl hne
    | cons s bs => exact ⟨_, _, rfl⟩
  have hfirst : isBlank b = true := hblanks b (by rw [hb]; exact List.mem_cons_self)
  have hspace : c.rest = cs.flatMap SpelledChar.text ++ b :: (more ++ char :: tail) := by
    rw [hrest, htext, hb, List.cons_append]
  have hword := word_spelled (.inl hfirst) (more ++ char :: tail) cs hcs (steps + 1) back c
    (Nat.lt_succ_of_le hsteps) hspace
  have hnext : (c.skip (cs.flatMap SpelledChar.text).length).rest =
      bs.map SpelledChar.char ++ char :: tail := by
    rw [Cursor.rest_skip, hrest, List.drop_left, htext]
  have hquote : (c.skip (cs.flatMap SpelledChar.text).length).isAt Style.double.quote = false := by
    rw [hb, List.cons_append] at hnext
    rw [Cursor.isAt_of_rest hnext]
    refine beq_false_of_ne ?_
    rintro rfl
    cases hfirst
  have hgap := Gap.read_blanks hblanks hblank hbreak tail (steps + 1) [] _
    (by rw [List.length_map]; exact Nat.lt_succ_of_le hsteps') hnext
  simp only [readFrom, hedge, hend, Bool.or_self, Bool.false_eq_true, if_false, hword, hquote,
    Gap.none, hgap, Gap.text, List.nil_append, Cursor.skip_skip, List.map_append,
    List.reverse_append, List.flatMap_append, List.length_append, htext, List.append_assoc]

/-- A text between quotes is a word, and blanks with more text behind it if it does not end
there. -/
theorem readFrom_spelled : ∀ (steps : Nat) (cs : List SpelledChar), (∀ s ∈ cs, s.IsCommon) →
    cs.length < steps → ∀ (back tail : List Char) (c : Cursor), 0 < c.column →
    c.rest = cs.flatMap SpelledChar.text ++ '"' :: tail →
    readFrom .double steps back c = some (back.reverse ++ cs.map SpelledChar.char,
      c.skip ((cs.flatMap SpelledChar.text).length + 1))
  | 0, _, _, hsteps => absurd hsteps (Nat.not_lt_zero _)
  | steps + 1, cs, hcs, hsteps => by
      intro back tail c hcolumn hrest
      obtain ⟨word, behind, rfl, hword, hbehind⟩ := exists_front (fun s => !s.isGap) cs
      obtain ⟨hcommon, hcommon'⟩ := List.forall_mem_append.mp hcs
      have hplain : ∀ s ∈ word, s.IsCommon ∧ s.isGap = false := fun s hs =>
        ⟨hcommon s hs, by simpa using hword s hs⟩
      rw [List.length_append] at hsteps
      cases behind with
      | nil =>
          rw [List.append_nil] at hrest ⊢
          exact readFrom_last hplain (by omega) back tail hcolumn hrest
      | cons b behind =>
          have hb : b.isGap = true := by simpa using hbehind b rfl
          obtain ⟨gaps, rest, rfl, hgaps, hother⟩ := exists_front SpelledChar.isGap behind
          obtain ⟨hcommonb, hcommonrest⟩ := List.forall_mem_cons.mp hcommon'
          have hcommonrest' := (List.forall_mem_append.mp hcommonrest).2
          rw [List.length_cons, List.length_append] at hsteps
          -- the blanks end at the closing quote, or where the next word starts
          obtain ⟨char, more, hmore, hblank, hbreak⟩ : ∃ char more,
              rest.flatMap SpelledChar.text ++ '"' :: tail = char :: more ∧
                isBlank char = false ∧ isBreak char = false := by
            cases rest with
            | nil => exact ⟨'"', tail, rfl, by decide, by decide⟩
            | cons s rest =>
                obtain ⟨char, left, htext, hblank, hbreak⟩ :=
                  head_text_of_not_isGap (hcommonrest' s List.mem_cons_self) (hother s rfl)
                exact ⟨char, _, by rw [List.flatMap_cons, htext]; rfl, hblank, hbreak⟩
          have hblanks : ∀ s ∈ b :: gaps, s.isGap = true := List.forall_mem_cons.mpr ⟨hb, hgaps⟩
          have hfits : word.length ≤ steps := by omega
          have hlength : (b :: gaps).length ≤ steps := by
            rw [List.length_cons]
            omega
          have hread := readFrom_next hplain hblanks (List.cons_ne_nil _ _) hfits hlength hblank
            hbreak back more hcolumn
            (by rw [hrest, ← hmore]; simp only [List.flatMap_append, List.flatMap_cons,
              List.append_assoc])
          have hnext : (c.skip ((word ++ b :: gaps).flatMap SpelledChar.text).length).rest =
              rest.flatMap SpelledChar.text ++ '"' :: tail := by
            have hall : (word ++ b :: (gaps ++ rest)).flatMap SpelledChar.text =
                (word ++ b :: gaps).flatMap SpelledChar.text ++ rest.flatMap SpelledChar.text := by
              simp only [List.flatMap_append, List.flatMap_cons, List.append_assoc]
            rw [Cursor.rest_skip, hrest, hall, List.append_assoc, List.drop_left]
          rw [hread, readFrom_spelled steps rest hcommonrest' (by omega) _ tail _
            (Nat.lt_of_lt_of_le hcolumn (Nat.le_add_right _ _)) hnext]
          simp only [Cursor.skip_skip, List.reverse_append, List.reverse_reverse, List.map_append,
            List.map_cons, List.flatMap_append, List.flatMap_cons, List.length_append,
            List.append_assoc, List.cons_append, Nat.add_assoc]

theorem length_le_length_text (cs : List SpelledChar) :
    cs.length ≤ (cs.flatMap SpelledChar.text).length := by
  induction cs with
  | nil => exact Nat.le_refl 0
  | cons s cs ih =>
      have hs : 0 < s.text.length := by
        cases s <;> exact Nat.succ_pos _
      rw [List.flatMap_cons, List.length_append, List.length_cons]
      omega

/-- A text between quotes is read as the text that is meant. -/
theorem read_spelled {cs : List SpelledChar} (hcs : ∀ s ∈ cs, s.IsCommon) {c : Cursor}
    {tail : List Char} (hrest : c.rest = quotedText cs ++ tail) :
    read .double c = some (meant cs, c.skip (quotedText cs).length) := by
  have hrest' : (c.skip 1).rest = cs.flatMap SpelledChar.text ++ '"' :: tail := by
    rw [Cursor.rest_skip, hrest]
    simp [quotedText]
  have hlength : cs.length < c.rest.length + 1 := by
    have hcount := length_le_length_text cs
    rw [hrest, List.length_append, quotedText, List.length_cons, List.length_append]
    omega
  rw [read, readFrom_spelled _ cs hcs hlength [] tail (c.skip 1) (Nat.succ_pos _) hrest']
  simp [quotedText, meant, Nat.add_comm]

end Quoted

/-! ## Words -/

namespace Lexer

/-- Characters of a plain scalar that are no white space, no colon and no mark of a collection. -/
def isWordChar (c : Char) : Bool :=
  !isBlank c && !isBreak c && c != ':' && !",[]\x7b\x7d".toList.contains c

/-- Characters in front of which a word inside brackets ends. -/
def endsWordInFlow (c : Char) : Bool :=
  isBlank c || isBreak c || c == ',' || c == ']' || c == '\x7d'

theorem plainWord_stop {char : Char} (h : endsWordInFlow char = true) {c : Cursor}
    {tail : List Char} (hrest : c.rest = char :: tail) (steps : Nat) (back : List Char) :
    plainWord true steps back c = some (back, c) := by
  cases steps with
  | zero => rfl
  | succ steps =>
      simp only [plainWord, Cursor.peek?_of_rest hrest]
      by_cases hends : endsWord (some char) = true
      · rw [if_pos hends]
      · have hbracket : (char = ',' ∨ char = ']') ∨ char = '\x7d' := by
          simpa [endsWordInFlow, show ¬(isBlank char = true ∨ isBreak char = true) by
            simpa [endsWord] using hends] using h
        have hcolon : isBadColon true c = false := by
          rcases hbracket with (rfl | rfl) | rfl <;>
            simp [isBadColon, Cursor.isAt_of_rest hrest]
        have hplain : endsPlain true c = true := by
          rcases hbracket with (rfl | rfl) | rfl <;>
            simp [endsPlain, Cursor.isAtAny, Cursor.peek?_of_rest hrest]
        rw [if_neg hends, hcolon, hplain]
        rfl

theorem plainWord_append {char : Char} (h : endsWordInFlow char = true) (tail : List Char) :
    ∀ (word : List Char), (∀ c ∈ word, isWordChar c = true) → ∀ (steps : Nat) (back : List Char)
      (c : Cursor), word.length ≤ steps → c.rest = word ++ char :: tail →
      plainWord true steps back c = some (word.reverse ++ back, c.skip word.length)
  | [], _, steps, back, c, _, hrest => plainWord_stop h hrest steps back
  | d :: word, hword, steps, back, c, hsteps, hrest => by
      obtain ⟨steps, rfl⟩ := Nat.exists_eq_succ_of_ne_zero (Nat.ne_zero_of_lt hsteps)
      obtain ⟨hd, hothers⟩ := List.forall_mem_cons.mp hword
      simp only [isWordChar, Bool.and_eq_true, Bool.not_eq_true', bne_iff_ne] at hd
      obtain ⟨⟨⟨hblank, hbreak⟩, hcolon⟩, hmark⟩ := hd
      have hends : endsWord (some d) = false := by
        simp [endsWord, hblank, hbreak]
      have hbad : isBadColon true c = false := by
        simp [isBadColon, Cursor.isAt_of_rest hrest, hcolon]
      have hplain : endsPlain true c = false := by
        simp only [endsPlain, Cursor.isAt_of_rest hrest, beq_false_of_ne hcolon, Cursor.isAtAny,
          Cursor.peek?_of_rest hrest, hmark, Bool.false_and, Bool.and_false, Bool.or_self]
      have hnext : (c.skip 1).rest = word ++ char :: tail := by
        rw [Cursor.rest_skip, hrest]
        rfl
      simp only [plainWord, Cursor.peek?_of_rest hrest, hends, hbad, hplain, Bool.false_eq_true,
        if_false]
      rw [plainWord_append h tail word hothers steps _ _ (Nat.le_of_succ_le_succ hsteps) hnext]
      simp only [Cursor.skip_skip, List.reverse_cons, List.append_assoc, List.singleton_append,
        List.length_cons, Nat.add_comm 1]

/-- A comma or a closing bracket goes on behind white space. -/
theorem goesOn_of_mem {char : Char} (hchar : char ∈ [',', ']', '\x7d']) (tail : List Char) :
    GoesOn (char :: tail) := by
  intro c hc
  obtain rfl : char = c := Option.some.inj hc
  revert hchar
  simp only [List.mem_cons, List.not_mem_nil, or_false]
  rintro (rfl | rfl | rfl) <;> decide

/-- In front of a comma or a closing bracket a plain scalar is over. -/
theorem plainFrom_stop {char : Char} (hchar : char ∈ [',', ']', '\x7d']) {tail : List Char}
    {p : Plain} (hrest : p.next.rest = char :: tail) (steps : Nat) :
    plainFrom true (-1) steps p = some p := by
  have hends : endsWordInFlow char = true ∧ char ≠ '-' ∧ char ≠ '.' ∧ char ≠ '#' := by
    revert hchar
    simp only [List.mem_cons, List.not_mem_nil, or_false]
    rintro (rfl | rfl | rfl) <;> decide
  obtain ⟨hword, hdash, hdot, hcomment⟩ := hends
  cases steps with
  | zero => rfl
  | succ steps =>
      have hedge := Cursor.isAtEdge_of_rest hrest hdash hdot
      have hmark : p.next.isAt '#' = false := by
        rw [Cursor.isAt_of_rest hrest]
        exact beq_false_of_ne hcomment
      simp only [plainFrom, hedge, hmark, Bool.or_self, Bool.false_eq_true, if_false,
        plainWord_stop hword hrest]

/-- A word inside brackets is a plain scalar of its own; the white space behind it is read with
it. -/
theorem plainFrom_word {word : List Char} (hword : ∀ c ∈ word, isWordChar c = true)
    (hne : word ≠ []) (gap : Space) {char : Char} (hchar : char ∈ [',', ']', '\x7d'])
    (tail : List Char) {c : Cursor} (hedge : c.isAtEdge = false) (hcomment : c.isAt '#' = false)
    (hrest : c.rest = word ++ (gap.val ++ char :: tail)) :
    ∃ p, plainFrom true (-1) (c.rest.length + 1) ⟨[], .none, c⟩ = some p ∧
      p.back = word.reverse ∧ p.next.rest = char :: tail := by
  obtain ⟨cs, hcs⟩ := gap
  have hgap : Gap.none.text = [] := rfl
  have hback : word.reverse ≠ [] := fun h => hne (List.reverse_eq_nil_iff.mp h)
  obtain ⟨last, front, hlast⟩ := List.exists_cons_of_ne_nil hback
  have hnext : (c.skip word.length).rest = cs ++ char :: tail := by
    rw [Cursor.rest_skip, hrest, List.drop_left]
  have hsteps : word.length ≤ c.rest.length := by
    rw [hrest, List.length_append]
    exact Nat.le_add_right _ _
  cases cs with
  | nil =>
      have hends : endsWordInFlow char = true ∧ isBlank char = false ∧ isBreak char = false := by
        revert hchar
        simp only [List.mem_cons, List.not_mem_nil, or_false]
        rintro (rfl | rfl | rfl) <;> decide
      have hread := plainWord_append hends.1 tail word hword c.rest.length [] c hsteps hrest
      rw [List.append_nil] at hread
      refine ⟨⟨word.reverse, .none, c.skip word.length⟩, ?_, rfl, hnext⟩
      rw [List.nil_append] at hnext
      simp only [plainFrom, hedge, hcomment, Bool.or_self, Bool.false_eq_true, if_false, hread,
        hlast, hgap, List.reverse_nil, List.append_nil, Cursor.isAtBlank_of_rest hnext,
        Cursor.isAtBreak_of_rest hnext, hends.2.1, hends.2.2]
  | cons d cs =>
      have hd := hcs d List.mem_cons_self
      have hwhite : (isBlank d || isBreak d) = true := by
        rw [Bool.or_eq_true]
        exact isBlank_or_isBreak_of_isSpace hd
      have hends : endsWordInFlow d = true := by
        simp only [endsWordInFlow, hwhite, Bool.true_or]
      have hread := plainWord_append hends (cs ++ char :: tail) word hword c.rest.length [] c hsteps
        hrest
      rw [List.append_nil] at hread
      have hlength : (d :: cs).length < c.rest.length := by
        rw [hrest]
        simp only [List.length_append, List.length_cons]
        omega
      obtain ⟨g, c', hgaps, hbehind⟩ := Gap.read_space (goesOn_of_mem hchar tail) c.rest.length
        (d :: cs) hcs hlength .none (c.skip word.length) hnext
      refine ⟨⟨word.reverse, g, c'⟩, ?_, rfl, hbehind⟩
      have hzero : (-1 : Int) + 1 = 0 := rfl
      have hstop := plainFrom_stop (p := ⟨word.reverse, g, c'⟩) hchar hbehind c.rest.length
      rw [hlast] at hstop
      rw [List.cons_append] at hnext
      simp only [plainFrom, hedge, hcomment, Bool.or_self, Bool.false_eq_true, if_false, hread,
        hlast, hgap, List.reverse_nil, List.append_nil, Cursor.isAtBlank_of_rest hnext,
        Cursor.isAtBreak_of_rest hnext, hwhite, if_true, hzero, hgaps, Bool.not_true,
        Bool.false_and, hstop]

end Lexer

end Yaml

end Stepwise
