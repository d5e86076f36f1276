import Stepwise.Proofs.Yaml.Tokens

/-!
# Spelled values in YAML

The tokens of a value stand one after another as they are spelled, with a key in front of each
name. A text with an object and white space around it has the tokens of the object, if its spelling
is one that YAML has too.
-/

namespace Stepwise

open Stepwise.Json (Space SpelledChar Spelled SpelledItems SpelledMembers SpelledText quotedText
  meant)

namespace Json

mutual

/-- A spelling that is the same in YAML: a floating point number is the same plain scalar, and a name
and its colon stand in one line within 1024 characters. -/
def Spelled.IsCommon : Spelled → Prop
  | .null | .bool _ | .emptyArr _ | .emptyObj _ => True
  | .num n => ∀ d, n.number = .float d →
      Yaml.plain? (String.ofList n.literal) = some (.num (.float d))
  | .str cs => ∀ s ∈ cs, s.IsCommon
  | .arr items => items.IsCommon
  | .obj members => members.IsCommon

def SpelledItems.IsCommon : SpelledItems → Prop
  | .last _ v _ => v.IsCommon
  | .next _ v _ rest => v.IsCommon ∧ rest.IsCommon

def SpelledMembers.IsCommon : SpelledMembers → Prop
  | .last _ name gap _ v _ => ((∀ s ∈ name, s.IsCommon) ∧ (∀ c ∈ gap.val, Yaml.isBlank c = true) ∧
      (quotedText name ++ gap.val).length ≤ 1024) ∧ v.IsCommon
  | .next _ name gap _ v _ rest => ((∀ s ∈ name, s.IsCommon) ∧
      (∀ c ∈ gap.val, Yaml.isBlank c = true) ∧ (quotedText name ++ gap.val).length ≤ 1024) ∧
      v.IsCommon ∧ rest.IsCommon

end

/-- A text that is spelled as in YAML. There is no tab around the value: where no block is open, a
tab may not indent. -/
structure SpelledText.IsCommon (t : SpelledText) : Prop where
  before : '\t' ∉ t.before.val
  spelled : t.spelled.IsCommon
  after : '\t' ∉ t.after.val

mutual

/-- The tokens of a spelled value. -/
def Spelled.tokens : Spelled → List Yaml.Token
  | .null => [.scalar "null" true]
  | .bool b => [.scalar (if b then "true" else "false") true]
  | .num n => [.scalar (String.ofList n.literal) true]
  | .str cs => [.scalar (meant cs) false]
  | .emptyArr _ => [.openBracket, .closeBracket]
  | .arr items => .openBracket :: (items.tokens ++ [.closeBracket])
  | .emptyObj _ => [.openBrace, .closeBrace]
  | .obj members => .openBrace :: (members.tokens ++ [.closeBrace])

def SpelledItems.tokens : SpelledItems → List Yaml.Token
  | .last _ v _ => v.tokens
  | .next _ v _ rest => v.tokens ++ .comma :: rest.tokens

def SpelledMembers.tokens : SpelledMembers → List Yaml.Token
  | .last _ name _ _ v _ => [.key, .scalar (meant name) false, .value] ++ v.tokens
  | .next _ name _ _ v _ rest =>
      [.key, .scalar (meant name) false, .value] ++ v.tokens ++ .comma :: rest.tokens

end

end Json

namespace Yaml

namespace Lexer

/-! ## Values -/

variable {l : Lexer} {gap : Space} {rest : List Char}

theorem isWordChar_of_isNumeral {c : Char} (hc : Json.isNumeral c = true) : isWordChar c = true := by
  by_cases halphanum : c.isAlphanum = true
  · have hends := endsWord_of_isAlphanum halphanum
    simp only [endsWord, Bool.or_eq_false_iff] at hends
    have hne (d : Char) (hd : d.isAlphanum = false) := ne_of_isAlphanum halphanum hd
    simp [isWordChar, hends, hne ':' (by decide), hne ',' (by decide), hne '[' (by decide),
      hne ']' (by decide), hne '\x7b' (by decide), hne '\x7d' (by decide)]
  · have hmark : (c = '.' ∨ c = '+') ∨ c = '-' := by
      simp only [Json.isNumeral, Bool.or_eq_true, beq_iff_eq] at hc
      rcases hc with ((((hc | hc) | rfl) | rfl) | hc) | hc
      · exact absurd (isAlphanum_of_isDigit hc) halphanum
      · exact .inl (.inl hc)
      · exact absurd (by decide) halphanum
      · exact absurd (by decide) halphanum
      · exact .inl (.inr hc)
      · exact .inr hc
    rcases hmark with (rfl | rfl) | rfl <;> decide

/-- A number literal is a word. -/
theorem isWord_literal (n : Json.SpelledNumber) : IsWord n.literal := by
  obtain ⟨sign, d, taken, hliteral, hsign, hd, htaken⟩ := n.literal_eq
  rw [hliteral]
  have hdigits : ∀ c ∈ d :: taken, isWordChar c = true := List.forall_mem_cons.mpr
    ⟨isWordChar_of_isNumeral (Json.isNumeral_of_isDigit hd),
      fun c hc => isWordChar_of_isNumeral (htaken c hc)⟩
  rcases hsign with rfl | rfl
  · exact ⟨⟨d, taken, rfl, .inl (isAlphanum_of_isDigit hd)⟩, hdigits⟩
  · exact ⟨⟨'-', d :: taken, rfl, .inr ⟨rfl, d, taken, rfl, hd⟩⟩,
      List.forall_mem_cons.mpr ⟨by decide, hdigits⟩⟩

/-- A collection is read when what stands between its brackets is. -/
theorem reads_between (hl : l.Calm) {opener closer : Char} {t t' : Token}
    (hopener : (opener, t) ∈ opening) (hcloser : (closer, t') ∈ closing) {inner : List Char}
    {tokens : List Token} (hrest : l.cursor.rest = gap.val ++ opener :: (inner ++ closer :: rest))
    (htabs : l.inFlow = true ∨ '\t' ∉ gap.val)
    (hinner : ∀ m : Lexer, m.Calm → m.inFlow = true → m.keyAllowed = true →
      m.cursor.rest = inner ++ closer :: rest → ∃ (left : Space) (l' : Lexer),
        m.Reads tokens m.keysAround.length (left.val ++ closer :: rest) l') :
    ∃ l', l.Reads (t :: (tokens ++ [t'])) l.keysAround.length rest l' := by
  obtain ⟨m, hm, hallowed⟩ := reads_open hl hopener hrest htabs
  have hflow : m.inFlow = true := by
    rw [inFlow_iff, hm.depth]
    exact Nat.succ_pos _
  obtain ⟨left, m', hm'⟩ := hinner m hm.calm hflow hallowed hm.rest
  have hflow' : m'.inFlow = true := by
    rw [inFlow_iff, hm'.depth]
    exact (inFlow_iff m).mp hflow
  obtain ⟨l', hl'⟩ := reads_close hm'.calm hflow' hcloser hm'.rest
  refine ⟨l', ?_⟩
  have hreads := (hm.trans hm').trans hl'
  rw [hm'.depth, hm.depth, Nat.add_sub_cancel] at hreads
  exact hreads

theorem Reads.refl (hl : l.Calm) : l.Reads [] l.keysAround.length l.cursor.rest l where
  leads := fun steps hsteps => ⟨steps, hsteps, rfl⟩
  calm := hl
  back := rfl
  depth := rfl
  rest := rfl

/-- An empty collection is its two brackets. -/
theorem reads_empty (hl : l.Calm) {opener closer : Char} {t t' : Token}
    (hopener : (opener, t) ∈ opening) (hcloser : (closer, t') ∈ closing) {gap' : Space}
    (hrest : l.cursor.rest = gap.val ++ opener :: (gap'.val ++ closer :: rest))
    (htabs : l.inFlow = true ∨ '\t' ∉ gap.val) :
    ∃ l', l.Reads [t, t'] l.keysAround.length rest l' := by
  have hempty : ∃ l', l.Reads (t :: ([] ++ [t'])) l.keysAround.length rest l' := by
    refine reads_between hl hopener hcloser hrest htabs fun m hm _ _ hinner => ⟨gap', m, ?_⟩
    rw [← hinner]
    exact .refl hm
  exact hempty

mutual

/-- Inside brackets a spelled value is read as its tokens, with the white space behind it or not. -/
theorem reads_spelled : ∀ v : Spelled, v.IsCommon → ∀ (l : Lexer), l.Calm → l.inFlow = true →
    ∀ (before after : Space) (char : Char) (rest : List Char), char ∈ [',', ']', '\x7d'] →
    l.cursor.rest = before.val ++ (v.text ++ (after.val ++ char :: rest)) →
    ∃ (left : Space) (l' : Lexer),
      l.Reads v.tokens l.keysAround.length (left.val ++ char :: rest) l'
  | .null, _, l, hl, hflow, before, after, char, rest, hchar, hrest => by
      have hword : IsWord "null".toList :=
        ⟨⟨'n', _, rfl, .inl (by decide)⟩, List.all_eq_true.mp (by decide)⟩
      exact ⟨⟨[], by simp⟩, reads_word hl hflow hword after hchar hrest⟩
  | .bool true, _, l, hl, hflow, before, after, char, rest, hchar, hrest => by
      have hword : IsWord "true".toList :=
        ⟨⟨'t', _, rfl, .inl (by decide)⟩, List.all_eq_true.mp (by decide)⟩
      exact ⟨⟨[], by simp⟩, reads_word hl hflow hword after hchar hrest⟩
  | .bool false, _, l, hl, hflow, before, after, char, rest, hchar, hrest => by
      have hword : IsWord "false".toList :=
        ⟨⟨'f', _, rfl, .inl (by decide)⟩, List.all_eq_true.mp (by decide)⟩
      exact ⟨⟨[], by simp⟩, reads_word hl hflow hword after hchar hrest⟩
  | .num n, _, l, hl, hflow, before, after, char, rest, hchar, hrest =>
      ⟨⟨[], by simp⟩, reads_word hl hflow (isWord_literal n) after hchar hrest⟩
  | .str cs, hcommon, l, hl, hflow, before, after, char, rest, _, hrest => by
      obtain ⟨l', hl', -⟩ := reads_text hl hflow hcommon hrest
      exact ⟨after, l', hl'⟩
  | .emptyArr gap, _, l, hl, hflow, before, after, char, rest, _, hrest => by
      simp only [Spelled.text, List.cons_append, List.append_assoc, List.nil_append] at hrest
      exact ⟨after, reads_empty hl (.head _) (.head _) hrest (.inl hflow)⟩
  | .arr items, hcommon, l, hl, hflow, before, after, char, rest, _, hrest => by
      simp only [Spelled.text, List.cons_append, List.append_assoc, List.nil_append] at hrest
      refine ⟨after, reads_between hl (.head _) (.head _) hrest (.inl hflow) ?_⟩
      exact fun m hm hinside _ hinner =>
        reads_items items hcommon m hm hinside (after.val ++ char :: rest) hinner
  | .emptyObj gap, _, l, hl, hflow, before, after, char, rest, _, hrest => by
      simp only [Spelled.text, List.cons_append, List.append_assoc, List.nil_append] at hrest
      exact ⟨after, reads_empty hl (.tail _ (.head _)) (.tail _ (.head _)) hrest (.inl hflow)⟩
  | .obj members, hcommon, l, hl, hflow, before, after, char, rest, _, hrest => by
      simp only [Spelled.text, List.cons_append, List.append_assoc, List.nil_append] at hrest
      refine ⟨after, reads_between hl (.tail _ (.head _)) (.tail _ (.head _)) hrest
        (.inl hflow) ?_⟩
      exact fun m hm hinside hallowed hinner =>
        reads_members members hcommon m hm hinside hallowed (after.val ++ char :: rest) hinner

/-- Items are read with a comma between them, up to the closing bracket. -/
theorem reads_items : ∀ items : SpelledItems, items.IsCommon → ∀ (l : Lexer), l.Calm →
    l.inFlow = true → ∀ rest : List Char, l.cursor.rest = items.text ++ ']' :: rest →
    ∃ (left : Space) (l' : Lexer),
      l.Reads items.tokens l.keysAround.length (left.val ++ ']' :: rest) l'
  | .last before v after, hcommon, l, hl, hflow, rest, hrest => by
      simp only [SpelledItems.text, List.append_assoc] at hrest
      exact reads_spelled v hcommon l hl hflow before after ']' rest (by decide) hrest
  | .next before v after items, hcommon, l, hl, hflow, rest, hrest => by
      simp only [SpelledItems.text, List.append_assoc, List.cons_append] at hrest
      obtain ⟨left, m, hm⟩ := reads_spelled v hcommon.1 l hl hflow before after ','
        (items.text ++ ']' :: rest) (by decide) hrest
      obtain ⟨m', hm', -⟩ := reads_comma hm.calm (hm.inFlow hflow) hm.rest
      obtain ⟨left', l', hl'⟩ := reads_items items hcommon.2 m' hm'.calm
        (hm'.inFlow (hm.inFlow hflow)) rest hm'.rest
      refine ⟨left', l', ?_⟩
      have hreads := hm.trans (hm'.trans hl')
      rw [hm'.depth, hm.depth] at hreads
      exact hreads

/-- Members are read with a comma between them, up to the closing brace; each starts where a key
may start. -/
theorem reads_members : ∀ members : SpelledMembers, members.IsCommon → ∀ (l : Lexer), l.Calm →
    l.inFlow = true → l.keyAllowed = true → ∀ rest : List Char,
    l.cursor.rest = members.text ++ '\x7d' :: rest →
    ∃ (left : Space) (l' : Lexer),
      l.Reads members.tokens l.keysAround.length (left.val ++ '\x7d' :: rest) l'
  | .last before name gap before' v after, hcommon, l, hl, hflow, hallowed, rest, hrest => by
      obtain ⟨⟨hname, hgap, hnear⟩, hvalue⟩ := hcommon
      simp only [SpelledMembers.text, List.append_assoc, List.cons_append] at hrest
      obtain ⟨m, hm⟩ := reads_name hl hflow hallowed hname hgap hnear hrest
      obtain ⟨left, l', hl'⟩ := reads_spelled v hvalue m hm.calm (hm.inFlow hflow) before' after
        '\x7d' rest (by decide) hm.rest
      refine ⟨left, l', ?_⟩
      have hreads := hm.trans hl'
      rw [hm.depth] at hreads
      exact hreads
  | .next before name gap before' v after members, hcommon, l, hl, hflow, hallowed, rest,
      hrest => by
      obtain ⟨⟨hname, hgap, hnear⟩, hvalue, hothers⟩ := hcommon
      simp only [SpelledMembers.text, List.append_assoc, List.cons_append] at hrest
      obtain ⟨m, hm⟩ := reads_name hl hflow hallowed hname hgap hnear hrest
      have hinside := hm.inFlow hflow
      obtain ⟨left, m', hm'⟩ := reads_spelled v hvalue m hm.calm hinside before' after ','
        (members.text ++ '\x7d' :: rest) (by decide) hm.rest
      obtain ⟨k, hk, hallowed'⟩ := reads_comma hm'.calm (hm'.inFlow hinside) hm'.rest
      obtain ⟨left', l', hl'⟩ := reads_members members hothers k hk.calm
        (hk.inFlow (hm'.inFlow hinside)) hallowed' rest hk.rest
      refine ⟨left', l', ?_⟩
      have hreads := (hm.trans hm').trans (hk.trans hl')
      rw [hk.depth, hm'.depth, hm.depth] at hreads
      simpa only [SpelledMembers.tokens, List.append_assoc, List.cons_append, List.nil_append]
        using hreads

end

/-- An object is read outside of brackets too, behind white space without a tab. -/
theorem reads_object {v : Spelled} (hcommon : v.IsCommon)
    (hobject : ∃ members, v.value = .obj members) (hl : l.Calm)
    (hrest : l.cursor.rest = gap.val ++ (v.text ++ rest))
    (htabs : l.inFlow = true ∨ '\t' ∉ gap.val) :
    ∃ l', l.Reads v.tokens l.keysAround.length rest l' := by
  obtain ⟨members, hvalue⟩ := hobject
  cases v with
  | emptyObj gap' =>
      simp only [Spelled.text, List.cons_append, List.append_assoc, List.nil_append] at hrest
      exact reads_empty hl (.tail _ (.head _)) (.tail _ (.head _)) hrest htabs
  | obj members =>
      simp only [Spelled.text, List.cons_append, List.append_assoc, List.nil_append] at hrest
      refine reads_between hl (.tail _ (.head _)) (.tail _ (.head _)) hrest htabs ?_
      exact fun m hm hinside hallowed hinner =>
        reads_members members hcommon m hm hinside hallowed rest hinner
  | _ => cases hvalue

/-! ## Whole texts -/

/-- At the end of a text all its tokens are there. -/
theorem run_end (hl : l.Calm) (hrest : l.cursor.rest = gap.val) (htabs : '\t' ∉ gap.val)
    {steps : Nat} (hsteps : l.cursor.rest.length + 2 ≤ steps) : l.run steps = some l.back.reverse := by
  have htail : GoesOn [] := by simp [GoesOn]
  have hrest' : l.cursor.rest = gap.val ++ [] := by rw [hrest, List.append_nil]
  obtain ⟨cursor, allowed, hspace, hcursor, -⟩ :=
    skipSpace_append htail gap.val gap.property l hrest' (.inr htabs)
  have hm : ({ l with cursor, keyAllowed := allowed } : Lexer).Calm :=
    ⟨hl.key, hl.keysAround, hl.indent, hl.outer⟩
  obtain ⟨key, keysAround, hfresh, hcalm, -, -⟩ := hm.freshKeys
  obtain ⟨steps, rfl⟩ := Nat.exists_eq_succ_of_ne_zero (Nat.ne_zero_of_lt hsteps)
  have hend : cursor.atEnd = true := List.isEmpty_iff.mpr hcursor
  rw [hrest] at hsteps
  simp only [run, skipMark_eq gap.property htail hrest', hspace steps (by omega), hfresh,
    hcalm.unindent, hend, if_true, leaveBlocks, hcalm.dropKey, Option.map_some]

/-- A text that leads to the end of what is read is read whole. -/
theorem run_of_reads {tokens : List Token} {depth : Nat} {l' : Lexer} {after : Space}
    (h : l.Reads tokens depth after.val l') (hback : l.back = []) (htabs : '\t' ∉ after.val)
    {steps : Nat} (hsteps : l.cursor.rest.length + 2 ≤ steps) : l.run steps = some tokens := by
  obtain ⟨steps', hsteps', hrun⟩ := h.leads steps hsteps
  rw [hrun, run_end h.calm h.rest htabs hsteps', h.back, hback, List.append_nil,
    List.reverse_reverse]

theorem calm_start (text : String) : (start text).Calm :=
  ⟨by simp [start], by simp [start], rfl, rfl⟩

end Lexer

/-! ## Characters -/

theorem isAllowed_of_printable {c : Char} (h : 0x20 ≤ c.toNat ∧ c.toNat ≤ 0x7E) :
    isAllowed c = true := by
  simp [isAllowed, h.1, h.2]

theorem isAllowed_of_isSpace {c : Char} (h : Fragment.isSpace c = true) : isAllowed c = true := by
  simp only [Fragment.isSpace, Bool.or_eq_true, beq_iff_eq] at h
  rcases h with ((rfl | rfl) | rfl) | rfl <;> decide

theorem isAllowed_of_isNumeral {c : Char} (h : Json.isNumeral c = true) : isAllowed c = true := by
  simp only [Json.isNumeral, Bool.or_eq_true, beq_iff_eq] at h
  rcases h with ((((h | rfl) | rfl) | rfl) | rfl) | rfl
  · obtain ⟨hlow, hhigh⟩ := Json.toNat_of_isDigit h
    exact isAllowed_of_printable ⟨by omega, by omega⟩
  all_goals decide

theorem isAllowed_of_hexValue? {c : Char} {v : Nat} (h : Fragment.hexValue? c = some v) :
    isAllowed c = true := by
  have hle {a b : Char} : a ≤ b → a.toNat ≤ b.toNat := fun hab =>
    UInt32.le_iff_toNat_le.mp (Char.le_def.mp hab)
  have hbetween {a b : Char} (hc : a ≤ c ∧ c ≤ b) (ha : 0x20 ≤ a.toNat) (hb : b.toNat ≤ 0x7E) :
      isAllowed c = true :=
    isAllowed_of_printable ⟨Nat.le_trans ha (hle hc.1), Nat.le_trans (hle hc.2) hb⟩
  unfold Fragment.hexValue? at h
  split at h
  · next hc => exact hbetween hc (by decide) (by decide)
  · split at h
    · next hc => exact hbetween hc (by decide) (by decide)
    · split at h
      · next hc => exact hbetween hc (by decide) (by decide)
      · cases h

theorem all_isAllowed_spelledChar {s : SpelledChar} (hs : s.IsCommon) :
    s.text.all isAllowed = true := by
  cases s with
  | plain char bare => simp [SpelledChar.text, hs.1]
  | short letter char reads =>
      have hletter : isAllowed letter = true := by
        unfold Fragment.shortEscape? at reads
        split at reads <;> first | decide | cases reads
      have hback : isAllowed '\\' = true := by decide
      simp [SpelledChar.text, hletter, hback]
  | unit a b d e u reads whole =>
      simp only [Fragment.unit?, Option.bind_eq_bind, Option.bind_eq_some_iff] at reads
      obtain ⟨w, ha, x, hb, y, hd, z, he, -⟩ := reads
      have hback : isAllowed '\\' = true ∧ isAllowed 'u' = true := by decide
      simp [SpelledChar.text, hback, isAllowed_of_hexValue? ha, isAllowed_of_hexValue? hb,
        isAllowed_of_hexValue? hd, isAllowed_of_hexValue? he]
  | pair => exact hs.elim

theorem all_isAllowed_quotedText {cs : List SpelledChar} (hcs : ∀ s ∈ cs, s.IsCommon) :
    (quotedText cs).all isAllowed = true := by
  have hquote : isAllowed '"' = true := by decide
  have hall : (cs.flatMap SpelledChar.text).all isAllowed = true := by
    rw [List.all_flatMap]
    exact List.all_eq_true.mpr fun s hs => all_isAllowed_spelledChar (hcs s hs)
  simp only [quotedText, List.all_cons, List.all_append, hquote, hall, List.all_nil, Bool.and_self]

theorem all_isAllowed_space (gap : Space) : gap.val.all isAllowed = true :=
  List.all_eq_true.mpr fun c hc => isAllowed_of_isSpace (gap.property c hc)

theorem all_isAllowed_literal (n : Json.SpelledNumber) : n.literal.all isAllowed = true := by
  obtain ⟨sign, d, taken, hliteral, hsign, hd, htaken⟩ := n.literal_eq
  have hdigit := isAllowed_of_isNumeral (Json.isNumeral_of_isDigit hd)
  have htaken' : taken.all isAllowed = true :=
    List.all_eq_true.mpr fun c hc => isAllowed_of_isNumeral (htaken c hc)
  have hsign' : sign.all isAllowed = true := by
    rcases hsign with rfl | rfl <;> decide
  simp only [hliteral, List.all_append, List.all_cons, hsign', hdigit, htaken', Bool.and_self]

theorem isAllowed_mark : isAllowed '[' = true ∧ isAllowed ']' = true ∧ isAllowed '\x7b' = true ∧
    isAllowed '\x7d' = true ∧ isAllowed ',' = true ∧ isAllowed ':' = true := by
  decide

mutual

/-- A common spelling has no character that YAML does not allow. -/
theorem all_isAllowed_spelled : ∀ v : Spelled, v.IsCommon → v.text.all isAllowed = true
  | .null, _ => by decide
  | .bool true, _ => by decide
  | .bool false, _ => by decide
  | .num n, _ => all_isAllowed_literal n
  | .str cs, hcommon => all_isAllowed_quotedText hcommon
  | .emptyArr gap, _ => by
      simp only [Spelled.text, List.all_cons, List.all_append, List.all_nil, isAllowed_mark,
        all_isAllowed_space, Bool.and_self]
  | .arr items, hcommon => by
      simp only [Spelled.text, List.all_cons, List.all_append, List.all_nil, isAllowed_mark,
        all_isAllowed_items items hcommon, Bool.and_self]
  | .emptyObj gap, _ => by
      simp only [Spelled.text, List.all_cons, List.all_append, List.all_nil, isAllowed_mark,
        all_isAllowed_space, Bool.and_self]
  | .obj members, hcommon => by
      simp only [Spelled.text, List.all_cons, List.all_append, List.all_nil, isAllowed_mark,
        all_isAllowed_members members hcommon, Bool.and_self]

theorem all_isAllowed_items : ∀ items : SpelledItems, items.IsCommon →
    items.text.all isAllowed = true
  | .last before v after, hcommon => by
      simp only [SpelledItems.text, List.all_append, all_isAllowed_space,
        all_isAllowed_spelled v hcommon, Bool.and_self]
  | .next before v after items, hcommon => by
      simp only [SpelledItems.text, List.all_append, List.all_cons, all_isAllowed_space,
        isAllowed_mark, all_isAllowed_spelled v hcommon.1, all_isAllowed_items items hcommon.2,
        Bool.and_self]

theorem all_isAllowed_members : ∀ members : SpelledMembers, members.IsCommon →
    members.text.all isAllowed = true
  | .last before name gap before' v after, hcommon => by
      simp only [SpelledMembers.text, List.all_append, List.all_cons, all_isAllowed_space,
        isAllowed_mark, all_isAllowed_quotedText hcommon.1.1, all_isAllowed_spelled v hcommon.2,
        Bool.and_self]
  | .next before name gap before' v after members, hcommon => by
      simp only [SpelledMembers.text, List.all_append, List.all_cons, all_isAllowed_space,
        isAllowed_mark, all_isAllowed_quotedText hcommon.1.1, all_isAllowed_spelled v hcommon.2.1,
        all_isAllowed_members members hcommon.2.2, Bool.and_self]

end

/-- An object that is spelled as in YAML has the same tokens as a text. -/
theorem Token.ofText?_spelled {t : SpelledText} (hcommon : t.IsCommon)
    (hobject : ∃ members, t.value = .obj members) :
    Token.ofText? t.text = some t.spelled.tokens := by
  have htext : t.text.toList = t.before.val ++ (t.spelled.text ++ t.after.val) :=
    String.toList_ofList
  have hallowed : t.text.toList.all isAllowed = true := by
    simp only [htext, List.all_append, all_isAllowed_space,
      all_isAllowed_spelled t.spelled hcommon.spelled, Bool.and_self]
  obtain ⟨l', hl'⟩ := Lexer.reads_object hcommon.spelled hobject (Lexer.calm_start t.text) htext
    (.inr hcommon.before)
  rw [Token.ofText?, if_pos hallowed]
  exact Lexer.run_of_reads hl' rfl hcommon.after (Nat.le_refl _)

end Yaml

end Stepwise
