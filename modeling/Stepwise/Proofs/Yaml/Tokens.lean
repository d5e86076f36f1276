import Stepwise.Proofs.Yaml.Scalars
import Stepwise.Yaml.Node

/-!
# One token after another

Inside brackets the YAML reader never opens a block and never requires a key, so what it does next
depends on the characters ahead and on whether a key may start. Each kind of token that JSON texts
have is taken behind white space: brackets, commas, texts, words, and names with their colons. A
name must be near enough to its colon and in the same line, for it turns out to be a key only there.
-/

namespace Stepwise

open Stepwise.Json (Space SpelledChar quotedText meant)

namespace Yaml

namespace Lexer

/-! ## White space between tokens -/

/-- White space between tokens is skipped up to what goes on, however many steps more there are. -/
theorem skipSpace_append {tail : List Char} (htail : GoesOn tail) (cs : List Char)
    (hcs : ∀ c ∈ cs, Fragment.isSpace c = true) (l : Lexer) (hrest : l.cursor.rest = cs ++ tail)
    (htabs : l.inFlow = true ∨ '\t' ∉ cs) :
    ∃ cursor allowed, (∀ steps, cs.length < steps →
        skipSpace steps l = { l with cursor, keyAllowed := allowed }) ∧
      cursor.rest = tail ∧ (l.inFlow = true → allowed = l.keyAllowed) := by
  obtain ⟨front, rest, hsplit, hfront, hbehind⟩ := exists_front
    (fun char => char == ' ' || (char == '\t' && (l.inFlow || !l.keyAllowed))) cs
  rw [hsplit, List.append_assoc] at hrest
  rw [hsplit] at hcs htabs
  have hspaces := (List.forall_mem_append.mp hcs).2
  have hclass (d : Char) (hd : isBlank d = false) :
      (d == ' ' || (d == '\t' && (l.inFlow || !l.keyAllowed))) = false := by
    simp only [isBlank, Bool.or_eq_false_iff] at hd
    simp only [hd.1, hd.2, Bool.false_and, Bool.or_self]
  have hstop : ∀ d ∈ (rest ++ tail).head?,
      (d == ' ' || (d == '\t' && (l.inFlow || !l.keyAllowed))) = false := by
    cases rest with
    | nil => exact fun d hd => hclass d (htail d hd).2.1
    | cons d rest => exact hbehind
  have hskip := Cursor.skipAll_append hfront hrest hstop
  have hnext : (l.cursor.skip front.length).rest = rest ++ tail := by
    rw [Cursor.rest_skip, hrest, List.drop_left]
  cases rest with
  | nil =>
      obtain ⟨hcomment, hbreak⟩ := htail.here hnext
      refine ⟨_, l.keyAllowed, fun steps hsteps => ?_, hnext, fun _ => rfl⟩
      obtain ⟨steps, rfl⟩ := Nat.exists_eq_succ_of_ne_zero (Nat.ne_zero_of_lt hsteps)
      simp only [skipSpace, hskip, hcomment, hbreak, Bool.false_eq_true, if_false]
  | cons d rest =>
      obtain ⟨hd, hothers⟩ := List.forall_mem_cons.mp hspaces
      -- what is skipped neither as a blank nor as a tab ends the line
      have hbreak : isBreak d = true := by
        refine (isBlank_or_isBreak_of_isSpace hd).resolve_left fun hblank => ?_
        have hother := hbehind d rfl
        simp only [isBlank, Bool.or_eq_true, beq_iff_eq] at hblank
        rcases hblank with rfl | rfl
        · simp at hother
        · rcases htabs with hflow | hnone
          · simp [hflow] at hother
          · exact hnone (List.mem_append_right _ List.mem_cons_self)
      have hcomment : (l.cursor.skip front.length).isAt '#' = false := by
        rw [Cursor.isAt_of_rest hnext]
        refine beq_false_of_ne ?_
        rintro rfl
        cases hd
      obtain ⟨taken, left, rfl, hleft⟩ := Cursor.rest_readBreak hbreak hnext htail
      have hspaces' := (List.forall_mem_append.mp hothers).2
      have htabs' : l.inFlow = true ∨ '\t' ∉ left := htabs.imp_right fun hnone hmem =>
        hnone (List.mem_append_right _ (List.mem_cons_of_mem _ (List.mem_append_right _ hmem)))
      obtain ⟨cursor, allowed, hread, hcursor, hallowed⟩ := skipSpace_append htail left
        hspaces' { l with
          cursor := (l.cursor.skip front.length).readBreak.2
          keyAllowed := l.keyAllowed || !l.inFlow } hleft htabs'
      refine ⟨cursor, allowed, fun steps hsteps => ?_, hcursor, fun hflow =>
        (hallowed hflow).trans (by rw [hflow, Bool.not_true, Bool.or_false])⟩
      obtain ⟨steps, rfl⟩ := Nat.exists_eq_succ_of_ne_zero (Nat.ne_zero_of_lt hsteps)
      simp only [hsplit, List.length_append, List.length_cons] at hsteps
      simp only [skipSpace, hskip, hcomment, Cursor.isAtBreak_of_rest hnext, hbreak,
        Bool.false_eq_true, if_false, if_true]
      exact hread steps (by omega)
termination_by cs.length
decreasing_by
  simp only [hsplit, List.length_append, List.length_cons]
  omega

/-! ## Keys that are not required -/

/-- Outside of all blocks, and with no key that is required. -/
structure Calm (l : Lexer) : Prop where
  key : ∀ k ∈ l.key, k.required = false
  keysAround : ∀ key ∈ l.keysAround, ∀ k ∈ key, k.required = false
  indent : l.indent = -1
  outer : l.outer = []

theorem inFlow_iff (l : Lexer) : l.inFlow = true ↔ 0 < l.keysAround.length := by
  rw [inFlow, Bool.not_eq_true', List.isEmpty_eq_false_iff, List.length_pos_iff]

/-- A key that is not required is kept or dropped. -/
theorem freshKey_cases (here : Cursor) {key : Option KeyPlace}
    (hkey : ∀ k ∈ key, k.required = false) :
    ∃ kept, freshKey here key = some kept ∧ ∀ k ∈ kept, k.required = false := by
  cases key with
  | none => exact ⟨none, rfl, hkey⟩
  | some k =>
      simp only [freshKey, hkey k rfl, Bool.false_eq_true, if_false]
      split
      · exact ⟨none, rfl, by simp⟩
      · exact ⟨some k, rfl, hkey⟩

theorem mapM_freshKey (here : Cursor) : ∀ {keys : List (Option KeyPlace)},
    (∀ key ∈ keys, ∀ k ∈ key, k.required = false) →
    ∃ kept, keys.mapM (freshKey here) = some kept ∧ kept.length = keys.length ∧
      ∀ key ∈ kept, ∀ k ∈ key, k.required = false
  | [], _ => ⟨[], rfl, rfl, by simp⟩
  | key :: keys, hkeys => by
      obtain ⟨hkey, hothers⟩ := List.forall_mem_cons.mp hkeys
      obtain ⟨kept, hkept, hfree⟩ := freshKey_cases here hkey
      obtain ⟨rest, hrest, hlength, hfrees⟩ := mapM_freshKey here hothers
      refine ⟨kept :: rest, ?_, ?_, List.forall_mem_cons.mpr ⟨hfree, hfrees⟩⟩
      · simp only [List.mapM_cons, hkept, hrest, Option.bind_eq_bind, Option.bind_some,
          Option.pure_def]
      · rw [List.length_cons, List.length_cons, hlength]

/-- Keys that are not required may be dropped, and a fresh one stays. -/
theorem Calm.freshKeys {l : Lexer} (hl : l.Calm) :
    ∃ key keysAround, l.freshKeys = some { l with key, keysAround } ∧
      ({ l with key, keysAround } : Lexer).Calm ∧ keysAround.length = l.keysAround.length ∧
      freshKey l.cursor l.key = some key := by
  obtain ⟨key, hkey, hfree⟩ := freshKey_cases l.cursor hl.key
  obtain ⟨keysAround, haround, hlength, hfrees⟩ := mapM_freshKey l.cursor hl.keysAround
  refine ⟨key, keysAround, ?_, ⟨hfree, hfrees, hl.indent, hl.outer⟩, hlength, hkey⟩
  simp only [Lexer.freshKeys, hkey, haround, Option.bind_eq_bind, Option.bind_some]

theorem Calm.dropKey {l : Lexer} (hl : l.Calm) :
    l.dropKey = some { l with key := none } := by
  cases hkey : l.key with
  | none =>
      simp only [Lexer.dropKey, hkey]
      rw [← hkey]
  | some k =>
      have hfree := hl.key k hkey
      simp only [Lexer.dropKey, hkey, hfree, Bool.false_eq_true, if_false]

theorem Calm.unindent {l : Lexer} (hl : l.Calm) (column : Int) : l.unindent column = l := by
  rw [Lexer.unindent, hl.outer, closeBlocks]
  exact ite_self l

/-- Where a key may start it is noted, and is not required. -/
theorem Calm.noteKey {l : Lexer} (hl : l.Calm) :
    ∃ key, l.noteKey = some { l with key } ∧ ({ l with key } : Lexer).Calm ∧
      (l.keyAllowed = true → key = some ⟨false, l.back.length, l.cursor⟩) := by
  have hcolumn : (l.indent == l.column) = false := by
    rw [hl.indent, column]
    refine beq_false_of_ne ?_
    omega
  by_cases hallowed : l.keyAllowed = true
  · refine ⟨some ⟨false, l.back.length, l.cursor⟩, ?_, ⟨?_, hl.keysAround, hl.indent, hl.outer⟩,
      fun _ => rfl⟩
    · have hcolumn' : (l.indent == (({ l with key := none } : Lexer).column)) = false := hcolumn
      simp only [Lexer.noteKey, if_pos hallowed, hl.dropKey, hcolumn', Bool.and_false]
    · rintro k ⟨⟩
      rfl
  · refine ⟨l.key, ?_, hl, fun h => absurd h hallowed⟩
    simp only [Lexer.noteKey, if_neg hallowed]

/-! ## One token after another -/

/-- From a state the reader gets to another one. -/
def Leads (l l' : Lexer) : Prop :=
  ∀ steps, l.cursor.rest.length + 2 ≤ steps →
    ∃ steps', l'.cursor.rest.length + 2 ≤ steps' ∧ run steps l = run steps' l'

theorem Leads.trans {l m l' : Lexer} (h : l.Leads m) (h' : m.Leads l') : l.Leads l' := by
  intro steps hsteps
  obtain ⟨steps', hsteps', hrun⟩ := h steps hsteps
  obtain ⟨steps'', hsteps'', hrun'⟩ := h' steps' hsteps'
  exact ⟨steps'', hsteps'', hrun.trans hrun'⟩

/-- The reader takes a token behind white space. -/
theorem leads_of_token {l m m' l' : Lexer}
    (hspace : ∀ steps, l.cursor.rest.length + 1 ≤ steps → l.skipMark.skipSpace steps = m)
    (hfresh : m.freshKeys = some m') (hcalm : m'.Calm) (htoken : m'.token = some l')
    (hend : m'.cursor.rest ≠ []) (hrest : l'.cursor.rest.length < l.cursor.rest.length) :
    l.Leads l' := by
  intro steps hsteps
  obtain ⟨steps, rfl⟩ := Nat.exists_eq_succ_of_ne_zero (Nat.ne_zero_of_lt hsteps)
  have hmore : m'.cursor.atEnd = false := List.isEmpty_eq_false_iff.mpr hend
  refine ⟨steps, by omega, ?_⟩
  simp only [run, hspace steps (by omega), hfresh, hcalm.unindent, hmore, Bool.false_eq_true,
    if_false, htoken]

/-- From a state the reader takes some tokens, and is then so deep in brackets in front of what is
left. -/
structure Reads (l : Lexer) (tokens : List Token) (depth : Nat) (rest : List Char) (l' : Lexer) :
    Prop where
  leads : l.Leads l'
  calm : l'.Calm
  back : l'.back = tokens.reverse ++ l.back
  depth : l'.keysAround.length = depth
  rest : l'.cursor.rest = rest

theorem Reads.trans {l m l' : Lexer} {tokens tokens' : List Token} {depth depth' : Nat}
    {rest rest' : List Char} (h : l.Reads tokens depth rest m)
    (h' : m.Reads tokens' depth' rest' l') : l.Reads (tokens ++ tokens') depth' rest' l' where
  leads := h.leads.trans h'.leads
  calm := h'.calm
  back := by rw [h'.back, h.back, List.reverse_append, List.append_assoc]
  depth := h'.depth
  rest := h'.rest

/-- Tokens that leave the depth as it is leave the reader inside brackets. -/
theorem Reads.inFlow {l l' : Lexer} {tokens : List Token} {rest : List Char}
    (h : l.Reads tokens l.keysAround.length rest l') (hflow : l.inFlow = true) :
    l'.inFlow = true := by
  rw [inFlow_iff, h.depth]
  exact (inFlow_iff l).mp hflow

/-- There is no byte order mark where white space stands or something goes on. -/
theorem skipMark_eq {l : Lexer} {cs tail : List Char}
    (hcs : ∀ c ∈ cs, Fragment.isSpace c = true) (htail : GoesOn tail)
    (hrest : l.cursor.rest = cs ++ tail) : l.skipMark = l := by
  have hmark : l.cursor.isAt '\ufeff' = false := by
    cases cs with
    | nil =>
        cases tail with
        | nil =>
            rw [Cursor.isAt, Cursor.peek?_eq_none hrest]
            rfl
        | cons d tail =>
            rw [Cursor.isAt_of_rest hrest]
            exact beq_false_of_ne (htail d rfl).2.2.2.2
    | cons d cs =>
        have hd := hcs d List.mem_cons_self
        rw [Cursor.isAt_of_rest hrest]
        refine beq_false_of_ne ?_
        rintro rfl
        cases hd
  rw [skipMark, hmark, Bool.and_false, if_neg Bool.false_ne_true]

/-- A token is taken behind white space; what it does follows from the characters ahead. -/
theorem reads_token {l : Lexer} (hl : l.Calm) {cs tail : List Char}
    (hcs : ∀ c ∈ cs, Fragment.isSpace c = true) (hrest : l.cursor.rest = cs ++ tail)
    (htail : GoesOn tail) (htabs : l.inFlow = true ∨ '\t' ∉ cs) {tokens : List Token}
    {depth : Nat} {rest : List Char} (hshort : rest.length < tail.length) {P : Lexer → Prop}
    (htoken : ∀ m : Lexer, m.Calm → m.back = l.back →
      m.keysAround.length = l.keysAround.length → m.cursor.rest = tail →
      (l.inFlow = true → m.keyAllowed = l.keyAllowed) →
      ∃ l', m.token = some l' ∧ l'.Calm ∧ l'.back = tokens.reverse ++ m.back ∧
        l'.keysAround.length = depth ∧ l'.cursor.rest = rest ∧ P l') :
    ∃ l', l.Reads tokens depth rest l' ∧ P l' := by
  obtain ⟨cursor, allowed, hspace, hcursor, hallowed⟩ := skipSpace_append htail cs hcs l hrest htabs
  have hm : ({ l with cursor, keyAllowed := allowed } : Lexer).Calm :=
    ⟨hl.key, hl.keysAround, hl.indent, hl.outer⟩
  obtain ⟨key, keysAround, hfresh, hcalm, hlength, -⟩ := hm.freshKeys
  obtain ⟨l', htaken, hcalm', hback, hdepth, hleft, hP⟩ := htoken _ hcalm rfl hlength hcursor hallowed
  have hskip : ∀ steps, l.cursor.rest.length + 1 ≤ steps →
      l.skipMark.skipSpace steps = { l with cursor, keyAllowed := allowed } := by
    intro steps hsteps
    rw [skipMark_eq hcs htail hrest]
    rw [hrest, List.length_append] at hsteps
    exact hspace steps (by omega)
  refine ⟨l', ⟨leads_of_token hskip hfresh hcalm htaken ?_ ?_, hcalm', hback, hdepth, hleft⟩, hP⟩
  · intro hnone
    rw [hcursor.symm.trans hnone] at hshort
    exact absurd hshort (Nat.not_lt_zero _)
  · rw [hleft, hrest, List.length_append]
    omega

/-! ## Marks -/

/-- The brackets that open a collection, with their tokens. -/
def opening : List (Char × Token) := [('[', .openBracket), ('\x7b', .openBrace)]

/-- The brackets that close a collection, with their tokens. -/
def closing : List (Char × Token) := [(']', .closeBracket), ('\x7d', .closeBrace)]

section Marks

variable {m : Lexer} {char : Char} {rest : List Char}

theorem token_open {t : Token} (hchar : (char, t) ∈ opening) (hrest : m.cursor.rest = char :: rest) :
    m.token = m.openFlow t := by
  simp only [opening, List.mem_cons, Prod.mk.injEq, List.not_mem_nil, or_false] at hchar
  rcases hchar with ⟨rfl, rfl⟩ | ⟨rfl, rfl⟩ <;>
    simp [token, Cursor.peek?_of_rest hrest, Cursor.isAtMark, Cursor.isAt_of_rest hrest]

theorem token_close {t : Token} (hchar : (char, t) ∈ closing)
    (hrest : m.cursor.rest = char :: rest) : m.token = m.closeFlow t := by
  simp only [closing, List.mem_cons, Prod.mk.injEq, List.not_mem_nil, or_false] at hchar
  rcases hchar with ⟨rfl, rfl⟩ | ⟨rfl, rfl⟩ <;>
    simp [token, Cursor.peek?_of_rest hrest, Cursor.isAtMark, Cursor.isAt_of_rest hrest]

theorem token_comma (hrest : m.cursor.rest = ',' :: rest) :
    m.token = m.dropKey.map fun l =>
      { l.emit .comma (m.cursor.skip 1) with keyAllowed := true } := by
  simp [token, Cursor.peek?_of_rest hrest, Cursor.isAtMark, Cursor.isAt_of_rest hrest]

theorem token_value (hflow : m.inFlow = true) (hrest : m.cursor.rest = ':' :: rest) :
    m.token = m.value := by
  simp [token, Cursor.peek?_of_rest hrest, Cursor.isAtMark, Cursor.isAt_of_rest hrest, hflow]

theorem token_quoted (hrest : m.cursor.rest = '"' :: rest) :
    m.token = m.keyed ((Quoted.read .double m.cursor).map fun (text, c) =>
      (.scalar text false, c)) := by
  simp [token, Cursor.peek?_of_rest hrest, Cursor.isAtMark, Cursor.isAt_of_rest hrest]

end Marks

variable {l : Lexer} {gap : Space} {rest : List Char}

/-- An opening bracket goes one level deeper, and a key may start behind it. -/
theorem reads_open (hl : l.Calm) {char : Char} {t : Token} (hchar : (char, t) ∈ opening)
    (hrest : l.cursor.rest = gap.val ++ char :: rest)
    (htabs : l.inFlow = true ∨ '\t' ∉ gap.val) :
    ∃ l', l.Reads [t] (l.keysAround.length + 1) rest l' ∧ l'.keyAllowed = true := by
  have htail : GoesOn (char :: rest) := by
    intro c hc
    obtain rfl : char = c := Option.some.inj hc
    simp only [opening, List.mem_cons, Prod.mk.injEq, List.not_mem_nil, or_false] at hchar
    rcases hchar with ⟨rfl, -⟩ | ⟨rfl, -⟩ <;> decide
  refine reads_token hl gap.property hrest htail htabs (Nat.lt_succ_self _) ?_
  intro m hm hback hdepth hcursor hallowed
  obtain ⟨key, hnote, hcalm, -⟩ := hm.noteKey
  have htoken : m.token = some { m with
      cursor := m.cursor.skip 1, back := t :: m.back, key := none
      keysAround := key :: m.keysAround, keyAllowed := true } := by
    rw [token_open hchar hcursor, openFlow, hnote]
    rfl
  have hfree := List.forall_mem_cons.mpr ⟨hcalm.key, hcalm.keysAround⟩
  refine ⟨_, htoken, ⟨by simp, hfree, hm.indent, hm.outer⟩, rfl, ?_, ?_, rfl⟩
  · rw [← hdepth]
    rfl
  · rw [Cursor.rest_skip, hcursor]
    rfl

/-- A closing bracket goes one level up. -/
theorem reads_close (hl : l.Calm) (hflow : l.inFlow = true) {char : Char} {t : Token}
    (hchar : (char, t) ∈ closing) (hrest : l.cursor.rest = gap.val ++ char :: rest) :
    ∃ l', l.Reads [t] (l.keysAround.length - 1) rest l' := by
  have htail : GoesOn (char :: rest) := by
    intro c hc
    obtain rfl : char = c := Option.some.inj hc
    simp only [closing, List.mem_cons, Prod.mk.injEq, List.not_mem_nil, or_false] at hchar
    rcases hchar with ⟨rfl, -⟩ | ⟨rfl, -⟩ <;> decide
  have hreads : ∃ l', l.Reads [t] (l.keysAround.length - 1) rest l' ∧ l'.keyAllowed = false := by
    refine reads_token hl gap.property hrest htail (.inl hflow) (Nat.lt_succ_self _) ?_
    intro m hm hback hdepth hcursor hallowed
    have hcursor' : (m.cursor.skip 1).rest = rest := by
      rw [Cursor.rest_skip, hcursor]
      rfl
    obtain ⟨key, keysAround, hkeys⟩ : ∃ key keysAround, m.keysAround = key :: keysAround := by
      rw [inFlow_iff, ← hdepth] at hflow
      exact List.exists_cons_of_length_pos hflow
    have htoken : m.token = some { m with
        cursor := m.cursor.skip 1, back := t :: m.back, key, keysAround, keyAllowed := false } := by
      rw [token_close hchar hcursor, closeFlow, hm.dropKey]
      simp only [Option.map_some, emit, hkeys]
    have hfree := hm.keysAround
    rw [hkeys] at hfree
    obtain ⟨hkey, hothers⟩ := List.forall_mem_cons.mp hfree
    refine ⟨_, htoken, ⟨hkey, hothers, hm.indent, hm.outer⟩, rfl, ?_, hcursor', rfl⟩
    rw [← hdepth, hkeys]
    rfl
  obtain ⟨l', hl', -⟩ := hreads
  exact ⟨l', hl'⟩

/-- A comma stays on the level, and a key may start behind it. -/
theorem reads_comma (hl : l.Calm) (hflow : l.inFlow = true)
    (hrest : l.cursor.rest = gap.val ++ ',' :: rest) :
    ∃ l', l.Reads [.comma] l.keysAround.length rest l' ∧ l'.keyAllowed = true := by
  refine reads_token hl gap.property hrest (goesOn_of_mem (by simp) rest) (.inl hflow)
    (Nat.lt_succ_self _) ?_
  intro m hm hback hdepth hcursor hallowed
  have htoken : m.token = some { m with
      cursor := m.cursor.skip 1, back := .comma :: m.back, key := none, keyAllowed := true } := by
    rw [token_comma hcursor, hm.dropKey]
    rfl
  refine ⟨_, htoken, ⟨by simp, hm.keysAround, hm.indent, hm.outer⟩, rfl, hdepth, ?_, rfl⟩
  rw [Cursor.rest_skip, hcursor]
  rfl

/-! ## Texts and names -/

/-- A text between quotes is one token; where a key may start, one is noted at its place. -/
theorem reads_text (hl : l.Calm) (hflow : l.inFlow = true) {cs : List SpelledChar}
    (hcs : ∀ s ∈ cs, s.IsCommon) (hrest : l.cursor.rest = gap.val ++ (quotedText cs ++ rest)) :
    ∃ l', l.Reads [.scalar (meant cs) false] l.keysAround.length rest l' ∧
      (l.keyAllowed = true → ∃ place, l'.key = some ⟨false, l.back.length, place⟩ ∧
        place.line = l'.cursor.line ∧
        l'.cursor.index = place.index + (quotedText cs).length) := by
  obtain ⟨more, hmore⟩ : ∃ more, quotedText cs ++ rest = '"' :: more := ⟨_, rfl⟩
  have htail : GoesOn (quotedText cs ++ rest) := by
    intro c hc
    rw [hmore] at hc
    obtain rfl : '"' = c := Option.some.inj hc
    decide
  refine reads_token hl gap.property hrest htail (.inl hflow) ?_ ?_
  · rw [List.length_append, quotedText, List.length_cons]
    omega
  intro m hm hback hdepth hcursor hallowed
  obtain ⟨key, hnote, hcalm, hnoted⟩ := hm.noteKey
  have htoken : m.token = some { m with
      cursor := m.cursor.skip (quotedText cs).length, back := .scalar (meant cs) false :: m.back
      key, keyAllowed := false } := by
    rw [token_quoted (hcursor.trans hmore), keyed, hnote, Quoted.read_spelled hcs hcursor]
    rfl
  refine ⟨_, htoken, ⟨hcalm.key, hcalm.keysAround, hm.indent, hm.outer⟩, rfl, hdepth, ?_,
    fun hkey => ?_⟩
  · rw [Cursor.rest_skip, hcursor, List.drop_left]
  · refine ⟨m.cursor, ?_, rfl, rfl⟩
    rw [← hback]
    exact hnoted ((hallowed hflow).trans hkey)

/-- Blanks in front of a colon leave the reader in the line. -/
theorem skipSpace_blanks (hflow : l.inFlow = true) {cs : List Char}
    (hcs : ∀ c ∈ cs, isBlank c = true) {tail : List Char} (htail : GoesOn tail)
    (hrest : l.cursor.rest = cs ++ tail) (steps : Nat) :
    skipSpace (steps + 1) l = { l with cursor := l.cursor.skip cs.length } := by
  have hclass (d : Char) :
      (d == ' ' || (d == '\t' && (l.inFlow || !l.keyAllowed))) = isBlank d := by
    rw [hflow, Bool.true_or, Bool.and_true, isBlank]
  have hskip : l.cursor.skipAll
      (fun d => d == ' ' || (d == '\t' && (l.inFlow || !l.keyAllowed))) = l.cursor.skip cs.length :=
    Cursor.skipAll_append (fun d hd => (hclass d).trans (hcs d hd)) hrest
      (fun d hd => (hclass d).trans (htail d hd).2.1)
  have hnext : (l.cursor.skip cs.length).rest = tail := by
    rw [Cursor.rest_skip, hrest, List.drop_left]
  obtain ⟨hcomment, hbreak⟩ := htail.here hnext
  simp only [skipSpace, hskip, hcomment, hbreak, Bool.false_eq_true, if_false]

/-- A colon near enough to a noted key puts the key in front of its text. -/
theorem reads_colon (hl : l.Calm) (hflow : l.inFlow = true)
    (hgap : ∀ c ∈ gap.val, isBlank c = true) (hrest : l.cursor.rest = gap.val ++ ':' :: rest)
    {text : Token} {back : List Token} (hback : l.back = text :: back) {place : Cursor}
    (hkey : l.key = some ⟨false, back.length, place⟩) (hline : place.line = l.cursor.line)
    (hnear : l.cursor.index + gap.val.length ≤ place.index + 1024) :
    ∃ l', l.Leads l' ∧ l'.Calm ∧ l'.back = .value :: text :: .key :: back ∧
      l'.keysAround.length = l.keysAround.length ∧ l'.cursor.rest = rest := by
  have htail : GoesOn (':' :: rest) := by
    intro c hc
    obtain rfl : ':' = c := Option.some.inj hc
    decide
  have hm : ({ l with cursor := l.cursor.skip gap.val.length } : Lexer).Calm :=
    ⟨hl.key, hl.keysAround, hl.indent, hl.outer⟩
  have hcursor : (l.cursor.skip gap.val.length).rest = ':' :: rest := by
    rw [Cursor.rest_skip, hrest, List.drop_left]
  obtain ⟨key, keysAround, hfresh, hcalm, hlength, hkept⟩ := hm.freshKeys
  have hstale : isStale (l.cursor.skip gap.val.length) ⟨false, back.length, place⟩ = false := by
    simp only [isStale, Cursor.line_skip, Cursor.index_skip, hline, Bool.or_eq_false_iff]
    exact ⟨decide_eq_false (Nat.lt_irrefl _), decide_eq_false (by omega)⟩
  have hkey' : key = some ⟨false, back.length, place⟩ := by
    rw [hkey, freshKey, hstale] at hkept
    exact (Option.some.inj hkept).symm
  subst hkey'
  have hinside : keysAround.isEmpty = false := by
    rw [inFlow_iff] at hflow
    rw [List.isEmpty_eq_false_iff, ← List.length_pos_iff, hlength]
    exact hflow
  have htoken : Lexer.token { l with
      cursor := l.cursor.skip gap.val.length, key := some ⟨false, back.length, place⟩
      keysAround } = some { l with
        cursor := (l.cursor.skip gap.val.length).skip 1
        back := .value :: text :: .key :: back, key := none, keysAround, keyAllowed := false } := by
    rw [token_value (by rw [inFlow, hinside]; rfl) hcursor]
    simp [value, insert, openBlock, inFlow, hinside, emit, hback]
  have hskip : ∀ steps, l.cursor.rest.length + 1 ≤ steps →
      l.skipMark.skipSpace steps = { l with cursor := l.cursor.skip gap.val.length } := by
    intro steps hsteps
    obtain ⟨steps, rfl⟩ := Nat.exists_eq_succ_of_ne_zero (Nat.ne_zero_of_lt hsteps)
    rw [skipMark_eq gap.property htail hrest]
    exact skipSpace_blanks hflow hgap htail hrest steps
  have hnext : ((l.cursor.skip gap.val.length).skip 1).rest = rest := by
    rw [Cursor.rest_skip, hcursor]
    rfl
  refine ⟨_, leads_of_token hskip hfresh hcalm htoken ?_ ?_,
    ⟨by simp, hcalm.keysAround, hl.indent, hl.outer⟩, rfl, hlength, hnext⟩
  · rw [hcursor]
    exact List.cons_ne_nil _ _
  · rw [hnext, hrest, List.length_append, List.length_cons]
    omega

/-- A name and its colon are a key, the text of the name and a value mark. -/
theorem reads_name (hl : l.Calm) (hflow : l.inFlow = true) (hallowed : l.keyAllowed = true)
    {name : List SpelledChar} (hname : ∀ s ∈ name, s.IsCommon) {gap' : Space}
    (hgap : ∀ c ∈ gap'.val, isBlank c = true) (hnear : (quotedText name ++ gap'.val).length ≤ 1024)
    (hrest : l.cursor.rest = gap.val ++ (quotedText name ++ (gap'.val ++ ':' :: rest))) :
    ∃ l', l.Reads [.key, .scalar (meant name) false, .value] l.keysAround.length rest l' := by
  obtain ⟨m, hm, hnoted⟩ := reads_text hl hflow hname hrest
  obtain ⟨place, hkey, hline, hindex⟩ := hnoted hallowed
  have hflow' : m.inFlow = true := by
    rw [inFlow_iff, hm.depth]
    exact (inFlow_iff l).mp hflow
  rw [List.length_append] at hnear
  obtain ⟨l', hleads, hcalm, hback, hdepth, hleft⟩ := reads_colon hm.calm hflow' hgap hm.rest
    hm.back hkey hline (by omega)
  exact ⟨l', hm.leads.trans hleads, hcalm, hback, hdepth.trans hm.depth, hleft⟩

/-! ## Words -/

/-- A word that a plain scalar may be: it starts with a letter or a digit, or with a minus in front
of a digit, and has no mark of a collection. -/
structure IsWord (word : List Char) : Prop where
  start : ∃ c cs, word = c :: cs ∧
    (c.isAlphanum = true ∨ c = '-' ∧ ∃ d ds, cs = d :: ds ∧ d.isDigit = true)
  inside : ∀ c ∈ word, isWordChar c = true

theorem ne_of_isAlphanum {c d : Char} (hc : c.isAlphanum = true) (hd : d.isAlphanum = false) :
    c ≠ d := by
  rintro rfl
  rw [hd] at hc
  cases hc

theorem isAlphanum_of_isDigit {c : Char} (hc : c.isDigit = true) : c.isAlphanum = true := by
  rw [Char.isAlphanum, hc, Bool.or_true]

theorem endsWord_of_isAlphanum {c : Char} (hc : c.isAlphanum = true) : endsWord (some c) = false := by
  have hne (d : Char) (hd : d.isAlphanum = false) := beq_false_of_ne (ne_of_isAlphanum hc hd)
  simp only [endsWord, isBlank, isBreak, hne ' ' (by decide), hne '\t' (by decide),
    hne '\n' (by decide), hne '\r' (by decide), hne '\u0085' (by decide),
    hne '\u2028' (by decide), hne '\u2029' (by decide), Bool.or_self]

theorem token_alphanum {m : Lexer} {c : Char} {cs : List Char} (hc : c.isAlphanum = true)
    (hrest : m.cursor.rest = c :: cs) : m.token = m.noteKey.bind plain? := by
  have hne (d : Char) (hd : d.isAlphanum = false) : c ≠ d := ne_of_isAlphanum hc hd
  have hplain : startsPlain m.inFlow m.cursor = true := by
    have hmark : "-?:,[]\x7b\x7d#&*!|>'\"%@\x60".toList.contains c = false := by
      refine Bool.eq_false_iff.mpr fun hmem => ?_
      have hnone : "-?:,[]\x7b\x7d#&*!|>'\"%@\x60".toList.all fun d => !d.isAlphanum := by decide
      have hother := List.all_eq_true.mp hnone c (List.contains_iff_mem.mp hmem)
      rw [hc] at hother
      cases hother
    simp only [startsPlain, Cursor.peek?_of_rest hrest, endsWord_of_isAlphanum hc, Cursor.isAtAny,
      hmark, Bool.not_false, Bool.and_self, Bool.true_or]
  simp [token, Cursor.peek?_of_rest hrest, Cursor.isAtMark, Cursor.isAt_of_rest hrest, hplain,
    hne '%' (by decide), hne '-' (by decide), hne '.' (by decide), hne '[' (by decide),
    hne ']' (by decide), hne '\x7b' (by decide), hne '\x7d' (by decide), hne ',' (by decide),
    hne '?' (by decide), hne ':' (by decide), hne '*' (by decide), hne '&' (by decide),
    hne '!' (by decide), hne '|' (by decide), hne '>' (by decide), hne '\'' (by decide),
    hne '"' (by decide)]

theorem token_minus {m : Lexer} {d : Char} {cs : List Char} (hd : d.isDigit = true)
    (hrest : m.cursor.rest = '-' :: d :: cs) : m.token = m.noteKey.bind plain? := by
  have hdigit := isAlphanum_of_isDigit hd
  have hnext : m.cursor.peekAt? 1 = some d := by
    rw [Cursor.peekAt?, hrest]
    rfl
  have hends := endsWord_of_isAlphanum hdigit
  have hblank : isBlank d = false := by
    simp only [endsWord, Bool.or_eq_false_iff] at hends
    exact hends.1
  simp [token, Cursor.peek?_of_rest hrest, Cursor.isAtMark, Cursor.isAt_of_rest hrest, hnext, hends,
    ne_of_isAlphanum hdigit (d := '-') (by decide), startsPlain, hblank]

section Word

variable {word tail : List Char}

theorem IsWord.goesOn (hword : IsWord word) (tail : List Char) : GoesOn (word ++ tail) := by
  obtain ⟨c, cs, rfl, hstart⟩ := hword.start
  intro d hd
  obtain rfl : c = d := Option.some.inj hd
  rcases hstart with halphanum | ⟨rfl, -⟩
  · have hends := endsWord_of_isAlphanum halphanum
    simp only [endsWord, Bool.or_eq_false_iff] at hends
    have hspace : Fragment.isSpace c = false := by
      refine Bool.eq_false_iff.mpr fun hspace => ?_
      rcases isBlank_or_isBreak_of_isSpace hspace with hblank | hbreak
      · exact Bool.eq_false_iff.mp hends.1 hblank
      · exact Bool.eq_false_iff.mp hends.2 hbreak
    exact ⟨hspace, hends.1, hends.2, ne_of_isAlphanum halphanum (by decide),
      ne_of_isAlphanum halphanum (by decide)⟩
  · decide

theorem IsWord.isAtEdge (hword : IsWord word) {c : Cursor} (hrest : c.rest = word ++ tail) :
    c.isAtEdge = false := by
  obtain ⟨first, cs, rfl, halphanum | ⟨rfl, d, ds, rfl, hd⟩⟩ := hword.start
  · exact Cursor.isAtEdge_of_rest hrest (ne_of_isAlphanum halphanum (by decide))
      (ne_of_isAlphanum halphanum (by decide))
  · have hnext : c.peekAt? 1 = some d := by
      rw [Cursor.peekAt?, hrest]
      rfl
    have hdash : d ≠ '-' := ne_of_isAlphanum (isAlphanum_of_isDigit hd) (by decide)
    simp [Cursor.isAtEdge, Cursor.isAtMark, Cursor.isAt_of_rest hrest, hnext, hdash]

theorem IsWord.token (hword : IsWord word) {m : Lexer} (hrest : m.cursor.rest = word ++ tail) :
    m.token = m.noteKey.bind plain? := by
  obtain ⟨c, cs, rfl, halphanum | ⟨rfl, d, ds, rfl, hd⟩⟩ := hword.start
  · exact token_alphanum halphanum hrest
  · exact token_minus hd hrest

end Word

/-- A word is a plain scalar; the white space behind it is taken with it. -/
theorem reads_word (hl : l.Calm) (hflow : l.inFlow = true) {word : List Char} (hword : IsWord word)
    (after : Space) {char : Char} (hchar : char ∈ [',', ']', '\x7d'])
    (hrest : l.cursor.rest = gap.val ++ (word ++ (after.val ++ char :: rest))) :
    ∃ l', l.Reads [.scalar (String.ofList word) true] l.keysAround.length (char :: rest) l' := by
  have hne : word ≠ [] := by
    obtain ⟨c, cs, rfl, -⟩ := hword.start
    exact List.cons_ne_nil c cs
  have hshort : (char :: rest).length < (word ++ (after.val ++ char :: rest)).length := by
    have hlength := List.length_pos_of_ne_nil hne
    simp only [List.length_append, List.length_cons]
    omega
  have hreads : ∃ l', l.Reads [.scalar (String.ofList word) true] l.keysAround.length
      (char :: rest) l' ∧ True := by
    refine reads_token hl gap.property hrest (hword.goesOn _) (.inl hflow) hshort ?_
    intro m hm hback hdepth hcursor hallowed
    obtain ⟨key, hnote, hcalm, -⟩ := hm.noteKey
    have hinside : ({ m with key } : Lexer).inFlow = true := by
      rw [inFlow_iff]
      exact hdepth ▸ (inFlow_iff l).mp hflow
    obtain ⟨p, hplain, hpback, hpnext⟩ := plainFrom_word hword.inside hne after hchar rest
      (hword.isAtEdge hcursor) ((hword.goesOn _).here hcursor).1 hcursor
    have htoken : m.token = some { m with
        cursor := p.next, back := .scalar (String.ofList word) true :: m.back, key
        keyAllowed := p.gap.broken } := by
      rw [hword.token hcursor, hnote, Option.bind_some, plain?, hinside, hm.indent]
      simp only [hplain, hpback, List.reverse_reverse, emit]
    exact ⟨_, htoken, ⟨hcalm.key, hcalm.keysAround, hm.indent, hm.outer⟩, rfl, hdepth, hpnext,
      trivial⟩
  obtain ⟨l', hl', -⟩ := hreads
  exact ⟨l', hl'⟩

end Lexer

end Yaml

end Stepwise
