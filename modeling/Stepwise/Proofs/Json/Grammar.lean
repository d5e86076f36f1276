import Stepwise.Proofs.Json.Spelled

/-!
# Texts that are read are spelled

A text is read as a value only if it spells the value, so the spellings are the whole notation.
-/

namespace Stepwise

namespace Json

variable {cs xs ys left : List Char}

/-! ## Literals without what stands behind them -/

/-- What no reading takes may be cut off behind it. -/
theorem readDigits_cut {ds : List Char} (h : readDigits (xs ++ left) = some (ds, ys ++ left)) :
    readDigits xs = some (ds, ys) := by
  obtain ⟨hcs, hne, hds⟩ := exists_of_readDigits h
  rw [← List.append_assoc, List.append_cancel_right_eq] at hcs
  subst hcs
  have hdrop : (ys ++ left).dropWhile Char.isDigit = ys ++ left := by
    rw [List.append_assoc, readDigits, List.takeWhile_append_of_pos hds,
      List.dropWhile_append_of_pos hds] at h
    split at h
    · cases h
    · exact (Prod.mk.inj (Option.some.inj h)).2
  have hstop : ys.takeWhile Char.isDigit = [] ∧ ys.dropWhile Char.isDigit = ys := by
    cases ys with
    | nil => exact ⟨rfl, rfl⟩
    | cons c ys =>
        have hc : c.isDigit = false := by
          refine Bool.eq_false_iff.mpr fun hc => ?_
          rw [List.cons_append, List.dropWhile_cons_of_pos hc] at hdrop
          have hlength := (List.dropWhile_suffix Char.isDigit (l := ys ++ left)).length_le
          rw [hdrop, List.length_cons] at hlength
          exact Nat.not_succ_le_self _ hlength
        simp [hc]
  rw [readDigits, List.takeWhile_append_of_pos hds, List.dropWhile_append_of_pos hds, hstop.1,
    hstop.2, List.append_nil]
  cases ds with
  | nil => exact absurd rfl hne
  | cons d ds => rfl

theorem readFraction_cut {fraction : Option (List Char)}
    (h : readFraction (xs ++ left) = some (fraction, ys ++ left)) :
    readFraction xs = some (fraction, ys) := by
  unfold readFraction at h
  split at h
  · next rest heq =>
    obtain ⟨⟨ds, behind⟩, hdigits, hpair⟩ := Option.map_eq_some_iff.mp h
    obtain ⟨rfl, rfl⟩ := Prod.mk.inj hpair
    cases xs with
    | nil =>
        -- digits behind a point leave less than there was
        have hlength := congrArg List.length (exists_of_readDigits hdigits).1
        rw [List.nil_append] at heq
        rw [heq] at hlength
        simp only [List.length_append, List.length_cons] at hlength
        omega
    | cons c xs =>
        obtain ⟨rfl, rfl⟩ := List.cons.inj heq
        rw [readFraction, readDigits_cut hdigits]
        rfl
  · next hpoint =>
    obtain ⟨rfl, hsame⟩ := Prod.mk.inj (Option.some.inj h)
    obtain rfl := List.append_cancel_right hsame
    cases xs with
    | nil => rfl
    | cons c xs =>
        have hc : c ≠ '.' := by
          rintro rfl
          exact hpoint _ rfl
        unfold readFraction
        split
        · next heq => exact absurd (List.cons.inj heq).1 hc
        · rfl

/-- Digits behind an optional sign leave less than there was. -/
theorem length_lt_of_readDigits {ds behind : List Char}
    (h : readDigits (Double.splitSign cs).2 = some (ds, behind)) : behind.length < cs.length := by
  obtain ⟨sign, hsign, -⟩ := exists_of_splitSign cs
  obtain ⟨hrest, hne, -⟩ := exists_of_readDigits h
  have hpos := List.length_pos_of_ne_nil hne
  have hlength := congrArg List.length hsign
  rw [hrest] at hlength
  simp only [List.length_append] at hlength
  omega

theorem readExponent_cut {power : Option Int}
    (h : readExponent (xs ++ left) = some (power, ys ++ left)) :
    readExponent xs = some (power, ys) := by
  cases hcs : xs ++ left with
  | nil =>
      obtain ⟨rfl, rfl⟩ := List.append_eq_nil_iff.mp hcs
      rwa [List.append_nil, List.append_nil] at h
  | cons c cs =>
      rw [hcs] at h
      simp only [readExponent] at h
      split at h
      · next he =>
        obtain ⟨⟨ds, behind⟩, hdigits, hpair⟩ := Option.map_eq_some_iff.mp h
        obtain ⟨hpower, rfl⟩ := Prod.mk.inj hpair
        have hshort := length_lt_of_readDigits hdigits
        have hlength := congrArg List.length hcs
        simp only [List.length_append, List.length_cons] at hshort hlength
        obtain _ | ⟨e, _ | ⟨d, xs⟩⟩ := xs
        · simp only [List.length_nil] at hlength
          omega
        · simp only [List.length_cons, List.length_nil] at hlength
          omega
        · obtain ⟨rfl, hrest⟩ := List.cons.inj hcs
          have hrest' : cs = (d :: xs) ++ left := hrest.symm
          rw [hrest', splitSign_append (List.cons_ne_nil d xs)] at hdigits hpower
          simp only [readExponent, if_pos he, readDigits_cut hdigits, Option.map_some, ← hpower]
      · next he =>
        obtain ⟨rfl, hsame⟩ := Prod.mk.inj (Option.some.inj h)
        rw [← hcs] at hsame
        obtain rfl := List.append_cancel_right hsame
        cases xs with
        | nil => rfl
        | cons d xs =>
            obtain ⟨rfl, -⟩ := List.cons.inj hcs
            rw [readExponent, if_neg he]

theorem readMagnitude_cut {negative : Bool} {n : Number}
    (h : readMagnitude negative (xs ++ left) = some (n, left)) :
    readMagnitude negative xs = some (n, []) := by
  obtain ⟨whole, fraction, power, behind, behind', hwhole, hlead, hfraction, hpower, hnumber⟩ :=
    readMagnitude_eq_some_iff.mp h
  obtain ⟨taken, rfl, -⟩ := exists_of_readFraction hfraction
  obtain ⟨taken', rfl, -⟩ := exists_of_readExponent hpower
  rw [← List.append_assoc] at hwhole
  exact readMagnitude_eq_some_iff.mpr ⟨whole, fraction, power, taken ++ taken', taken',
    readDigits_cut hwhole, hlead, readFraction_cut (by rwa [List.append_assoc]),
    readExponent_cut hpower, hnumber⟩

/-- A number that is read is a literal in front of what is left. -/
theorem exists_of_readNumber {n : Number} (h : readNumber cs = some (n, left)) :
    ∃ s : SpelledNumber, cs = s.literal ++ left ∧ s.number = n := by
  by_cases hminus : cs.head? = some '-'
  · obtain ⟨digits, rfl⟩ := List.head?_eq_some_iff.mp hminus
    rw [readNumber_minus] at h
    obtain ⟨d, taken, rfl, -, -⟩ := exists_of_readMagnitude h
    exact ⟨⟨'-' :: d :: taken, n, by rw [readNumber_minus, readMagnitude_cut h]⟩, rfl, rfl⟩
  · rw [readNumber_of_head hminus] at h
    obtain ⟨d, taken, rfl, -, -⟩ := exists_of_readMagnitude h
    have hhead : (d :: taken).head? ≠ some '-' := hminus
    exact ⟨⟨d :: taken, n, by rw [readNumber_of_head hhead, readMagnitude_cut h]⟩, rfl, rfl⟩

end Json

namespace Fragment

open Json (Space SpelledChar SpelledNumber Spelled SpelledItems SpelledMembers SpelledText)

/-! ## Texts and white space -/

/-- Spelled characters up to a closing quote. -/
def SpellsText (cs chars rest : List Char) : Prop :=
  ∃ spelled : List SpelledChar, cs = spelled.flatMap SpelledChar.text ++ '"' :: rest ∧
    spelled.map SpelledChar.char = chars

theorem SpellsText.cons {tail chars rest : List Char} (s : SpelledChar)
    (ih : ∀ {chars rest : List Char}, readText tail = some (chars, rest) →
      SpellsText tail chars rest)
    (h : (readText tail).map (fun x => (s.char :: x.1, x.2)) = some (chars, rest)) :
    SpellsText (s.text ++ tail) chars rest := by
  obtain ⟨⟨chars', rest'⟩, htail, hpair⟩ := Option.map_eq_some_iff.mp h
  obtain ⟨rfl, rfl⟩ := Prod.mk.inj hpair
  obtain ⟨spelled, htext, hchars⟩ := ih htail
  refine ⟨s :: spelled, ?_, ?_⟩
  · rw [List.flatMap_cons, List.append_assoc, ← htext]
  · rw [List.map_cons, hchars]

/-- A text that is read is spelled up to the closing quote. -/
theorem spellsText_of_readText (cs : List Char) {chars rest : List Char}
    (h : readText cs = some (chars, rest)) : SpellsText cs chars rest := by
  fun_induction readText cs generalizing chars rest with
  | case1 | case3 | case4 | case6 | case7 | case8 | case10 | case12 => cases h
  | case2 rest' =>
      cases h
      exact ⟨[], rfl, rfl⟩
  | case5 a b c d lead hread hlead e f g k rest' trail hread' htrail ih =>
      exact SpellsText.cons (.pair a b c d lead hread e f g k trail hread' ⟨hlead, htrail⟩) ih h
  | case9 a b c d rest' unit hread hlead htrail ih =>
      exact SpellsText.cons (.unit a b c d unit hread
        ⟨Bool.eq_false_iff.mpr hlead, Bool.eq_false_iff.mpr htrail⟩) ih h
  | case11 letter rest' _ char hread ih => exact SpellsText.cons (.short letter char hread) ih h
  | case13 char rest' hquote _ _ hplain ih =>
      obtain ⟨hcontrol, hback⟩ := not_or.mp hplain
      exact SpellsText.cons (.plain char ⟨Nat.le_of_not_lt hcontrol, hquote, hback⟩) ih h

theorem exists_of_skipSpace {cs rest : List Char} {c : Char} (h : skipSpace cs = c :: rest) :
    ∃ gap : Space, cs = gap.val ++ c :: rest := by
  refine ⟨⟨cs.takeWhile isSpace, fun d hd => List.mem_takeWhile_imp hd⟩, ?_⟩
  rw [← h, skipSpace, List.takeWhile_append_dropWhile]

/-! ## Values -/

section Rounds

variable {item : List Char → Reading Fragment} {rounds : Nat} {cs rest : List Char}

/-- Items that are read are an item, and a comma with further ones or the closing bracket. -/
theorem readItems_cases {vs : List Fragment} (h : readItems item (rounds + 1) cs = (vs, some rest)) :
    ∃ f behind, item cs = (f, some behind) ∧
      ((∃ next vs', skipSpace behind = ',' :: next ∧
          readItems item rounds next = (vs', some rest) ∧ vs = f :: vs') ∨
        (skipSpace behind = ']' :: rest ∧ vs = [f])) := by
  rw [readItems] at h
  split at h
  · cases h
  · next f behind hitem =>
    refine ⟨f, behind, hitem, ?_⟩
    split at h
    · next next hcomma =>
      obtain ⟨rfl, hrest⟩ := Prod.mk.inj h
      exact .inl ⟨next, _, hcomma, Prod.ext rfl hrest, rfl⟩
    · next rest' hclose =>
      obtain ⟨rfl, hrest⟩ := Prod.mk.inj h
      exact .inr ⟨Option.some.inj hrest ▸ hclose, rfl⟩
    · cases h

/-- Members that are read are a name, a colon and a value, and a comma with further ones or the
closing brace. -/
theorem readMembers_cases {ms : List (String × Fragment)}
    (h : readMembers item (rounds + 1) cs = (ms, some rest)) :
    ∃ quoted key gap value f behind, skipSpace cs = '"' :: quoted ∧
      readText quoted = some (key, gap) ∧ skipSpace gap = ':' :: value ∧
      item value = (f, some behind) ∧
      ((∃ next ms', skipSpace behind = ',' :: next ∧
          readMembers item rounds next = (ms', some rest) ∧
          ms = (String.ofList key, f) :: ms') ∨
        (skipSpace behind = '\x7d' :: rest ∧ ms = [(String.ofList key, f)])) := by
  rw [readMembers] at h
  split at h
  · next quoted hquote =>
    split at h
    · cases h
    · next key gap htext =>
      dsimp only at h
      split at h
      · next value hcolon =>
        split at h
        · cases h
        · next f behind hitem =>
          refine ⟨quoted, key, gap, value, f, behind, hquote, htext, hcolon, hitem, ?_⟩
          split at h
          · next next hcomma =>
            obtain ⟨rfl, hrest⟩ := Prod.mk.inj h
            exact .inl ⟨next, _, hcomma, Prod.ext rfl hrest, rfl⟩
          · next rest' hclose =>
            obtain ⟨rfl, hrest⟩ := Prod.mk.inj h
            exact .inr ⟨Option.some.inj hrest ▸ hclose, rfl⟩
          · cases h
      · cases h
  · cases h

theorem toItems?_cons {f : Fragment} {fs : List Fragment} {js : List Json}
    (h : toItems? (f :: fs) = some js) :
    ∃ j js', f.toJson? = some j ∧ toItems? fs = some js' ∧ js = j :: js' := by
  rw [toItems?] at h
  split at h
  · cases h
  · next j hj =>
    obtain ⟨js', hjs', rfl⟩ := Option.map_eq_some_iff.mp h
    exact ⟨j, js', hj, hjs', rfl⟩

theorem toMembers?_cons {key : String} {f : Fragment} {ms : List (String × Fragment)}
    {js : List (String × Json)} (h : toMembers? ((key, f) :: ms) = some js) :
    ∃ j js', f.toJson? = some j ∧ toMembers? ms = some js' ∧ js = (key, j) :: js' := by
  rw [toMembers?] at h
  split at h
  · cases h
  · next j hj =>
    obtain ⟨js', hjs', rfl⟩ := Option.map_eq_some_iff.mp h
    exact ⟨j, js', hj, hjs', rfl⟩

end Rounds

/-- What is read as a value, with containers to a depth, is white space and a spelling of it. -/
def ReadsSpelled (level : Nat) : Prop :=
  ∀ {cs rest : List Char} {f : Fragment} {j : Json}, readValue level cs = (f, some rest) →
    f.toJson? = some j → ∃ (gap : Space) (v : Spelled), cs = gap.val ++ (v.text ++ rest) ∧
      v.value = j ∧ j.depth ≤ level

variable {level : Nat} {cs rest : List Char}

theorem exists_of_readItems (hvalue : ReadsSpelled level) (rounds : Nat) {vs : List Fragment}
    {js : List Json} (h : readItems (readValue level) rounds cs = (vs, some rest))
    (hjs : toItems? vs = some js) :
    ∃ items : SpelledItems, cs = items.text ++ ']' :: rest ∧ items.values = js ∧
      Json.depthItems js ≤ level := by
  induction rounds generalizing cs vs js with
  | zero => cases h
  | succ rounds ih =>
      obtain ⟨f, behind, hread, ⟨next, vs', hcomma, hnext, rfl⟩ | ⟨hclose, rfl⟩⟩ :=
        readItems_cases h
      · obtain ⟨j, js', hj, hjs', rfl⟩ := toItems?_cons hjs
        obtain ⟨before, v, rfl, rfl, hdepth⟩ := hvalue hread hj
        obtain ⟨after, rfl⟩ := exists_of_skipSpace hcomma
        obtain ⟨items, rfl, rfl, hdepths⟩ := ih hnext hjs'
        refine ⟨.next before v after items, ?_, rfl, Nat.max_le.mpr ⟨hdepth, hdepths⟩⟩
        simp only [SpelledItems.text, List.append_assoc, List.cons_append]
      · obtain ⟨j, js', hj, hnil, rfl⟩ := toItems?_cons hjs
        obtain rfl := Option.some.inj hnil
        obtain ⟨before, v, rfl, rfl, hdepth⟩ := hvalue hread hj
        obtain ⟨after, rfl⟩ := exists_of_skipSpace hclose
        refine ⟨.last before v after, ?_, rfl, Nat.max_le.mpr ⟨hdepth, Nat.zero_le _⟩⟩
        simp only [SpelledItems.text, List.append_assoc]

theorem exists_of_readMembers (hvalue : ReadsSpelled level) (rounds : Nat)
    {ms : List (String × Fragment)} {js : List (String × Json)}
    (h : readMembers (readValue level) rounds cs = (ms, some rest))
    (hjs : toMembers? ms = some js) :
    ∃ members : SpelledMembers, cs = members.text ++ '\x7d' :: rest ∧ members.values = js ∧
      Json.depthMembers js ≤ level := by
  induction rounds generalizing cs ms js with
  | zero => cases h
  | succ rounds ih =>
      obtain ⟨quoted, key, behindName, value, f, behind, hquote, htext, hcolon, hread, hend⟩ :=
        readMembers_cases h
      obtain ⟨before, rfl⟩ := exists_of_skipSpace hquote
      obtain ⟨name, rfl, rfl⟩ := spellsText_of_readText quoted htext
      obtain ⟨gap, rfl⟩ := exists_of_skipSpace hcolon
      rcases hend with ⟨next, ms', hcomma, hnext, rfl⟩ | ⟨hclose, rfl⟩
      · obtain ⟨j, js', hj, hjs', rfl⟩ := toMembers?_cons hjs
        obtain ⟨before', v, rfl, rfl, hdepth⟩ := hvalue hread hj
        obtain ⟨after, rfl⟩ := exists_of_skipSpace hcomma
        obtain ⟨members, rfl, rfl, hdepths⟩ := ih hnext hjs'
        refine ⟨.next before name gap before' v after members, ?_, rfl,
          Nat.max_le.mpr ⟨hdepth, hdepths⟩⟩
        simp only [SpelledMembers.text, Json.quotedText, List.append_assoc, List.cons_append,
          List.nil_append]
      · obtain ⟨j, js', hj, hnil, rfl⟩ := toMembers?_cons hjs
        obtain rfl := Option.some.inj hnil
        obtain ⟨before', v, rfl, rfl, hdepth⟩ := hvalue hread hj
        obtain ⟨after, rfl⟩ := exists_of_skipSpace hclose
        refine ⟨.last before name gap before' v after, ?_, rfl,
          Nat.max_le.mpr ⟨hdepth, Nat.zero_le _⟩⟩
        simp only [SpelledMembers.text, Json.quotedText, List.append_assoc, List.cons_append,
          List.nil_append]

/-- Behind the brackets of a container the level is one less. -/
theorem readsSpelled_of_pred (hpred : ∀ below, level = below + 1 → ReadsSpelled below) :
    ReadsSpelled level := by
  intro cs rest f j h hj
  obtain ⟨gap, hgap⟩ : ∃ gap : Space, cs = gap.val ++ skipSpace cs :=
    ⟨⟨cs.takeWhile isSpace, fun d hd => List.mem_takeWhile_imp hd⟩,
      List.takeWhile_append_dropWhile.symm⟩
  suffices hspelled : ∃ v : Spelled, skipSpace cs = v.text ++ rest ∧ v.value = j ∧
      j.depth ≤ level by
    obtain ⟨v, htext, hvalue⟩ := hspelled
    exact ⟨gap, v, htext ▸ hgap, hvalue⟩
  rw [readValue.eq_def] at h
  replace h := eq_of_orPass h hj
  dsimp only at h
  split at h
  · next rest' hskip =>
    cases h
    cases hj
    exact ⟨.null, hskip, rfl, Nat.zero_le _⟩
  · next rest' hskip =>
    cases h
    cases hj
    exact ⟨.bool true, hskip, rfl, Nat.zero_le _⟩
  · next rest' hskip =>
    cases h
    cases hj
    exact ⟨.bool false, hskip, rfl, Nat.zero_le _⟩
  · next quoted hskip =>
    split at h
    · next chars rest' htext =>
      cases h
      cases hj
      obtain ⟨cs', rfl, rfl⟩ := spellsText_of_readText quoted htext
      refine ⟨.str cs', ?_, rfl, Nat.zero_le _⟩
      simp only [hskip, Spelled.text, Json.quotedText, List.cons_append, List.append_assoc,
        List.nil_append]
    · cases h
  · next inner hskip =>
    cases level with
    | zero => cases h
    | succ below =>
        dsimp only at h
        split at h
        · next rest' hclose =>
          cases h
          cases hj
          obtain ⟨inside, rfl⟩ := exists_of_skipSpace hclose
          refine ⟨.emptyArr inside, ?_, rfl, Nat.succ_le_succ (Nat.zero_le _)⟩
          simp only [hskip, Spelled.text, List.cons_append, List.append_assoc, List.nil_append]
        · obtain ⟨vs, left, hitems⟩ : ∃ vs left, readItems (readValue below)
              ((skipSpace inner).length + 1) (skipSpace inner) = (vs, left) := ⟨_, _, rfl⟩
          simp only [hitems, Prod.mk.injEq] at h
          obtain ⟨rfl, rfl⟩ := h
          obtain ⟨js, hjs, rfl⟩ := Option.map_eq_some_iff.mp hj
          rw [readItems_skipSpace] at hitems
          obtain ⟨items, rfl, rfl, hdepth⟩ := exists_of_readItems (hpred below rfl) _ hitems hjs
          refine ⟨.arr items, ?_, rfl, Nat.succ_le_succ hdepth⟩
          simp only [hskip, Spelled.text, List.cons_append, List.append_assoc, List.nil_append]
  · next inner hskip =>
    cases level with
    | zero => cases h
    | succ below =>
        dsimp only at h
        split at h
        · next rest' hclose =>
          cases h
          cases hj
          obtain ⟨inside, rfl⟩ := exists_of_skipSpace hclose
          refine ⟨.emptyObj inside, ?_, rfl, Nat.succ_le_succ (Nat.zero_le _)⟩
          simp only [hskip, Spelled.text, List.cons_append, List.append_assoc, List.nil_append]
        · obtain ⟨ms, left, hmembers⟩ : ∃ ms left, readMembers (readValue below)
              ((skipSpace inner).length + 1) (skipSpace inner) = (ms, left) := ⟨_, _, rfl⟩
          simp only [hmembers, Prod.mk.injEq] at h
          obtain ⟨rfl, rfl⟩ := h
          obtain ⟨js, hjs, rfl⟩ := Option.map_eq_some_iff.mp hj
          rw [readMembers_skipSpace] at hmembers
          obtain ⟨members, rfl, rfl, hdepth⟩ :=
            exists_of_readMembers (hpred below rfl) _ hmembers hjs
          refine ⟨.obj members, ?_, rfl, Nat.succ_le_succ hdepth⟩
          simp only [hskip, Spelled.text, List.cons_append, List.append_assoc, List.nil_append]
  · next hskip =>
    split at h
    · next n rest' hnumber =>
      cases h
      cases hj
      obtain ⟨s, htext, rfl⟩ := Json.exists_of_readNumber hnumber
      exact ⟨.num s, htext, rfl, Nat.zero_le _⟩
    · cases h

theorem readsSpelled (level : Nat) : ReadsSpelled level := by
  induction level with
  | zero => exact readsSpelled_of_pred fun below hbelow => by cases hbelow
  | succ level ih =>
      refine readsSpelled_of_pred fun below hbelow => ?_
      obtain rfl := Nat.succ.inj hbelow
      exact ih

end Fragment

namespace Json

/-- A text is a value when it spells the value, and the value is not too deep. -/
theorem parse?_eq_some_iff {text : String} {j : Json} :
    parse? text = some j ↔
      ∃ t : SpelledText, t.text = text ∧ t.value = j ∧ j.depth ≤ Fragment.maxDepth := by
  constructor
  · intro h
    obtain ⟨f, left, hread⟩ : ∃ f left, Fragment.readValue Fragment.maxDepth text.toList =
      (f, left) := ⟨_, _, rfl⟩
    rw [parse?, Fragment.ofText, hread] at h
    cases left with
    | none => cases h
    | some left =>
        have hover : Fragment.skipSpace left = [] := by
          cases hleft : Fragment.skipSpace left with
          | nil => rfl
          | cons c cs => simp [hleft] at h
        simp only [hover, List.isEmpty_nil] at h
        obtain ⟨before, v, htext, rfl, hdepth⟩ := Fragment.readsSpelled _ hread h
        have hafter : ∀ c ∈ left, Fragment.isSpace c = true :=
          List.dropWhile_eq_nil_iff.mp hover
        refine ⟨⟨before, v, left, hafter⟩, ?_, rfl, hdepth⟩
        rw [SpelledText.text, ← htext, String.ofList_toList]
  · rintro ⟨t, rfl, rfl, hdepth⟩
    exact parse?_spelled t hdepth

end Json

end Stepwise
