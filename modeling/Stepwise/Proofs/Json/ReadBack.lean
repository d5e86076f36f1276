import Mathlib.Data.List.DropRight
import Stepwise.Json.Fragment
import Stepwise.Json.Printer
import Stepwise.Proofs.Json
import Stepwise.Proofs.Json.Literal

/-!
# Printed values are read again

The text that a value is spread over is read again as the value, white space and all, if the value
is not too deep and its numbers read back. The induction is over the value and follows the printer:
each part is read in front of whatever comes behind it, and what comes behind a number never goes on
with it.
-/

namespace Stepwise

namespace Json

mutual

/-- The numbers in a value, in order. -/
def numbers : Json → List Number
  | null => []
  | bool _ => []
  | num n => [n]
  | str _ => []
  | arr items => numbersItems items
  | obj members => numbersMembers members

def numbersItems : List Json → List Number
  | [] => []
  | v :: rest => v.numbers ++ numbersItems rest

def numbersMembers : List (String × Json) → List Number
  | [] => []
  | (_, v) :: rest => v.numbers ++ numbersMembers rest

end

end Json

namespace Fragment

/-! ## What was read whole is the value -/

mutual

theorem toJson?_ofJson : ∀ v : Json, (ofJson v).toJson? = some v
  | .null | .bool _ | .num _ | .str _ => rfl
  | .arr items => by
      rw [ofJson, toJson?, toItems?_ofItems items]
      rfl
  | .obj members => by
      rw [ofJson, toJson?, toMembers?_ofMembers members]
      rfl

theorem toItems?_ofItems : ∀ items : List Json, toItems? (ofItems items) = some items
  | [] => rfl
  | v :: rest => by
      rw [ofItems, toItems?, toJson?_ofJson v, toItems?_ofItems rest]
      rfl

theorem toMembers?_ofMembers :
    ∀ members : List (String × Json), toMembers? (ofMembers members) = some members
  | [] => rfl
  | (k, v) :: rest => by
      rw [ofMembers, toMembers?, toJson?_ofJson v, toMembers?_ofMembers rest]
      rfl

end

/-! ## Texts -/

/-- A control character is read from the four digits that it is written with. -/
theorem readText_control {c : Char} (h : c.toNat < 0x20) (rest : List Char) :
    readText ('\\' :: 'u' :: '0' :: '0' :: Json.hexDigit (c.toNat / 16) ::
      Json.hexDigit (c.toNat % 16) :: rest) =
      (readText rest).map fun (cs, rest) => (c :: cs, rest) := by
  have hdigits : ∀ k : Fin 0x20,
      unit? '0' '0' (Json.hexDigit (k.val / 16)) (Json.hexDigit (k.val % 16)) = some k.val ∧
        Text.isLeadUnit k.val = false ∧ Text.isTrailUnit k.val = false := by
    decide
  obtain ⟨hunit, hlead, htrail⟩ := hdigits ⟨c.toNat, h⟩
  rw [readText]
  simp [hunit, hlead, htrail, Char.ofNat_toNat]

/-- An escaped character in front is read as the character. -/
theorem readText_escapeChar (c : Char) (rest : List Char) :
    readText (Json.escapeChar c ++ rest) =
      (readText rest).map fun (cs, rest) => (c :: cs, rest) := by
  by_cases hshort : c ∈ ['"', '\\', '\x08', '\x0c', '\n', '\r', '\t']
  · simp only [List.mem_cons, List.not_mem_nil, or_false] at hshort
    rcases hshort with rfl | rfl | rfl | rfl | rfl | rfl | rfl <;>
      simp [Json.escapeChar, readText, shortEscape?]
  · simp only [List.mem_cons, List.not_mem_nil, or_false, not_or] at hshort
    obtain ⟨hquote, hback, hb, hf, hn, hr, ht⟩ := hshort
    simp only [Json.escapeChar, hquote, hback, hb, hf, hn, hr, ht, if_false]
    by_cases hcontrol : c.toNat < 0x20
    · rw [if_pos hcontrol]
      exact readText_control hcontrol rest
    · rw [if_neg hcontrol]
      simp [readText, hback, hcontrol]

/-- A text between quotes is read up to and with the closing one. -/
theorem readText_quoted (cs rest : List Char) :
    readText (cs.flatMap Json.escapeChar ++ '"' :: rest) = some (cs, rest) := by
  induction cs with
  | nil => simp [readText]
  | cons c cs ih =>
      rw [List.flatMap_cons, List.append_assoc, readText_escapeChar, ih]
      rfl

/-! ## Readings that go on -/

/-- What was read is not passed over. -/
@[simp]
theorem orPass_some (cs rest : List Char) (f : Fragment) : orPass cs (f, some rest) = (f, some rest) :=
  rfl

theorem toJson?_pass (f : Fragment) : f.pass.toJson? = none := by
  cases f <;> rfl

/-- A value is never what stands for one that is passed over. -/
theorem eq_of_orPass {cs rest : List Char} {f : Fragment} {v : Json} {reading : Reading Fragment}
    (h : orPass cs reading = (f, some rest)) (hv : f.toJson? = some v) : reading = (f, some rest) := by
  obtain ⟨g, left⟩ := reading
  cases left with
  | some left => exact h
  | none =>
      rw [orPass] at h
      split at h
      · obtain ⟨rfl, -⟩ := Prod.mk.inj h
        rw [toJson?_pass] at hv
        cases hv
      · cases h

/-! ## White space -/

@[simp] theorem skipSpace_idem (cs : List Char) : skipSpace (skipSpace cs) = skipSpace cs := by
  exact List.dropWhile_idempotent isSpace cs

theorem skipSpace_newline (level : Nat) (cs : List Char) :
    skipSpace ((Json.newline level).toList ++ cs) = skipSpace cs := by
  have hspace : ∀ c ∈ (Json.newline level).toList, isSpace c = true := by
    simp [Json.newline, isSpace]
  rw [skipSpace, List.dropWhile_append_of_pos hspace, skipSpace]

theorem skipSpace_cons {c : Char} (h : isSpace c = false) (cs : List Char) :
    skipSpace (c :: cs) = c :: cs := by
  simp [skipSpace, h]

/-- What is no white space is not skipped. -/
theorem countP_le_length_skipSpace (cs : List Char) :
    cs.countP (fun c => !isSpace c) ≤ (skipSpace cs).length := by
  induction cs with
  | nil => simp
  | cons c rest ih =>
      cases hc : isSpace c with
      | true => simpa [skipSpace, hc] using ih
      | false =>
          rw [skipSpace_cons hc]
          exact List.countP_le_length

/-- A value is read behind white space as without it. -/
theorem readValue_skipSpace (level : Nat) (cs : List Char) :
    readValue level (skipSpace cs) = readValue level cs := by
  rw [readValue.eq_def, readValue.eq_def]
  simp only [skipSpace_idem]

theorem readItems_skipSpace (level rounds : Nat) (cs : List Char) :
    readItems (readValue level) rounds (skipSpace cs) = readItems (readValue level) rounds cs := by
  cases rounds with
  | zero => rfl
  | succ rounds => rw [readItems, readItems, readValue_skipSpace]

theorem readMembers_skipSpace (item : List Char → Reading Fragment) (rounds : Nat)
    (cs : List Char) :
    readMembers item rounds (skipSpace cs) = readMembers item rounds cs := by
  cases rounds with
  | zero => rfl
  | succ rounds => rw [readMembers, readMembers, skipSpace_idem]

/-! ## Numbers -/

/-- A number literal starts with a minus or a digit, and with nothing else. -/
theorem head_of_readNumber {cs : List Char} {x : Number × List Char}
    (h : Json.readNumber cs = some x) :
    ∃ c, cs.head? = some c ∧ ∀ d, ¬(d = '-' ∨ d.isDigit = true) → c ≠ d := by
  cases cs with
  | nil => cases h
  | cons c rest =>
      refine ⟨c, rfl, fun d hd hcd => ?_⟩
      rw [not_or, Bool.not_eq_true, ← hcd] at hd
      obtain ⟨hminus, hdigit⟩ := hd
      have hnone : Json.readDigits (c :: rest) = none := by simp [Json.readDigits, hdigit]
      have hhead : (c :: rest).head? ≠ some '-' := fun heq => hminus (Option.some.inj heq)
      rw [Json.readNumber_of_head hhead, Json.readMagnitude, Json.readLiteral, hnone] at h
      cases h

theorem isSpace_eq_false {c : Char} (h : ∀ d, ¬(d = '-' ∨ d.isDigit = true) → c ≠ d) :
    isSpace c = false := by
  simp [isSpace, h ' ' (by decide), h '\n' (by decide), h '\t' (by decide), h '\r' (by decide)]

theorem readValue_of_readNumber {n : Number} {cs rest : List Char}
    (hread : Json.readNumber cs = some (n, rest)) (level : Nat) :
    readValue level cs = (.num n, some rest) := by
  obtain ⟨c, hhead, hother⟩ := head_of_readNumber hread
  obtain ⟨tail, rfl⟩ := List.head?_eq_some_iff.mp hhead
  rw [readValue.eq_def]
  simp only [skipSpace_cons (isSpace_eq_false hother)]
  split
  · next heq => exact absurd (List.cons.inj heq).1 (hother 'n' (by decide))
  · next heq => exact absurd (List.cons.inj heq).1 (hother 't' (by decide))
  · next heq => exact absurd (List.cons.inj heq).1 (hother 'f' (by decide))
  · next heq => exact absurd (List.cons.inj heq).1 (hother '"' (by decide))
  · next heq => exact absurd (List.cons.inj heq).1 (hother '[' (by decide))
  · next heq => exact absurd (List.cons.inj heq).1 (hother '\x7b' (by decide))
  · simp only [hread, orPass_some]

theorem readValue_number {n : Number} (hn : n.ReadsBack) (level : Nat) {rest : List Char}
    (hrest : Json.EndsNumber rest) :
    readValue level (n.text.toList ++ rest) = (.num n, some rest) :=
  readValue_of_readNumber (hn rest hrest) level

/-! ## Printed values -/

/-- A printed value starts with no white space and with no closing bracket. -/
theorem head?_prettyAt {v : Json} (hv : ∀ k ∈ v.numbers, k.ReadsBack) (n : Nat) :
    ∃ c, (v.prettyAt n).toList.head? = some c ∧ isSpace c = false ∧ c ≠ ']' := by
  cases v with
  | null => exact ⟨'n', by simp [Json.prettyAt], by decide, by decide⟩
  | bool b =>
      cases b
      · exact ⟨'f', by simp [Json.prettyAt], by decide, by decide⟩
      · exact ⟨'t', by simp [Json.prettyAt], by decide, by decide⟩
  | num k =>
      have hread := hv k (by simp [Json.numbers]) [] Json.endsNumber_nil
      rw [List.append_nil] at hread
      obtain ⟨c, hhead, hother⟩ := head_of_readNumber hread
      rw [Json.prettyAt]
      exact ⟨c, hhead, isSpace_eq_false hother, hother ']' (by decide)⟩
  | str s => exact ⟨'"', by simp [Json.prettyAt, Json.quoted], by decide, by decide⟩
  | arr items =>
      cases items with
      | nil => exact ⟨'[', by simp [Json.prettyAt], by decide, by decide⟩
      | cons v rest => exact ⟨'[', by simp [Json.prettyAt], by decide, by decide⟩
  | obj members =>
      cases members with
      | nil => exact ⟨'\x7b', by simp [Json.prettyAt], by decide, by decide⟩
      | cons m rest => exact ⟨'\x7b', by simp [Json.prettyAt], by decide, by decide⟩

theorem length_le_countP_prettyItems (n : Nat) (items : List Json) :
    items.length ≤ (Json.prettyItems n items).toList.countP (fun c => !isSpace c) + 1 := by
  induction items with
  | nil => simp
  | cons v rest ih =>
      cases rest with
      | nil => simp
      | cons w rest =>
          have hcomma : (!isSpace ',') = true := by decide
          simp [Json.prettyItems, hcomma] at ih ⊢
          omega

theorem length_le_countP_prettyMembers (n : Nat) (members : List (String × Json)) :
    members.length ≤ (Json.prettyMembers n members).toList.countP (fun c => !isSpace c) + 1 := by
  induction members with
  | nil => simp
  | cons m rest ih =>
      cases rest with
      | nil => simp
      | cons m' rest =>
          have hcomma : (!isSpace ',') = true := by decide
          simp [Json.prettyMembers, List.countP_cons, hcomma] at ih ⊢
          omega

theorem endsNumber_newline (level : Nat) (cs : List Char) :
    Json.EndsNumber ((Json.newline level).toList ++ cs) := by
  simp [Json.EndsNumber, Json.newline]

/-- The end of a container stands on a line of its own. -/
theorem skipSpace_close (level : Nat) {c : Char} (h : isSpace c = false) (rest : List Char) :
    skipSpace ((Json.newline level).toList ++ c :: rest) = c :: rest := by
  rw [skipSpace_newline, skipSpace_cons h]

/-! ## One round of the reader -/

section Rounds

variable {item : List Char → Reading Fragment} {cs behind rest : List Char} {v : Fragment}

theorem readItems_last (hitem : item cs = (v, some behind)) (hclose : skipSpace behind = ']' :: rest)
    (rounds : Nat) : readItems item (rounds + 1) cs = ([v], some rest) := by
  simp only [readItems, hitem, hclose]

theorem readItems_next {next : List Char} {vs : List Fragment} {rounds : Nat}
    (hitem : item cs = (v, some behind)) (hcomma : skipSpace behind = ',' :: next)
    (hnext : readItems item rounds next = (vs, some rest)) :
    readItems item (rounds + 1) cs = (v :: vs, some rest) := by
  simp only [readItems, hitem, hcomma, hnext]

variable {key quoted gap value : List Char}

theorem readMembers_last (hkey : skipSpace cs = '"' :: quoted)
    (hread : readText quoted = some (key, gap)) (hcolon : skipSpace gap = ':' :: value)
    (hitem : item value = (v, some behind)) (hclose : skipSpace behind = '\x7d' :: rest)
    (rounds : Nat) :
    readMembers item (rounds + 1) cs = ([(String.ofList key, v)], some rest) := by
  simp only [readMembers, hkey, hread, hcolon, hitem, hclose]

theorem readMembers_next {next : List Char} {ms : List (String × Fragment)} {rounds : Nat}
    (hkey : skipSpace cs = '"' :: quoted) (hread : readText quoted = some (key, gap))
    (hcolon : skipSpace gap = ':' :: value) (hitem : item value = (v, some behind))
    (hcomma : skipSpace behind = ',' :: next)
    (hnext : readMembers item rounds next = (ms, some rest)) :
    readMembers item (rounds + 1) cs = ((String.ofList key, v) :: ms, some rest) := by
  simp only [readMembers, hkey, hread, hcolon, hitem, hcomma, hnext]

/-- An array that is not empty is read by reading its items. -/
theorem readValue_arr {level : Nat} {vs : List Fragment}
    (hopen : ∀ tail, skipSpace cs ≠ ']' :: tail)
    (hitems : readItems (readValue level) ((skipSpace cs).length + 1) cs = (vs, some rest)) :
    readValue (level + 1) ('[' :: cs) = (.arr vs true, some rest) := by
  have hbracket : skipSpace ('[' :: cs) = '[' :: cs := skipSpace_cons (by decide) cs
  rw [← readItems_skipSpace] at hitems
  rw [readValue.eq_def]
  -- what comes first is no closing bracket, so the items are read
  simp only [hbracket, hitems, Option.isSome_some, orPass_some]

theorem readValue_obj {level : Nat} {ms : List (String × Fragment)}
    (hopen : ∀ tail, skipSpace cs ≠ '\x7d' :: tail)
    (hmembers : readMembers (readValue level) ((skipSpace cs).length + 1) cs = (ms, some rest)) :
    readValue (level + 1) ('\x7b' :: cs) = (.obj ms true, some rest) := by
  have hbrace : skipSpace ('\x7b' :: cs) = '\x7b' :: cs := skipSpace_cons (by decide) cs
  rw [← readMembers_skipSpace] at hmembers
  rw [readValue.eq_def]
  simp only [hbrace, hmembers, Option.isSome_some, orPass_some]

end Rounds

theorem readValue_newline (level n : Nat) (cs : List Char) :
    readValue level ((Json.newline n).toList ++ cs) = readValue level cs := by
  rw [← readValue_skipSpace, skipSpace_newline, readValue_skipSpace]

/-- The first item of an array is no closing bracket. -/
theorem skipSpace_prettyItems_ne {v : Json} (hv : ∀ k ∈ v.numbers, k.ReadsBack) (n : Nat)
    (items : List Json) (behind tail : List Char) :
    skipSpace ((Json.prettyItems n (v :: items)).toList ++ behind) ≠ ']' :: tail := by
  obtain ⟨c, hhead, hspace, hclose⟩ := head?_prettyAt hv n
  obtain ⟨cs, hcs⟩ := List.head?_eq_some_iff.mp hhead
  have htext : ∃ more, (Json.prettyItems n (v :: items)).toList ++ behind =
      (Json.newline n).toList ++ c :: more := by
    cases items <;> simp [Json.prettyItems, hcs]
  obtain ⟨more, hmore⟩ := htext
  rw [hmore, skipSpace_close n hspace]
  exact fun heq => hclose (List.cons.inj heq).1

/-- Up to its value a member is its name between quotes and a colon. -/
theorem skipSpace_prettyMembers (n : Nat) (key : String) (v : Json)
    (members : List (String × Json)) (behind : List Char) :
    skipSpace ((Json.prettyMembers n ((key, v) :: members)).toList ++ behind) =
      '"' :: (key.toList.flatMap Json.escapeChar ++ '"' :: ':' :: ' ' :: ((v.prettyAt n).toList ++
        match members with
        | [] => behind
        | _ => ',' :: ((Json.prettyMembers n members).toList ++ behind))) := by
  have hquote : isSpace '"' = false := by decide
  cases members with
  | nil =>
      simp only [Json.prettyMembers, Json.quoted, String.toList_append, List.append_assoc,
        skipSpace_newline]
      simp [skipSpace_cons hquote]
  | cons m members =>
      simp only [Json.prettyMembers, Json.quoted, String.toList_append, List.append_assoc,
        skipSpace_newline]
      simp [skipSpace_cons hquote]

theorem readValue_space (level : Nat) (cs : List Char) :
    readValue level (' ' :: cs) = readValue level cs := by
  have hspace : skipSpace (' ' :: cs) = skipSpace cs := by simp [skipSpace, isSpace]
  rw [← readValue_skipSpace, hspace, readValue_skipSpace]

theorem endsNumber_comma (cs : List Char) : Json.EndsNumber (',' :: cs) := by
  simp [Json.EndsNumber]

mutual

/-- A printed value is read again, whatever comes behind it. -/
theorem readValue_prettyAt (n level : Nat) : ∀ v : Json, v.depth ≤ level →
    (∀ k ∈ v.numbers, k.ReadsBack) → ∀ rest, Json.EndsNumber rest →
    readValue level ((v.prettyAt n).toList ++ rest) = (ofJson v, some rest)
  | .null, _, _, rest, _ => by
      simp [Json.prettyAt, readValue.eq_def, skipSpace, isSpace, ofJson]
  | .bool true, _, _, rest, _ => by
      simp [Json.prettyAt, readValue.eq_def, skipSpace, isSpace, ofJson]
  | .bool false, _, _, rest, _ => by
      simp [Json.prettyAt, readValue.eq_def, skipSpace, isSpace, ofJson]
  | .num k, _, hv, rest, hrest => by
      rw [Json.prettyAt, ofJson]
      exact readValue_number (hv k (by simp [Json.numbers])) level hrest
  | .str s, _, _, rest, _ => by
      simp [Json.prettyAt, Json.quoted, readValue.eq_def, skipSpace, isSpace, readText_quoted,
        ofJson]
  | .arr [], hdepth, _, rest, _ => by
      obtain ⟨level, rfl⟩ := Nat.exists_eq_succ_of_ne_zero (Nat.ne_zero_of_lt hdepth)
      simp [Json.prettyAt, readValue.eq_def, skipSpace, isSpace, ofJson, ofItems]
  | .arr (v :: items), hdepth, hv, rest, _ => by
      obtain ⟨level, rfl⟩ := Nat.exists_eq_succ_of_ne_zero (Nat.ne_zero_of_lt hdepth)
      have hitems := readItems_pretty (n + 1) n level (v :: items) (by simp)
        (Nat.le_of_succ_le_succ hdepth) hv
      have htext : (Json.prettyAt n (.arr (v :: items))).toList ++ rest =
          '[' :: ((Json.prettyItems (n + 1) (v :: items)).toList ++
            ((Json.newline n).toList ++ ']' :: rest)) := by
        simp [Json.prettyAt]
      rw [htext, ofJson]
      apply readValue_arr
      · intro tail
        exact skipSpace_prettyItems_ne (fun k hk => hv k (List.mem_append_left _ hk)) _ _ _ tail
      · apply hitems
        have hcount := length_le_countP_prettyItems (n + 1) (v :: items)
        have hskip := countP_le_length_skipSpace ((Json.prettyItems (n + 1) (v :: items)).toList ++
          ((Json.newline n).toList ++ ']' :: rest))
        rw [List.countP_append] at hskip
        omega
  | .obj [], hdepth, _, rest, _ => by
      obtain ⟨level, rfl⟩ := Nat.exists_eq_succ_of_ne_zero (Nat.ne_zero_of_lt hdepth)
      simp [Json.prettyAt, readValue.eq_def, skipSpace, isSpace, ofJson, ofMembers]
  | .obj (m :: members), hdepth, hv, rest, _ => by
      obtain ⟨level, rfl⟩ := Nat.exists_eq_succ_of_ne_zero (Nat.ne_zero_of_lt hdepth)
      have hmembers := readMembers_pretty (n + 1) n level (m :: members) (by simp)
        (Nat.le_of_succ_le_succ hdepth) hv
      have htext : (Json.prettyAt n (.obj (m :: members))).toList ++ rest =
          '\x7b' :: ((Json.prettyMembers (n + 1) (m :: members)).toList ++
            ((Json.newline n).toList ++ '\x7d' :: rest)) := by
        simp [Json.prettyAt]
      rw [htext, ofJson]
      apply readValue_obj
      · intro tail heq
        rw [skipSpace_prettyMembers] at heq
        cases (List.cons.inj heq).1
      · apply hmembers
        have hcount := length_le_countP_prettyMembers (n + 1) (m :: members)
        have hskip := countP_le_length_skipSpace
          ((Json.prettyMembers (n + 1) (m :: members)).toList ++
            ((Json.newline n).toList ++ '\x7d' :: rest))
        rw [List.countP_append] at hskip
        omega

theorem readItems_pretty (n m level : Nat) : ∀ items : List Json, items ≠ [] →
    Json.depthItems items ≤ level → (∀ k ∈ Json.numbersItems items, k.ReadsBack) →
    ∀ rounds, items.length ≤ rounds → ∀ rest,
    readItems (readValue level) rounds ((Json.prettyItems n items).toList ++
      ((Json.newline m).toList ++ ']' :: rest)) = (ofItems items, some rest)
  | [], hne, _, _, _, _, _ => absurd rfl hne
  | v :: items, _, hdepth, hv, rounds, hrounds, rest => by
      obtain ⟨rounds, rfl⟩ := Nat.exists_eq_succ_of_ne_zero (Nat.ne_zero_of_lt hrounds)
      obtain ⟨hfirst, hothers⟩ := Nat.max_le.mp hdepth
      have hvalue := readValue_prettyAt n level v hfirst
        fun k hk => hv k (List.mem_append_left _ hk)
      cases items with
      | nil =>
          have hend := endsNumber_newline m (']' :: rest)
          apply readItems_last ?_ (skipSpace_close m (by decide) rest)
          rw [Json.prettyItems, String.toList_append, List.append_assoc, readValue_newline]
          exact hvalue _ hend
      | cons w items =>
          have hnext := readItems_pretty n m level (w :: items) (by simp) hothers
            (fun k hk => hv k (List.mem_append_right _ hk)) rounds
            (Nat.le_of_succ_le_succ hrounds) rest
          have hend := endsNumber_comma ((Json.prettyItems n (w :: items)).toList ++
            ((Json.newline m).toList ++ ']' :: rest))
          apply readItems_next ?_ (skipSpace_cons (by decide) _) hnext
          simp only [Json.prettyItems, String.toList_append, List.append_assoc, readValue_newline]
          exact hvalue _ hend

theorem readMembers_pretty (n m level : Nat) : ∀ members : List (String × Json), members ≠ [] →
    Json.depthMembers members ≤ level → (∀ k ∈ Json.numbersMembers members, k.ReadsBack) →
    ∀ rounds, members.length ≤ rounds → ∀ rest,
    readMembers (readValue level) rounds ((Json.prettyMembers n members).toList ++
      ((Json.newline m).toList ++ '\x7d' :: rest)) = (ofMembers members, some rest)
  | [], hne, _, _, _, _, _ => absurd rfl hne
  | (key, v) :: members, _, hdepth, hv, rounds, hrounds, rest => by
      obtain ⟨rounds, rfl⟩ := Nat.exists_eq_succ_of_ne_zero (Nat.ne_zero_of_lt hrounds)
      obtain ⟨hfirst, hothers⟩ := Nat.max_le.mp hdepth
      have hvalue := readValue_prettyAt n level v hfirst
        fun k hk => hv k (List.mem_append_left _ hk)
      have hkey := skipSpace_prettyMembers n key v members
        ((Json.newline m).toList ++ '\x7d' :: rest)
      have hcolon (tail : List Char) : skipSpace (':' :: tail) = ':' :: tail :=
        skipSpace_cons (by decide) tail
      cases members with
      | nil =>
          have hend := endsNumber_newline m ('\x7d' :: rest)
          have hlast := readMembers_last hkey (readText_quoted _ _) (hcolon _)
            ((readValue_space _ _).trans (hvalue _ hend)) (skipSpace_close m (by decide) rest) rounds
          rwa [String.ofList_toList] at hlast
      | cons m' members =>
          have hnext := readMembers_pretty n m level (m' :: members) (by simp) hothers
            (fun k hk => hv k (List.mem_append_right _ hk)) rounds
            (Nat.le_of_succ_le_succ hrounds) rest
          have hend := endsNumber_comma ((Json.prettyMembers n (m' :: members)).toList ++
            ((Json.newline m).toList ++ '\x7d' :: rest))
          have hmore := readMembers_next hkey (readText_quoted _ _) (hcolon _)
            ((readValue_space _ _).trans (hvalue _ hend)) (skipSpace_cons (by decide) _) hnext
          rwa [String.ofList_toList] at hmore

end

/-- A value is read again from the text that it is spread over, if its containers nest no deeper
than a text may go and its numbers read back. -/
theorem ofText_pretty {v : Json} (hdepth : v.depth ≤ maxDepth)
    (hnumbers : ∀ k ∈ v.numbers, k.ReadsBack) : ofText v.pretty = (ofJson v, true) := by
  have hread := readValue_prettyAt 0 maxDepth v hdepth hnumbers [] Json.endsNumber_nil
  rw [List.append_nil] at hread
  rw [ofText, Json.pretty, hread]
  rfl

end Fragment

end Stepwise
