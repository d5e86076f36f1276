import Stepwise.Proofs.Json.ReadBack
import Stepwise.Proofs.Number.Text

/-!
# A value is known by its text

The text of a value without white space determines the value if its numbers are finite, and with the
members of objects in their order. Inside a container the text of a value stands in front of a comma
or a closing bracket, and it determines the value and what comes behind it: the first character
tells the kind of value, texts and containers end by themselves, and what comes behind a number is
no part of one.
-/

namespace Stepwise.Json

open Literal (isLiteralChar)

/-! ## Lists with commas -/

section Listed

variable {α : Type}

/-- Parts with a comma in front of each but the first. -/
def listed (write : α → List Char) : List α → List Char
  | [] => []
  | x :: xs => write x ++ xs.flatMap fun y => ',' :: write y

/-- What may come behind a value inside a container. -/
def EndsValue (rest : List Char) : Prop := ∀ c ∈ rest.head?, c = ',' ∨ c = ']' ∨ c = '\x7d'

theorem EndsValue.isLiteralChar_eq_false {rest : List Char} (h : EndsValue rest) :
    ∀ c ∈ rest.head?, isLiteralChar c = false := by
  intro c hc
  rcases h c hc with rfl | rfl | rfl <;> decide

variable {write : α → List Char} {close : Char}

theorem endsValue_commas (hclose : close = ']' ∨ close = '\x7d') (xs : List α) (rest : List Char) :
    EndsValue ((xs.flatMap fun x => ',' :: write x) ++ close :: rest) := by
  cases xs with
  | nil => simpa [EndsValue] using Or.inr hclose
  | cons x xs => simp [EndsValue]

/-- Each of two parts that are written alike in front of a comma or a bracket is the other one. -/
def KnownAmong (write : α → List Char) (xs ys : List α) : Prop :=
  ∀ x ∈ xs, ∀ y ∈ ys, ∀ rest rest', EndsValue rest → EndsValue rest' →
    write x ++ rest = write y ++ rest' → x = y ∧ rest = rest'

theorem commas_append_inj (hclose : close = ']' ∨ close = '\x7d') {xs ys : List α}
    (hknown : KnownAmong write xs ys) {rest rest' : List Char}
    (h : (xs.flatMap fun x => ',' :: write x) ++ close :: rest =
      (ys.flatMap fun y => ',' :: write y) ++ close :: rest') : xs = ys ∧ rest = rest' := by
  have hcomma : close ≠ ',' := by rcases hclose with rfl | rfl <;> decide
  induction xs generalizing ys with
  | nil =>
      cases ys with
      | nil => exact ⟨rfl, (List.cons.inj h).2⟩
      | cons y ys => exact absurd (List.cons.inj h).1 hcomma
  | cons x xs ih =>
      cases ys with
      | nil => exact absurd (List.cons.inj h).1.symm hcomma
      | cons y ys =>
          rw [List.flatMap_cons, List.flatMap_cons, List.append_assoc, List.append_assoc] at h
          obtain ⟨rfl, htail⟩ := hknown x List.mem_cons_self y List.mem_cons_self _ _
            (endsValue_commas hclose xs rest) (endsValue_commas hclose ys rest')
            (List.cons.inj h).2
          obtain ⟨rfl, hbehind⟩ := ih (fun x hx y hy =>
            hknown x (List.mem_cons_of_mem _ hx) y (List.mem_cons_of_mem _ hy)) htail
          exact ⟨rfl, hbehind⟩

/-- A list up to its bracket is known if its parts are, and none of them starts with the bracket. -/
theorem listed_append_inj (hclose : close = ']' ∨ close = '\x7d')
    (hne : ∀ x rest rest', write x ++ rest ≠ close :: rest') {xs ys : List α}
    (hknown : KnownAmong write xs ys) {rest rest' : List Char}
    (h : listed write xs ++ close :: rest = listed write ys ++ close :: rest') :
    xs = ys ∧ rest = rest' := by
  cases xs with
  | nil =>
      cases ys with
      | nil => exact ⟨rfl, (List.cons.inj h).2⟩
      | cons y ys =>
          rw [listed, listed, List.append_assoc] at h
          exact absurd h.symm (hne y _ _)
  | cons x xs =>
      cases ys with
      | nil =>
          rw [listed, listed, List.append_assoc] at h
          exact absurd h (hne x _ _)
      | cons y ys =>
          rw [listed, listed, List.append_assoc, List.append_assoc] at h
          obtain ⟨rfl, htail⟩ := hknown x List.mem_cons_self y List.mem_cons_self _ _
            (endsValue_commas hclose xs rest) (endsValue_commas hclose ys rest') h
          obtain ⟨rfl, hbehind⟩ := commas_append_inj hclose (fun x hx y hy =>
            hknown x (List.mem_cons_of_mem _ hx) y (List.mem_cons_of_mem _ hy)) htail
          exact ⟨rfl, hbehind⟩

end Listed

/-! ## Written containers -/

/-- A member as it is written. -/
def memberChars (m : String × Json) : List Char :=
  (quoted m.1).toList ++ ':' :: m.2.compact.toList

theorem toList_quoted (s : String) :
    (quoted s).toList = '"' :: (s.toList.flatMap escapeChar ++ ['"']) := by
  simp [quoted]

theorem toList_compactItems (items : List Json) :
    (compactItems items).toList = listed (fun v => v.compact.toList) items := by
  induction items with
  | nil => rfl
  | cons v items ih =>
      cases items with
      | nil => simp [compactItems, listed]
      | cons w items => simp [compactItems, ih, listed]

theorem toList_compactMembers (members : List (String × Json)) :
    (compactMembers members).toList = listed memberChars members := by
  induction members with
  | nil => rfl
  | cons m members ih =>
      cases members with
      | nil => simp [compactMembers, listed, memberChars]
      | cons n members => simp [compactMembers, ih, listed, memberChars]

theorem toList_compact_arr (items : List Json) :
    (arr items).compact.toList = '[' :: (listed (fun v => v.compact.toList) items ++ [']']) := by
  simp [compact, toList_compactItems]

theorem toList_compact_obj (members : List (String × Json)) :
    (obj members).compact.toList = '\x7b' :: (listed memberChars members ++ ['\x7d']) := by
  simp [compact, toList_compactMembers]

/-! ## Kinds of values -/

/-- Values written in one way are of one kind. -/
def kind : Json → Nat
  | null => 0
  | bool _ => 1
  | num _ => 2
  | str _ => 3
  | arr _ => 4
  | obj _ => 5

/-- The kind of values whose text starts with a character, if there is one. -/
def kindOf? (c : Char) : Option Nat :=
  if isLiteralChar c then some 2
  else if c = 'n' then some 0
  else if c = 't' ∨ c = 'f' then some 1
  else if c = '"' then some 3
  else if c = '[' then some 4
  else if c = '\x7b' then some 5
  else none

/-- The text of a value starts with a character of its kind. -/
theorem exists_compact_eq_cons (v : Json) :
    ∃ c tail, v.compact.toList = c :: tail ∧ kindOf? c = some v.kind := by
  cases v with
  | null => exact ⟨'n', _, rfl, by decide⟩
  | bool b =>
      cases b with
      | true => exact ⟨'t', _, rfl, by decide⟩
      | false => exact ⟨'f', _, rfl, by decide⟩
  | num n =>
      obtain ⟨c, tail, htext⟩ := List.exists_cons_of_ne_nil n.toList_text_ne_nil
      have hc := n.isLiteralChar_of_mem_text c (by rw [htext]; exact List.mem_cons_self)
      exact ⟨c, tail, htext, if_pos hc⟩
  | str s => exact ⟨'"', _, toList_quoted s, rfl⟩
  | arr items => exact ⟨'[', _, toList_compact_arr items, rfl⟩
  | obj members => exact ⟨'\x7b', _, toList_compact_obj members, rfl⟩

variable {rest rest' : List Char}

/-- Where two texts start alike their values are of one kind. -/
theorem kind_eq_of_compact_append {a b : Json}
    (h : a.compact.toList ++ rest = b.compact.toList ++ rest') : a.kind = b.kind := by
  obtain ⟨c, tail, hc, hkind⟩ := exists_compact_eq_cons a
  obtain ⟨d, tail', hd, hkind'⟩ := exists_compact_eq_cons b
  rw [hc, hd, List.cons_append, List.cons_append] at h
  rw [(List.cons.inj h).1, hkind'] at hkind
  exact (Option.some.inj hkind).symm

/-- A bracket that closes starts no value. -/
theorem compact_append_ne (v : Json) (rest rest' : List Char) :
    v.compact.toList ++ rest ≠ ']' :: rest' := by
  obtain ⟨c, tail, hc, hkind⟩ := exists_compact_eq_cons v
  rw [hc, List.cons_append]
  intro h
  rw [(List.cons.inj h).1] at hkind
  cases hkind

theorem memberChars_append_ne (m : String × Json) (rest rest' : List Char) :
    memberChars m ++ rest ≠ '\x7d' :: rest' := by
  rw [memberChars, toList_quoted]
  intro h
  exact absurd (List.cons.inj h).1 (by decide)

/-! ## Texts and numbers -/

theorem quoted_append_inj {s t : String}
    (h : (quoted s).toList ++ rest = (quoted t).toList ++ rest') : s = t ∧ rest = rest' := by
  have hread (w : String) (tail : List Char) :
      Fragment.readText (((quoted w).toList ++ tail).tail) = some (w.toList, tail) := by
    simpa [quoted] using Fragment.readText_quoted w.toList tail
  have hs := hread s rest
  rw [h, hread t rest', Option.some.injEq, Prod.mk.injEq, String.toList_inj] at hs
  exact ⟨hs.1.symm, hs.2.symm⟩

theorem text_append_inj {m n : Number} (hm : m.isFinite = true) (hn : n.isFinite = true)
    (hrest : EndsValue rest) (hrest' : EndsValue rest')
    (h : m.text.toList ++ rest = n.text.toList ++ rest') : m = n ∧ rest = rest' := by
  obtain ⟨htake, hdrop⟩ := Literal.takeWhile_run m.isLiteralChar_of_mem_text
    hrest.isLiteralChar_eq_false
  obtain ⟨htake', hdrop'⟩ := Literal.takeWhile_run n.isLiteralChar_of_mem_text
    hrest'.isLiteralChar_eq_false
  rw [h, htake'] at htake
  rw [h, hdrop'] at hdrop
  exact ⟨Number.text_injective hm hn (String.toList_inj.mp htake.symm), hdrop.symm⟩

/-! ## Values -/

/-- Every number in the value is finite. -/
def HasFiniteNumbers (v : Json) : Prop := ∀ n ∈ v.numbers, n.isFinite = true

theorem hasFiniteNumbers_arr_iff (items : List Json) :
    (arr items).HasFiniteNumbers ↔ ∀ v ∈ items, v.HasFiniteNumbers := by
  rw [HasFiniteNumbers, numbers]
  induction items with
  | nil => simp [numbersItems]
  | cons v items ih =>
      rw [numbersItems, List.forall_mem_append, ih, List.forall_mem_cons, HasFiniteNumbers]

theorem hasFiniteNumbers_obj_iff (members : List (String × Json)) :
    (obj members).HasFiniteNumbers ↔ ∀ m ∈ members, m.2.HasFiniteNumbers := by
  rw [HasFiniteNumbers, numbers]
  induction members with
  | nil => simp [numbersMembers]
  | cons m members ih =>
      rw [numbersMembers, List.forall_mem_append, ih, List.forall_mem_cons, HasFiniteNumbers]

/-- In front of what ends it the value is known among all values by its text. -/
def IsKnown (a : Json) : Prop :=
  ∀ b : Json, b.HasFiniteNumbers → ∀ rest rest', EndsValue rest → EndsValue rest' →
    a.compact.toList ++ rest = b.compact.toList ++ rest' → a = b ∧ rest = rest'

theorem memberChars_append_inj {m n : String × Json} (hm : m.2.IsKnown)
    (hn : n.2.HasFiniteNumbers) (hrest : EndsValue rest) (hrest' : EndsValue rest')
    (h : memberChars m ++ rest = memberChars n ++ rest') : m = n ∧ rest = rest' := by
  rw [memberChars, memberChars, List.append_assoc, List.append_assoc] at h
  obtain ⟨hname, htail⟩ := quoted_append_inj h
  obtain ⟨hvalue, hbehind⟩ := hm n.2 hn rest rest' hrest hrest' (List.cons.inj htail).2
  exact ⟨Prod.ext hname hvalue, hbehind⟩

theorem isKnown_null : null.IsKnown := by
  intro b _ rest rest' _ _ h
  have hkind := kind_eq_of_compact_append h
  cases b with
  | null => exact ⟨rfl, List.append_cancel_left h⟩
  | _ => cases hkind

theorem isKnown_bool (x : Bool) : (bool x).IsKnown := by
  intro b _ rest rest' _ _ h
  have hkind := kind_eq_of_compact_append h
  cases b with
  | bool y =>
      cases x <;> cases y
      · exact ⟨rfl, List.append_cancel_left h⟩
      · exact absurd (List.cons.inj h).1 (by decide)
      · exact absurd (List.cons.inj h).1 (by decide)
      · exact ⟨rfl, List.append_cancel_left h⟩
  | _ => cases hkind

theorem isKnown_num {m : Number} (hm : m.isFinite = true) : (num m).IsKnown := by
  intro b hb rest rest' hrest hrest' h
  have hkind := kind_eq_of_compact_append h
  cases b with
  | num n =>
      have hn : n.isFinite = true := hb n (List.mem_singleton_self n)
      obtain ⟨rfl, hbehind⟩ := text_append_inj hm hn hrest hrest' h
      exact ⟨rfl, hbehind⟩
  | _ => cases hkind

theorem isKnown_str (s : String) : (str s).IsKnown := by
  intro b _ rest rest' _ _ h
  have hkind := kind_eq_of_compact_append h
  cases b with
  | str t =>
      obtain ⟨rfl, hbehind⟩ := quoted_append_inj h
      exact ⟨rfl, hbehind⟩
  | _ => cases hkind

theorem isKnown_arr {xs : List Json} (hxs : ∀ v ∈ xs, v.IsKnown) : (arr xs).IsKnown := by
  intro b hb rest rest' _ _ h
  have hkind := kind_eq_of_compact_append h
  cases b with
  | arr ys =>
      have hys := (hasFiniteNumbers_arr_iff ys).mp hb
      rw [toList_compact_arr, toList_compact_arr, List.cons_append, List.cons_append,
        List.append_assoc, List.append_assoc] at h
      obtain ⟨rfl, hbehind⟩ := listed_append_inj (Or.inl rfl) compact_append_ne
        (fun x hx y hy => hxs x hx y (hys y hy)) (List.cons.inj h).2
      exact ⟨rfl, hbehind⟩
  | _ => cases hkind

theorem isKnown_obj {xs : List (String × Json)} (hxs : ∀ m ∈ xs, m.2.IsKnown) :
    (obj xs).IsKnown := by
  intro b hb rest rest' _ _ h
  have hkind := kind_eq_of_compact_append h
  cases b with
  | obj ys =>
      have hys := (hasFiniteNumbers_obj_iff ys).mp hb
      rw [toList_compact_obj, toList_compact_obj, List.cons_append, List.cons_append,
        List.append_assoc, List.append_assoc] at h
      obtain ⟨rfl, hbehind⟩ := listed_append_inj (Or.inr rfl) memberChars_append_ne
        (fun m hm n hn rest rest' => memberChars_append_inj (hxs m hm) (hys n hn))
        (List.cons.inj h).2
      exact ⟨rfl, hbehind⟩
  | _ => cases hkind

mutual

theorem isKnown : ∀ a : Json, a.HasFiniteNumbers → a.IsKnown
  | null, _ => isKnown_null
  | bool x, _ => isKnown_bool x
  | num n, h => isKnown_num (h n (List.mem_singleton_self n))
  | str s, _ => isKnown_str s
  | arr items, h => isKnown_arr (isKnown_items items ((hasFiniteNumbers_arr_iff items).mp h))
  | obj members, h =>
      isKnown_obj (isKnown_members members ((hasFiniteNumbers_obj_iff members).mp h))

theorem isKnown_items : ∀ items : List Json, (∀ v ∈ items, v.HasFiniteNumbers) →
    ∀ v ∈ items, v.IsKnown
  | [], _ => nofun
  | v :: items, h =>
      have h := List.forall_mem_cons.mp h
      List.forall_mem_cons.mpr ⟨isKnown v h.1, isKnown_items items h.2⟩

theorem isKnown_members : ∀ members : List (String × Json),
    (∀ m ∈ members, m.2.HasFiniteNumbers) → ∀ m ∈ members, m.2.IsKnown
  | [], _ => nofun
  | (_, v) :: members, h =>
      have h := List.forall_mem_cons.mp h
      List.forall_mem_cons.mpr ⟨isKnown v h.1, isKnown_members members h.2⟩

end

/-- Values with finite numbers and one text are one value. -/
theorem compact_inj {a b : Json} (ha : a.HasFiniteNumbers) (hb : b.HasFiniteNumbers)
    (h : a.compact = b.compact) : a = b :=
  (isKnown a ha b hb [] [] (by simp [EndsValue]) (by simp [EndsValue]) (by rw [h])).1

end Stepwise.Json
