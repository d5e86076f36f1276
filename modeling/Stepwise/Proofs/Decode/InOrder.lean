import Mathlib.Data.List.Forall2
import Mathlib.Data.List.Nodup
import Stepwise.Decode.Document
import Stepwise.Proofs.Decode.Frame
import Stepwise.Proofs.Json.Fragment

/-!
# What a text means

Decoding in the order of the text decides which fault is reported, not which texts decode. A decoder
`Reads` a relation between what was read and its meanings when it gives exactly what this means. A
record has a meaning when it holds no known name twice and its other members can be passed over, or
is a list with no more items than there are names; each field means what its value does or, where
there is none, its default.
-/

namespace Stepwise

variable {α β : Type}

namespace Fragment

/-! ## The meaning of values -/

/-- A record: an object that repeats no known name and whose other members can be passed over, or a
list of the values of the first names. -/
def IsRecord (known : List String) : Fragment → Prop
  | obj members closed =>
      closed = true ∧ (∀ key ∈ known, (Ordered.keys members).count key ≤ 1) ∧
        ∀ m ∈ members, m.1 ∉ known → m.2.goesOn = true
  | arr items closed => closed = true ∧ items.length ≤ known.length
  | _ => False

theorem isRecord_obj_iff {known : List String} {members : List (String × Fragment)}
    {closed : Bool} :
    (obj members closed).IsRecord known ↔
      closed = true ∧ (∀ key ∈ known, (Ordered.keys members).count key ≤ 1) ∧
        ∀ m ∈ members, m.1 ∉ known → m.2.goesOn = true :=
  Iff.rfl

theorem isRecord_arr_iff {known : List String} {items : List Fragment} {closed : Bool} :
    (arr items closed).IsRecord known ↔ closed = true ∧ items.length ≤ known.length :=
  Iff.rfl

theorem goesOn_ofJson (v : Json) : (ofJson v).goesOn = true := by
  cases v <;> rfl

/-- An object with distinct names that was read whole is a record. -/
theorem isRecord_ofJson {known : List String} {members : List (String × Json)}
    (h : (Ordered.keys members).Nodup) : (ofJson (.obj members)).IsRecord known := by
  have hkeys : Ordered.keys (ofMembers members) = Ordered.keys members := by
    rw [ofMembers_eq_map, Ordered.keys, List.map_map]
    rfl
  refine ⟨rfl, fun key _ => ?_, fun m hm _ => ?_⟩
  · rw [hkeys]
    exact List.nodup_iff_count_le_one.mp h key
  · rw [ofMembers_eq_map] at hm
    obtain ⟨m', -, rfl⟩ := List.mem_map.mp hm
    exact goesOn_ofJson m'.2

/-- What stands in a field of a record, be it written as an object or as a list. -/
def field? (known : List String) (key : String) : Fragment → Option Fragment
  | obj members _ => Ordered.find? members key
  | arr items _ => Ordered.find? (known.zip items) key
  | _ => none

/-- A field means what its value does, or its default where there is none. -/
def FieldMeans (known : List String) (v : Fragment) (key : String) (means : Fragment → α → Prop)
    (default a : α) : Prop :=
  match v.field? known key with
  | some w => means w a
  | none => a = default

def MeansText (v : Fragment) (text : String) : Prop := v = str text

/-- An integer that is not negative and fits in so many bits. -/
def MeansUnsigned (bits : Nat) (v : Fragment) (n : Nat) : Prop :=
  n < Nat.pow 2 bits ∧ v = num (.int n)

/-- A value that was read whole. -/
def MeansWhole (means : Json → α → Prop) (v : Fragment) (a : α) : Prop :=
  ∃ w, v = ofJson w ∧ means w a

/-- `null` stands for nothing. -/
def MeansOptional (means : Fragment → α → Prop) (v : Fragment) : Option α → Prop
  | none => v = null
  | some a => v ≠ null ∧ means v a

/-- The name of a choice, alone or beside `null`. -/
def MeansChoice (name : α → String) (v : Fragment) (a : α) : Prop :=
  v = str (name a) ∨ v = obj [(name a, null)] true

/-- A list whose items mean the items. -/
def MeansList (means : Fragment → α → Prop) (v : Fragment) (found : List α) : Prop :=
  ∃ items, v = arr items true ∧ List.Forall₂ means items found

/-- A map that was read whole, a repeated name keeping its first place and its last value. -/
def MeansMap (v : Fragment) (entries : Ordered Json) : Prop :=
  ∃ members, v = ofJson (.obj members) ∧ (Json.obj members).normal = .obj entries

end Fragment

theorem Json.decodeUnsigned_eq_ok_iff {bits : Nat} {v : Json} {n : Nat} :
    decodeUnsigned bits v = .ok n ↔ n < Nat.pow 2 bits ∧ v = num (.int n) := by
  rw [decodeUnsigned.eq_def]
  split
  · next k =>
    rw [Json.num.injEq, Number.int.injEq]
    split_ifs with hrange
    · obtain ⟨hlow, hhigh⟩ := hrange
      obtain ⟨m, rfl⟩ := Int.eq_ofNat_of_zero_le hlow
      have hm : m < Nat.pow 2 bits := Int.ofNat_lt.mp hhigh
      simp only [Int.toNat_natCast, Except.ok.injEq, Int.natCast_inj]
      exact ⟨fun h => h ▸ ⟨hm, rfl⟩, And.right⟩
    · refine iff_of_false (fun h => by cases h) ?_
      rintro ⟨hn, rfl⟩
      exact hrange ⟨Int.natCast_nonneg n, Int.ofNat_lt.mpr hn⟩
  · next hnone => exact iff_of_false (fun h => by cases h) fun h => hnone n h.2

theorem Json.decodeEachMember_decodeAny (done : Ordered Json) (members : List (String × Json)) :
    decodeEachMember decodeAny done members = .ok (normalMembers done members) := by
  induction members generalizing done with
  | nil => rfl
  | cons m rest ih => exact ih (done.set m.1 m.2.normal)

/-! ## Repeated names -/

namespace Fields

theorem repeated?_eq_none_iff {known : List String} {i : Nat} {seen : List String}
    {entries : List (String × β)} :
    repeated? known i seen entries = none ↔ ∀ key ∈ known,
      (Ordered.keys entries).count key ≤ 1 ∧ (key ∈ seen → key ∉ Ordered.keys entries) := by
  refine ⟨fun h key hkey => count_le_of_repeated? h hkey, fun h => ?_⟩
  induction entries generalizing i seen with
  | nil => rfl
  | cons entry rest ih =>
      obtain ⟨name, value⟩ := entry
      rw [Ordered.keys_cons] at h
      have hrest (key : String) (hkey : key ∈ known) :
          (Ordered.keys rest).count key ≤ 1 ∧ (key ∈ seen → key ∉ Ordered.keys rest) :=
        ⟨List.count_le_count_cons.trans (h key hkey).1,
          fun hseen hmem => (h key hkey).2 hseen (List.mem_cons_of_mem _ hmem)⟩
      rw [repeated?]
      split_ifs with hknown hseen
      · exact ((h name hknown).2 hseen List.mem_cons_self).elim
      · refine ih fun key hkey => ⟨(hrest key hkey).1, fun hmem => ?_⟩
        rcases List.mem_cons.mp hmem with rfl | hmem
        · have hcount := (h key hkey).1
          rw [List.count_cons_self] at hcount
          exact List.count_eq_zero.mp (Nat.le_zero.mp (Nat.le_of_succ_le_succ hcount))
        · exact (hrest key hkey).2 hmem
      · exact ih hrest

/-- No field is repeated when each known name stands at most once. -/
theorem repetition?_eq_none_iff {fields : Fields β} {known : List String} :
    fields.repetition? known = none ↔
      ∀ key ∈ known, (Ordered.keys fields.entries).count key ≤ 1 := by
  rw [repetition?, Option.map_eq_none_iff, repeated?_eq_none_iff]
  simp

end Fields

/-! ## Decoders -/

namespace Fragment

/-- The decoder gives exactly what was read means. -/
def Reads (read : Fragment → Except DecodeError α) (means : Fragment → α → Prop) : Prop :=
  ∀ v a, read v = .ok a ↔ means v a

namespace Reads

variable {read : Fragment → Except DecodeError α} {means : Fragment → α → Prop}

theorem text : Reads (decodePlain Json.decodeText) MeansText := by
  intro v s
  cases v <;> simp [decodePlain, shell, Json.decodeText, MeansText]

theorem path : Reads (decodePlain Json.decodePath) MeansText := by
  intro v s
  cases v <;> simp [decodePlain, shell, Json.decodePath, MeansText]

theorem unsigned (bits : Nat) :
    Reads (decodePlain (Json.decodeUnsigned bits)) (MeansUnsigned bits) := by
  intro v n
  cases v <;> simp [decodePlain, shell, Json.decodeUnsigned_eq_ok_iff, MeansUnsigned]

theorem whole {read : Json → Except DecodeError α} {means : Json → α → Prop}
    (h : ∀ w a, read w = .ok a ↔ means w a) : Reads (decodeWhole read) (MeansWhole means) := by
  intro v a
  simp only [MeansWhole, ← toJson?_eq_some_iff, decodeWhole]
  cases v.toJson? with
  | none => simp
  | some w => simp [h w a]

theorem optional (h : Reads read means) : Reads (decodeOptional read) (MeansOptional means) := by
  intro v o
  by_cases hnull : v = null
  · subst hnull
    cases o with
    | none => exact iff_of_true rfl rfl
    | some a => exact iff_of_false (fun hok => by cases hok) fun hmeans => hmeans.1 rfl
  · have hread : decodeOptional read v = (read v).map some := by
      rw [decodeOptional]
      exact hnull
    have hmap : (read v).map some = .ok o ↔ ∃ a, read v = .ok a ∧ some a = o := by
      cases read v <;> simp [Except.map]
    rw [hread, hmap]
    cases o with
    | none => simp [MeansOptional, hnull]
    | some a => simp [MeansOptional, hnull, h v]

theorem choice {choose : String → Except DecodeError α} {name : α → String}
    (h : ∀ s a, choose s = .ok a ↔ s = name a) :
    Reads (decodeChoice choose) (MeansChoice name) := by
  intro v a
  have hobj (members : List (String × Fragment)) (closed : Bool) :
      decodeChoice choose (obj members closed) = .ok a ↔
        members = [(name a, null)] ∧ closed = true := by
    match members with
    | [] => simp [decodeChoice, front]
    | (k, _) :: _ :: _ => cases hk : choose k <;> simp [decodeChoice, front, hk]
    | [(k, w)] =>
        cases hk : choose k with
        | error e =>
            have hname : k ≠ name a := fun heq => by simp [(h k a).mpr heq] at hk
            simp [decodeChoice, front, hk, hname]
        | ok b =>
            have hname : b = a ↔ k = name a := by rw [← h k a, hk, Except.ok.injEq]
            cases w <;> cases closed <;> simp [decodeChoice, front, hk, decodePlain, shell, hname]
  cases v with
  | str s => exact (h s a).trans (by simp [MeansChoice])
  | obj members closed => simpa [MeansChoice] using hobj members closed
  | passedObj members => simpa [MeansChoice, decodeChoice, front] using hobj members false
  | null | bool _ | num _ | arr _ _ | broken | passed =>
      simp [MeansChoice, decodeChoice, front, decodePlain, shell]

theorem each (h : Reads read means) (items : List Fragment) (found : List α) :
    Json.decodeEach read items = .ok found ↔ List.Forall₂ means items found := by
  induction items generalizing found with
  | nil => simp [Json.decodeEach, List.forall₂_nil_left_iff, eq_comm]
  | cons v rest ih =>
      rw [Json.decodeEach, List.forall₂_cons_left_iff]
      simp only [← h v, ← ih]
      cases read v with
      | error e => simp
      | ok a =>
          cases Json.decodeEach read rest with
          | error e => simp [Except.map]
          | ok rest => simp [Except.map, eq_comm]

theorem list (h : Reads read means) : Reads (decodeList read) (MeansList means) := by
  intro v found
  cases v with
  | arr items closed =>
      simp only [MeansList, arr.injEq, and_assoc, exists_eq_left', ← h.each, decodeList]
      cases Json.decodeEach read items <;> cases closed <;> simp
  | null | bool _ | num _ | str _ | obj _ _ | broken | passed | passedObj _ =>
      simp [MeansList, decodeList, decodePlain, shell]

theorem map : Reads decodeMap MeansMap := by
  intro v entries
  have hmap (w : Json) (entries : Ordered Json) :
      Json.decodeMap Json.decodeAny w = .ok entries ↔
        ∃ members, w = .obj members ∧ (Json.obj members).normal = .obj entries := by
    cases w <;> simp [Json.decodeMap, Json.decodeEachMember_decodeAny, Json.normal]
  have hobj (members : List (String × Fragment)) (closed : Bool) :
      decodeMap (obj members closed) = .ok entries ↔ MeansMap (obj members closed) entries := by
    have hwhole : decodeMap (obj members closed) =
        decodeWhole (Json.decodeMap Json.decodeAny) (obj members closed) := rfl
    rw [hwhole, Reads.whole hmap, MeansWhole, MeansMap]
    constructor
    · rintro ⟨w, hw, members', rfl, hnormal⟩
      exact ⟨members', hw, hnormal⟩
    · rintro ⟨members', hw, hnormal⟩
      exact ⟨_, hw, members', rfl, hnormal⟩
  cases v with
  | obj members closed => exact hobj members closed
  | passedObj members =>
      refine iff_of_false (fun hok => ?_) (by simp [MeansMap, ofJson])
      obtain ⟨members', hw, -⟩ := (hobj members false).mp hok
      simp [ofJson] at hw
  | null | bool _ | num _ | str _ | arr _ _ | broken | passed =>
      simp [MeansMap, ofJson, decodeMap, front, decodePlain, shell, Json.decodeMap]

end Reads

/-! ## Records -/

theorem brokenMember?_eq_none_iff {known : List String} {i : Nat}
    {members : List (String × Fragment)} :
    brokenMember? known i members = none ↔ ∀ m ∈ members, m.1 ∉ known → m.2.goesOn = true := by
  induction members generalizing i with
  | nil => simp [brokenMember?]
  | cons m rest ih =>
      rw [brokenMember?, List.forall_mem_cons, ← ih (i := i + 1)]
      split_ifs with hbroken
      · simp_all
      · simp_all

theorem openEnd?_eq_none_iff {length : Nat} {closed : Bool} :
    openEnd? length closed = none ↔ closed = true := by
  cases closed <;> simp [openEnd?]

/-- The fields of a record. -/
def recordFields (record : String) (known : List String) : Fragment → Fields Fragment
  | arr items _ => ⟨known.zip items, fun key => .tooFew (known.idxOf key) record known.length⟩
  | obj members _ => ⟨members, .missing⟩
  | _ => ⟨[], .missing⟩

theorem find?_recordFields (record : String) (known : List String) (v : Fragment) (key : String) :
    Ordered.find? (recordFields record known v).entries key = v.field? known key := by
  cases v <;> rfl

theorem decodeRecord_obj (record : String) (known : List String)
    (build : Fields Fragment → Form α) (members : List (String × Fragment)) (closed : Bool) :
    decodeRecord record known build (obj members closed) =
      (recordFields record known (obj members closed)).finish known
        (((build (recordFields record known (obj members closed))).noting
          (brokenMember? known 0 members)).noting (openEnd? members.length closed)) :=
  rfl

theorem decodeRecord_arr (record : String) (known : List String)
    (build : Fields Fragment → Form α) (items : List Fragment) (closed : Bool) :
    decodeRecord record known build (arr items closed) =
      ((recordFields record known (arr items closed)).finish known
        ((build (recordFields record known (arr items closed))).noting
          (openEnd? items.length closed))).bind fun a =>
        if known.length < items.length then .error (.tooMany items.length) else .ok a := by
  simp only [decodeRecord, front, recordFields]
  cases Fields.finish _ known _ <;> rfl

/-- A record is read when it is one and its fields are read. -/
theorem decodeRecord_eq_ok_iff {record : String} {known : List String}
    {build : Fields Fragment → Form α} (hknown : known.Nodup) {v : Fragment} {a : α} :
    decodeRecord record known build v = .ok a ↔
      v.IsRecord known ∧ build (recordFields record known v) = .read a := by
  have hobj (members : List (String × Fragment)) (closed : Bool) :
      decodeRecord record known build (obj members closed) = .ok a ↔
        (obj members closed).IsRecord known ∧
          build (recordFields record known (obj members closed)) = .read a := by
    rw [decodeRecord_obj, Fields.finish_eq_ok_iff, Form.noting_eq_read_iff,
      Form.noting_eq_read_iff, brokenMember?_eq_none_iff, openEnd?_eq_none_iff,
      Fields.repetition?_eq_none_iff, isRecord_obj_iff, recordFields]
    tauto
  cases v with
  | null | bool _ | num _ | str _ | broken | passed =>
      exact iff_of_false (fun hok => by cases hok) fun h => h.1
  | obj members closed => exact hobj members closed
  | passedObj members =>
      refine iff_of_false (fun hok => ?_) fun h => h.1
      have hclosed := isRecord_obj_iff.mp ((hobj members false).mp hok).1
      cases hclosed.1
  | arr items closed =>
      have hunique : (recordFields record known (arr items closed)).repetition? known = none :=
        Fields.repetition?_eq_none
          (hknown.sublist (Json.isPrefix_keys_zip known items).sublist) known
      have hbounded (r : Except DecodeError α) :
          (r.bind fun a => if known.length < items.length then .error (.tooMany items.length)
            else .ok a) = .ok a ↔ r = .ok a ∧ items.length ≤ known.length := by
        rw [← Nat.not_lt]
        by_cases hlong : known.length < items.length <;> cases r <;> simp [Except.bind, hlong]
      rw [decodeRecord_arr, hbounded, Fields.finish_eq_ok_iff, and_iff_left hunique,
        Form.noting_eq_read_iff, openEnd?_eq_none_iff, isRecord_arr_iff]
      tauto

/-- A field of a record is read from what stands in it. -/
theorem Reads.withDefault {read : Fragment → Except DecodeError α} {means : Fragment → α → Prop}
    (h : Reads read means) (record : String) (known : List String) (v : Fragment) (key : String)
    (default a : α) :
    (recordFields record known v).withDefault key read default = .read a ↔
      v.FieldMeans known key means default a := by
  rw [Fields.withDefault, Fields.field_eq_read_iff, find?_recordFields, FieldMeans]
  cases v.field? known key with
  | none => simp [eq_comm]
  | some w => simp [h w a]

/-! ## Documents -/

/-- A text is a document with a meaning. -/
def SaidBy (means : Fragment → α → Prop) (text : String) (a : α) : Prop :=
  ∃ v, ofText text = (v, true) ∧ means v a

/-- A document has the meaning that is read and no other. -/
theorem Reads.document {read : Fragment → Except DecodeError α} {means : Fragment → α → Prop}
    (h : Reads read means) (fault : DecodeError → DocumentFault) {text : String} {a : α} :
    decodeDocument read fault text = .ok a ↔ SaidBy means text a := by
  simp only [SaidBy, ← h _ a, decodeDocument]
  obtain ⟨v, complete⟩ := ofText text
  cases hread : read v <;> cases complete <;> simp [hread]

end Fragment

end Stepwise
