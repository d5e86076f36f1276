import Stepwise.Decode.Form
import Stepwise.Proofs.Json

/-!
# What decoders give and what survives being written

A decoder `Yields` what holds of every value it gives for inputs of a class. An encoded value is
`Stable` when its written form has distinct names and decodes to the same value again, and a
decoder `RoundTrips` when every value that it gives for an input with distinct names is stable. A
record is read through `Form` and `Fields`, so the laws of these reduce a record to its fields.
-/

namespace Stepwise

variable {α β : Type}

namespace Form

theorem map_eq_read {f : α → β} {x : Form α} {a : α} (hx : x = .read a) :
    f <$> x = .read (f a) := by
  rw [hx]
  rfl

theorem seq_eq_read {f : Form (α → β)} {g : α → β} {x : Form α} {a : α} (hf : f = .read g)
    (hx : x = .read a) : f <*> x = .read (g a) := by
  rw [hf, hx]
  rfl

theorem map_eq_read_iff {f : α → β} {x : Form α} {b : β} :
    f <$> x = .read b ↔ ∃ a, x = .read a ∧ f a = b := by
  refine ⟨fun h => ?_, fun ⟨a, hx, hb⟩ => hb ▸ map_eq_read hx⟩
  cases x with
  | read a => exact ⟨a, rfl, Form.read.inj h⟩
  | faulty fault => cases h

/-- Readings combine to a reading only when each of them is one. -/
theorem seq_eq_read_iff {f : Form (α → β)} {x : Form α} {b : β} :
    f <*> x = .read b ↔ ∃ g, f = .read g ∧ ∃ a, x = .read a ∧ g a = b := by
  refine ⟨fun h => ?_, fun ⟨g, hf, a, hx, hb⟩ => hb ▸ seq_eq_read hf hx⟩
  cases f with
  | read g =>
      cases x with
      | read a => exact ⟨g, rfl, a, rfl, Form.read.inj h⟩
      | faulty fault => cases h
  | faulty fault => cases x <;> cases h

theorem noting_eq_read_iff {form : Form α} {fault : Option Fault} {a : α} :
    form.noting fault = .read a ↔ form = .read a ∧ fault = none := by
  cases fault with
  | none => simp [noting]
  | some fault => cases form <;> simp [noting]

end Form

namespace Fields

/-- Every entry belongs to a class of values. -/
def AllIn (N : β → Prop) (fields : Fields β) : Prop := ∀ m ∈ fields.entries, N m.2

theorem allIn_zip {N : β → Prop} (known : List String) (absent : String → DecodeError)
    {items : List β} (h : ∀ v ∈ items, N v) : AllIn N ⟨known.zip items, absent⟩ :=
  fun m hm => h m.2 (List.of_mem_zip hm).2

theorem locate_map_snd (key : String) (i : Nat) (entries : List (String × β)) :
    (locate key i entries).map Prod.snd = Ordered.find? entries key := by
  induction entries generalizing i with
  | nil => rfl
  | cons entry rest ih =>
      obtain ⟨name, value⟩ := entry
      by_cases hk : name = key
      · simp [locate, Ordered.find?_cons, hk]
      · simpa [locate, Ordered.find?_cons, hk] using ih (i + 1)

theorem mem_of_locate {key : String} {fields : Fields β} {i : Nat} {v : β}
    (h : locate key 0 fields.entries = some (i, v)) : (key, v) ∈ fields.entries := by
  refine Ordered.mem_of_find? ?_
  rw [← locate_map_snd key 0, h]
  rfl

/-- Decoders that agree on the entries read the same field. -/
theorem field_congr {fields : Fields β} {read read' : β → Except DecodeError α} (key : String)
    (default : Option α) (h : fields.AllIn fun v => read v = read' v) :
    fields.field key read default = fields.field key read' default := by
  unfold field
  split
  · next i v hlocate => rw [h (key, v) (mem_of_locate hlocate)]
  · rfl

/-- A field is read from the first entry of its name, or takes its default. -/
theorem field_eq_read_iff {fields : Fields β} {key : String} {read : β → Except DecodeError α}
    {default : Option α} {a : α} :
    fields.field key read default = .read a ↔
      (∃ v, Ordered.find? fields.entries key = some v ∧ read v = .ok a) ∨
        (Ordered.find? fields.entries key = none ∧ default = some a) := by
  unfold field
  rw [← locate_map_snd key 0]
  cases locate key 0 fields.entries with
  | none => cases default <;> simp
  | some entry =>
      obtain ⟨i, v⟩ := entry
      cases hr : read v <;> simp [hr]

theorem repeated?_eq_none (known : List String) (i : Nat) {seen : List String}
    {entries : List (String × β)} (hn : (Ordered.keys entries).Nodup)
    (hseen : ∀ name ∈ Ordered.keys entries, name ∉ seen) :
    repeated? known i seen entries = none := by
  induction entries generalizing i seen with
  | nil => rfl
  | cons entry rest ih =>
      obtain ⟨name, value⟩ := entry
      obtain ⟨hout, hrest⟩ : name ∉ Ordered.keys rest ∧ (Ordered.keys rest).Nodup :=
        List.nodup_cons.mp hn
      obtain ⟨hname, hseen⟩ := List.forall_mem_cons.mp hseen
      rw [repeated?, if_neg hname, ih (i + 1) hrest hseen, ite_eq_right_iff]
      refine fun _ => ih (i + 1) hrest fun other hother => ?_
      rw [List.mem_cons, not_or]
      exact ⟨fun he => hout (he ▸ hother), hseen other hother⟩

/-- Among distinct names no field is repeated. -/
theorem repetition?_eq_none {fields : Fields β} (hn : (Ordered.keys fields.entries).Nodup)
    (known : List String) : fields.repetition? known = none := by
  rw [repetition?, repeated?_eq_none known 0 hn fun _ _ => List.not_mem_nil, Option.map_none]

theorem count_le_of_repeated? {known : List String} {i : Nat} {seen : List String}
    {entries : List (String × β)} (h : repeated? known i seen entries = none) {key : String}
    (hkey : key ∈ known) :
    (Ordered.keys entries).count key ≤ 1 ∧ (key ∈ seen → key ∉ Ordered.keys entries) := by
  induction entries generalizing i seen with
  | nil => simp [Ordered.keys]
  | cons entry rest ih =>
      obtain ⟨name, value⟩ := entry
      rw [repeated?] at h
      rw [Ordered.keys_cons]
      by_cases hname : name = key
      · subst hname
        rw [if_pos hkey] at h
        by_cases hseen : name ∈ seen
        · simp [hseen] at h
        · rw [if_neg hseen] at h
          have hout := (ih h).2 List.mem_cons_self
          simp [hseen, List.count_eq_zero.mpr hout]
      · have hrest : (Ordered.keys rest).count key ≤ 1 ∧
            (key ∈ seen → key ∉ Ordered.keys rest) := by
          split_ifs at h with hknown hseen
          · exact ⟨(ih h).1, fun hs => (ih h).2 (List.mem_cons_of_mem _ hs)⟩
          · exact ih h
        rw [List.count_cons_of_ne hname]
        exact ⟨hrest.1, fun hs => List.not_mem_cons_of_ne_of_not_mem (Ne.symm hname) (hrest.2 hs)⟩

/-- A known name of a record without repetitions stands at most once. -/
theorem count_le_of_repetition? {fields : Fields β} {known : List String}
    (h : fields.repetition? known = none) {key : String} (hkey : key ∈ known) :
    (Ordered.keys fields.entries).count key ≤ 1 :=
  (count_le_of_repeated? (Option.map_eq_none_iff.mp h) hkey).1

theorem finish_eq_ok_iff {fields : Fields β} {known : List String} {form : Form α} {a : α} :
    fields.finish known form = .ok a ↔ form = .read a ∧ fields.repetition? known = none := by
  rw [← Form.noting_eq_read_iff, finish]
  cases form.noting (fields.repetition? known) <;> simp

end Fields

namespace Json

/-! ## What a decoder gives -/

/-- The items and members of the values of one class belong to another class. -/
structure PartsIn (N M : Json → Prop) : Prop where
  items : ∀ items, N (arr items) → ∀ v ∈ items, M v
  members : ∀ members, N (obj members) → ∀ m ∈ members, M m.2

theorem partsIn_isNormal : PartsIn IsNormal IsNormal where
  items _ h := (isNormal_arr_iff _).mp h
  members _ h := ((isNormal_obj_iff _).mp h).2

theorem partsIn_true : PartsIn (fun _ => True) fun _ => True :=
  ⟨fun _ _ _ _ => trivial, fun _ _ _ _ => trivial⟩

theorem partsIn_depth (n : Nat) : PartsIn (fun v => v.depth ≤ n) fun v => v.depth < n where
  items _ h _ hv := Nat.lt_of_lt_of_le (depth_lt_of_mem_items hv) h
  members _ h _ hm := Nat.lt_of_lt_of_le (depth_lt_of_mem_members hm) h

/-- Whatever the decoder gives for a value of the class satisfies the predicate. -/
def Yields (N : Json → Prop) (decode : Json → Except DecodeError α) (P : α → Prop) : Prop :=
  ∀ v a, N v → decode v = .ok a → P a

namespace Yields

variable {N M : Json → Prop} {read : Json → Except DecodeError α} {P : α → Prop}

theorem field {fields : Fields Json} {key : String} {default : Option α} {a : α}
    (hf : fields.AllIn N) (h : Yields N read P) (hd : ∀ d ∈ default, P d)
    (hr : fields.field key read default = .read a) : P a := by
  rcases Fields.field_eq_read_iff.mp hr with ⟨v, hv, hread⟩ | ⟨-, hdefault⟩
  · exact h v a (hf (key, v) (Ordered.mem_of_find? hv)) hread
  · exact hd a hdefault

theorem required {fields : Fields Json} {key : String} {a : α}
    (hf : fields.AllIn N) (h : Yields N read P)
    (hr : fields.required key read = .read a) : P a :=
  h.field hf (by simp) hr

theorem withDefault {fields : Fields Json} {key : String} {default a : α}
    (hf : fields.AllIn N) (h : Yields N read P) (hd : P default)
    (hr : fields.withDefault key read default = .read a) : P a :=
  h.field hf (by simpa using hd) hr

/-- A record satisfies what holds of every reading of its fields. -/
theorem record (hN : PartsIn N M) {record : String} {known : List String}
    {build : Fields Json → Form α}
    (h : ∀ fields, fields.AllIn M → ∀ a, build fields = .read a → P a) :
    Yields N (decodeRecord record known build) P := by
  intro v a hv hdecode
  cases v with
  | obj members =>
      exact h ⟨members, .missing⟩ (hN.members members hv) a (Fields.finish_eq_ok_iff.mp hdecode).1
  | arr items =>
      rw [decodeRecord, decodeItems] at hdecode
      split at hdecode
      · cases hdecode
      · next b hfinish =>
        -- a list with items behind the last field is refused after its fields are read
        split at hdecode
        · cases hdecode
        · obtain rfl := Except.ok.inj hdecode
          exact h _ (Fields.allIn_zip known _ (hN.items items hv)) b
            (Fields.finish_eq_ok_iff.mp hfinish).1
  | null | bool _ | num _ | str _ => cases hdecode

/-- What is made of a decoded value satisfies what holds of all that is made so. -/
theorem mapped (h : Yields N read P) {f : α → β} {Q : β → Prop} (hf : ∀ a, P a → Q (f a)) :
    Yields N (fun v => (read v).map f) Q := by
  intro v b hv hdecode
  dsimp only at hdecode
  cases hread : read v with
  | error e => simp [hread, Except.map] at hdecode
  | ok a =>
      obtain rfl : f a = b := by simpa [hread, Except.map] using hdecode
      exact hf a (h v a hv hread)

theorem each (h : Yields N read P) {items : List Json} {xs : List α} (hv : ∀ v ∈ items, N v)
    (hdecode : decodeEach read items = .ok xs) : ∀ x ∈ xs, P x := by
  induction items generalizing xs with
  | nil =>
      obtain rfl := Except.ok.inj hdecode
      nofun
  | cons v rest ih =>
      obtain ⟨hfirst, hrest⟩ := List.forall_mem_cons.mp hv
      rw [decodeEach] at hdecode
      cases hread : read v with
      | error e => simp [hread] at hdecode
      | ok a =>
          cases htail : decodeEach read rest with
          | error e => simp [hread, htail, Except.map] at hdecode
          | ok tail =>
              obtain rfl : a :: tail = xs := by simpa [hread, htail, Except.map] using hdecode
              exact List.forall_mem_cons.mpr ⟨h v a hfirst hread, ih hrest htail⟩

theorem list (hN : PartsIn N M) (h : Yields M read P) :
    Yields N (decodeList read) fun xs => ∀ x ∈ xs, P x := by
  intro v xs hv hdecode
  cases v with
  | arr items => exact h.each (hN.items items hv) hdecode
  | null | bool _ | num _ | str _ | obj _ => cases hdecode

theorem optional (h : Yields N read P) :
    Yields N (decodeOptional read) fun o => ∀ a ∈ o, P a := by
  have hsome : Yields N (fun v => (read v).map some) fun o => ∀ a ∈ o, P a :=
    h.mapped fun a ha => by simpa using ha
  intro v o hv hdecode
  rw [decodeOptional.eq_def] at hdecode
  split at hdecode
  · obtain rfl := Except.ok.inj hdecode
    nofun
  · exact hsome v o hv hdecode

theorem any : Yields N decodeAny IsNormal := by
  intro v w _ hdecode
  obtain rfl := Except.ok.inj hdecode
  exact isNormal_normal v

theorem eachMember (read : Json → Except DecodeError α) {done entries : Ordered α}
    {members : List (String × Json)} (hn : (Ordered.keys done).Nodup)
    (hdecode : decodeEachMember read done members = .ok entries) :
    (Ordered.keys entries).Nodup := by
  induction members generalizing done with
  | nil => exact Except.ok.inj hdecode ▸ hn
  | cons m rest ih =>
      rw [decodeEachMember] at hdecode
      split at hdecode
      · cases hdecode
      · exact ih (Ordered.keys_nodup_set hn _ _) hdecode

/-- The names of a map are distinct. -/
theorem map (read : Json → Except DecodeError α) :
    Yields N (decodeMap read) fun entries => (Ordered.keys entries).Nodup := by
  intro v entries _ hdecode
  cases v with
  | obj members => exact @eachMember α read [] entries members List.nodup_nil hdecode
  | null | bool _ | num _ | str _ | arr _ => cases hdecode

theorem eachMember_values (hread : Yields N read P) {done entries : Ordered α}
    {members : List (String × Json)} (hdone : ∀ m ∈ done, P m.2) (hm : ∀ m ∈ members, N m.2)
    (hdecode : decodeEachMember read done members = .ok entries) : ∀ m ∈ entries, P m.2 := by
  induction members generalizing done with
  | nil => exact Except.ok.inj hdecode ▸ hdone
  | cons m rest ih =>
      obtain ⟨hfirst, hrest⟩ := List.forall_mem_cons.mp hm
      rw [decodeEachMember] at hdecode
      split at hdecode
      · cases hdecode
      · next a ha =>
        refine ih (fun slot hslot => ?_) hrest hdecode
        rcases Ordered.mem_of_mem_set hslot with rfl | hold
        · exact hread m.2 a hfirst ha
        · exact hdone slot hold

/-- The values of a map satisfy what holds of every value that is read. -/
theorem map_values (hN : PartsIn N M) (h : Yields M read P) :
    Yields N (decodeMap read) fun entries => ∀ m ∈ entries, P m.2 := by
  intro v entries hv hdecode
  cases v with
  | obj members => exact h.eachMember_values (by simp) (hN.members members hv) hdecode
  | null | bool _ | num _ | str _ | arr _ => cases hdecode

end Yields

/-! ## Lists and maps piece by piece -/

/-- A list is decoded when each of its items is. -/
theorem decodeEach_eq_ok_iff {read : Json → Except DecodeError α} {items : List Json}
    {xs : List α} : decodeEach read items = .ok xs ↔ items.map read = xs.map .ok := by
  induction items generalizing xs with
  | nil => cases xs <;> simp [decodeEach]
  | cons v rest ih =>
      rw [decodeEach, List.map_cons]
      cases hv : read v with
      | error e => cases xs <;> simp
      | ok a =>
          cases xs with
          | nil => cases hr : decodeEach read rest <;> simp [Except.map]
          | cons x xs =>
              have ih := @ih xs
              cases hr : decodeEach read rest <;> simp_all [Except.map]

/-- Where nothing can be wrong with a member, all members are stored in turn. -/
theorem decodeEachMember_of_total {read : Json → Except DecodeError α} {f : Json → α}
    (h : ∀ v, read v = .ok (f v)) (done : Ordered α) (members : List (String × Json)) :
    decodeEachMember read done members =
      .ok (Ordered.setAll done (members.map fun m => (m.1, f m.2))) := by
  induction members generalizing done with
  | nil => rfl
  | cons m rest ih =>
      rw [decodeEachMember, h]
      exact ih _

/-! ## Decoders that agree on the parts of a value -/

section Agreement

variable {N M : Json → Prop}

theorem decodeRecord_congr (hN : PartsIn N M) {record : String} {known : List String}
    {build build' : Fields Json → Form α} {v : Json} (hv : N v)
    (h : ∀ fields, fields.AllIn M → build fields = build' fields) :
    decodeRecord record known build v = decodeRecord record known build' v := by
  cases v with
  | obj members =>
      simp only [decodeRecord, decodeMembers, h ⟨members, .missing⟩ (hN.members members hv)]
  | arr items =>
      simp only [decodeRecord, decodeItems, h _ (Fields.allIn_zip known _ (hN.items items hv))]
  | null | bool _ | num _ | str _ => rfl

theorem decodeEach_congr {read read' : Json → Except DecodeError α} {items : List Json}
    (h : ∀ v ∈ items, read v = read' v) : decodeEach read items = decodeEach read' items := by
  induction items with
  | nil => rfl
  | cons v rest ih =>
      obtain ⟨hv, hrest⟩ := List.forall_mem_cons.mp h
      rw [decodeEach, decodeEach, hv, ih hrest]

theorem decodeList_congr (hN : PartsIn N M) {read read' : Json → Except DecodeError α} {v : Json}
    (hv : N v) (h : ∀ w, M w → read w = read' w) : decodeList read v = decodeList read' v := by
  cases v with
  | arr items => exact decodeEach_congr fun w hw => h w (hN.items items hv w hw)
  | null | bool _ | num _ | str _ | obj _ => rfl

end Agreement

/-! ## What survives being written -/

/-- The written form of a value has distinct names and decodes to the value again. -/
structure Stable (decode : Json → Except DecodeError α) (encode : α → Json) (a : α) : Prop where
  isNormal : (encode a).IsNormal
  decodes : decode (encode a) = .ok a

/-- What a decoder gives for a value with distinct names survives being written. -/
def RoundTrips (decode : Json → Except DecodeError α) (encode : α → Json) : Prop :=
  Yields IsNormal decode (Stable decode encode)

namespace Stable

variable {read : Json → Except DecodeError α} {encode : α → Json}

theorem field {a : α} (h : Stable read encode a) {fields : Fields Json} {key : String}
    {default : Option α} (hf : Ordered.find? fields.entries key = some (encode a)) :
    fields.field key read default = .read a :=
  Fields.field_eq_read_iff.mpr (Or.inl ⟨encode a, hf, h.decodes⟩)

/-- A record is stable when its written members have distinct names and give it back. -/
theorem record {a : α} {record : String} {known : List String} {build : Fields Json → Form α}
    {members : List (String × Json)} (hencode : encode a = obj members)
    (hnormal : (obj members).IsNormal) (hbuild : build ⟨members, .missing⟩ = .read a) :
    Stable (decodeRecord record known build) encode a where
  isNormal := hencode ▸ hnormal
  decodes := by
    have hkeys := ((isNormal_obj_iff members).mp hnormal).1
    rw [hencode]
    exact Fields.finish_eq_ok_iff.mpr ⟨hbuild, Fields.repetition?_eq_none hkeys known⟩

theorem each {xs : List α} (h : ∀ x ∈ xs, Stable read encode x) :
    decodeEach read (xs.map encode) = .ok xs := by
  induction xs with
  | nil => rfl
  | cons x rest ih =>
      obtain ⟨hx, hrest⟩ := List.forall_mem_cons.mp h
      simp [decodeEach, hx.decodes, ih hrest, Except.map]

theorem list {xs : List α} (h : ∀ x ∈ xs, Stable read encode x) :
    Stable (decodeList read) (fun xs => arr (xs.map encode)) xs where
  isNormal := (isNormal_arr_iff _).mpr (List.forall_mem_map.mpr fun x hx => (h x hx).isNormal)
  decodes := each h

theorem eachMember {entries done : Ordered α} (hn : (Ordered.keys (done ++ entries)).Nodup)
    (h : ∀ m ∈ entries, Stable read encode m.2) :
    decodeEachMember read done (entries.map fun m => (m.1, encode m.2)) =
      .ok (done ++ entries) := by
  induction entries generalizing done with
  | nil => simp [decodeEachMember]
  | cons m rest ih =>
      obtain ⟨hm, hrest⟩ := List.forall_mem_cons.mp h
      have hassoc : done ++ m :: rest = (done ++ [m]) ++ rest := by simp
      rw [List.map_cons, decodeEachMember, hm.decodes, hassoc]
      dsimp only
      rw [Ordered.set_of_not_mem (Ordered.not_mem_keys_of_nodup_append hn)]
      exact ih (hassoc ▸ hn) hrest

theorem map {entries : Ordered α} (hn : (Ordered.keys entries).Nodup)
    (h : ∀ m ∈ entries, Stable read encode m.2) :
    Stable (decodeMap read) (fun es => obj (es.map fun m => (m.1, encode m.2))) entries where
  isNormal := by
    refine isNormal_obj ?_ (List.forall_mem_map.mpr fun m hm => (h m hm).isNormal)
    simpa [Ordered.keys, Function.comp_def] using hn
  decodes := eachMember hn h

theorem text (s : String) : Stable decodeText str s := ⟨rfl, rfl⟩

theorem truth (b : Bool) : Stable decodeTruth bool b := ⟨rfl, rfl⟩

theorem any {v : Json} (h : v.IsNormal) : Stable decodeAny id v := ⟨h, congrArg Except.ok h⟩

/-- A map of any values is stable when its names and those inside its values are distinct. -/
theorem anyMap {entries : Ordered Json} (h : (obj entries).IsNormal) :
    Stable (decodeMap decodeAny) obj entries where
  isNormal := h
  decodes := by
    obtain ⟨hnames, hvalues⟩ := (isNormal_obj_iff entries).mp h
    have hmap := (map hnames fun m hm => any (hvalues m hm)).decodes
    simpa using hmap

/-- A choice is stable when the name that is written for it chooses it again. -/
theorem choice {choose : String → Except DecodeError α} {name : α → String} {a : α}
    (h : choose (name a) = .ok a) : Stable (decodeChoice choose) (fun a => str (name a)) a :=
  ⟨rfl, h⟩

end Stable

end Json

end Stepwise
