import Stepwise.Proofs.Decode

/-!
# A value in its place

A document with a place left open is a frame around a value. A record whose other fields are read
decodes as the field at the place decides, and a list as the item at the place does. So what is
known of a document with some value in the place carries over to every other value there.
-/

namespace Stepwise

variable {α β : Type}

theorem eq_ok_of_mapError {ε ε' : Type} {r : Except ε α} {f : ε → ε'} {a : α}
    (h : r.mapError f = .ok a) : r = .ok a := by
  cases r with
  | error e => cases h
  | ok a' => exact congrArg Except.ok (Except.ok.inj h)

theorem exists_ok_of_map {ε : Type} {r : Except ε α} {f : α → β} {b : β}
    (h : r.map f = .ok b) : ∃ a, r = .ok a := by
  cases r with
  | error e => cases h
  | ok a => exact ⟨a, rfl⟩

/-! ## Readings at a place -/

namespace Form

/-- The outcome of reading the value at a place. -/
def readAt (place : Nat) : Except DecodeError α → Form α
  | .ok a => .read a
  | .error e => .faulty ⟨some place, e⟩

theorem readAt_eq_read_iff {place : Nat} {r : Except DecodeError α} {a : α} :
    readAt place r = .read a ↔ r = .ok a := by
  cases r <;> simp [readAt]

/-- Beside fields that can be read the outcome at the place decides. -/
theorem seq_eq_readAt {f : Form (α → β)} {g : α → β} {x : Form α} {place : Nat}
    {r : Except DecodeError α} (hf : f = .read g) (hx : x = readAt place r) :
    f <*> x = readAt place (r.map g) := by
  subst hf hx
  cases r <;> rfl

theorem readAt_seq_eq {f : Form (α → β)} {x : Form α} {place : Nat}
    {r : Except DecodeError (α → β)} {a : α} (hf : f = readAt place r) (hx : x = .read a) :
    f <*> x = readAt place (r.map fun g => g a) := by
  subst hf hx
  cases r <;> rfl

end Form

namespace Fields

/-- Fields among which one has a value that is left open. -/
def around (front : List (String × β)) (key : String) (back : List (String × β))
    (absent : String → DecodeError) (value : β) : Fields β :=
  ⟨front ++ (key, value) :: back, absent⟩

theorem locate_append_of_not_mem {key : String} {front : List (String × β)}
    (h : key ∉ Ordered.keys front) (i : Nat) (rest : List (String × β)) :
    locate key i (front ++ rest) = locate key (i + front.length) rest := by
  induction front generalizing i with
  | nil => rfl
  | cons entry front ih =>
      obtain ⟨name, value⟩ := entry
      have hname : name ≠ key := fun he => h (he ▸ List.mem_cons_self)
      rw [List.cons_append, locate, if_neg hname, ih fun hm => h (List.mem_cons_of_mem _ hm),
        List.length_cons, Nat.add_assoc, Nat.add_comm 1]

/-- What is found under another name does not depend on the open value. -/
theorem locate_around {key other : String} (h : other ≠ key) (i : Nat)
    (front back : List (String × β)) (v w : β) :
    locate other i (front ++ (key, v) :: back) = locate other i (front ++ (key, w) :: back) := by
  induction front generalizing i with
  | nil => rw [List.nil_append, List.nil_append, locate, locate, if_neg h.symm, if_neg h.symm]
  | cons entry front ih =>
      obtain ⟨name, value⟩ := entry
      rw [List.cons_append, List.cons_append, locate, locate, ih]

section Around

variable {front back : List (String × β)} {key : String} {absent : String → DecodeError}

theorem field_around_self (h : key ∉ Ordered.keys front) (read : β → Except DecodeError α)
    (default : Option α) (v : β) :
    (around front key back absent v).field key read default =
      Form.readAt front.length (read v) := by
  have hlocate : locate key 0 (front ++ (key, v) :: back) = some (front.length, v) := by
    rw [locate_append_of_not_mem h, locate, if_pos rfl, Nat.zero_add]
  unfold field around
  rw [hlocate]
  cases hread : read v <;> simp [hread, Form.readAt]

/-- The other fields are read as with another value in the place. -/
theorem field_around_of_ne {other : String} {read : β → Except DecodeError α}
    {default : Option α} {good : β} {a : α} (h : other ≠ key)
    (hread : (around front key back absent good).field other read default = .read a) (v : β) :
    (around front key back absent v).field other read default = .read a := by
  unfold field around at hread ⊢
  rwa [locate_around h 0 front back v good]

/-- Among distinct names the outcome at the place is the outcome of all fields. -/
theorem finish_around {known : List String} {v : β} {form : Form α} {place : Nat}
    {r : Except DecodeError α} (hn : (Ordered.keys (front ++ (key, v) :: back)).Nodup)
    (hform : form = Form.readAt place r) :
    (around front key back absent v).finish known form = r := by
  have hunique : (around front key back absent v).repetition? known = none :=
    repetition?_eq_none hn known
  rw [finish, hunique, hform]
  cases r <;> rfl

end Around

end Fields

namespace Json

/-! ## A value in a container -/

/-- A container around a value: what stands before the value and behind it. -/
inductive Frame where
  | member (before : List (String × Json)) (key : String) (after : List (String × Json))
  | item (before after : List Json)

/-- What stands in a field of a record, be it written as an object or as a list. -/
def field? (known : List String) (key : String) : Json → Option Json
  | obj members => Ordered.find? members key
  | arr items => Ordered.find? (known.zip items) key
  | _ => none

theorem isNormal_of_field? {known : List String} {key : String} {v w : Json} (h : v.IsNormal)
    (hw : v.field? known key = some w) : w.IsNormal := by
  cases v with
  | obj members => exact ((isNormal_obj_iff members).mp h).2 _ (Ordered.mem_of_find? hw)
  | arr items =>
      exact (isNormal_arr_iff items).mp h w (List.of_mem_zip (Ordered.mem_of_find? hw)).2
  | null | bool _ | num _ | str _ => cases hw

namespace Frame

/-- The container with a value in its place. -/
def fill : Frame → Json → Json
  | member before key after, v => .obj (before ++ (key, v) :: after)
  | item before after, v => .arr (before ++ v :: after)

/-- The place is that of a field of a record that is written as an object or as a list. -/
def IsField (known : List String) (key : String) : Frame → Prop
  | member _ name _ => name = key
  | item before _ => known[before.length]? = some key

theorem isNormal_of_fill {frame : Frame} {v : Json} (h : (frame.fill v).IsNormal) :
    v.IsNormal := by
  cases frame with
  | member before key after =>
      exact ((isNormal_obj_iff _).mp h).2 (key, v) (by simp)
  | item before after => exact (isNormal_arr_iff _).mp h v (by simp)

theorem isNormal_fill {frame : Frame} {v w : Json} (h : (frame.fill v).IsNormal)
    (hw : w.IsNormal) : (frame.fill w).IsNormal := by
  cases frame with
  | member before key after =>
      obtain ⟨hnames, hvalues⟩ := (isNormal_obj_iff _).mp h
      refine isNormal_obj (by simpa [Ordered.keys] using hnames) fun m hm => ?_
      rcases List.mem_append.mp hm with hb | ha
      · exact hvalues m (List.mem_append_left _ hb)
      · rcases List.mem_cons.mp ha with rfl | ha
        · exact hw
        · exact hvalues m (List.mem_append_right _ (List.mem_cons_of_mem _ ha))
  | item before after =>
      have hvalues := (isNormal_arr_iff _).mp h
      refine (isNormal_arr_iff _).mpr fun x hx => ?_
      rcases List.mem_append.mp hx with hb | ha
      · exact hvalues x (List.mem_append_left _ hb)
      · rcases List.mem_cons.mp ha with rfl | ha
        · exact hw
        · exact hvalues x (List.mem_append_right _ (List.mem_cons_of_mem _ ha))

end Frame

theorem isPrefix_keys_zip {β : Type} (known : List String) (items : List β) :
    Ordered.keys (known.zip items) <+: known := by
  induction known generalizing items with
  | nil => exact List.prefix_rfl
  | cons name rest ih =>
      cases items with
      | nil => exact List.nil_prefix
      | cons v items => exact List.cons_prefix_cons.mpr ⟨rfl, ih items⟩

/-- A record is a list of its fields: those in front of a place, the one at it and those behind. -/
theorem zip_split {known : List String} {key : String} {before : List Json}
    (h : known[before.length]? = some key) (after : List Json) :
    ∃ front back, ∀ v : Json, known.zip (before ++ v :: after) = front ++ (key, v) :: back := by
  obtain ⟨hlt, hkey⟩ := List.getElem?_eq_some_iff.mp h
  have hknown : known = known.take before.length ++ key :: known.drop (before.length + 1) := by
    rw [← hkey, List.getElem_cons_drop, List.take_append_drop]
  have hlength : (known.take before.length).length = before.length := by
    rw [List.length_take]
    omega
  refine ⟨(known.take before.length).zip before, (known.drop (before.length + 1)).zip after,
    fun v => ?_⟩
  conv_lhs => rw [hknown]
  rw [List.zip_append hlength, List.zip_cons_cons]

theorem decodeItems_eq {record : String} {known : List String} {build : Fields Json → Form α}
    {items : List Json} {fields : Fields Json}
    (h : fields = ⟨known.zip items, fun key => .tooFew (known.idxOf key) record known.length⟩) :
    decodeItems record known build items =
      (fields.finish known (build fields)).bind fun a =>
        if known.length < items.length then .error (.tooMany items.length) else .ok a := by
  subst h
  rw [decodeItems]
  cases Fields.finish _ known (build _) <;> rfl

/-- With a value in the place of one field a record decodes to what that field decides, if it
decodes with some value there. -/
theorem decodeRecord_fill {record : String} {known : List String} {build : Fields Json → Form α}
    {frame : Frame} {key : String} (hfield : frame.IsField known key) (hknown : known.Nodup)
    {good : Json} (hnormal : (frame.fill good).IsNormal) {a : α}
    (hgood : decodeRecord record known build (frame.fill good) = .ok a) :
    ∃ front back absent, key ∉ Ordered.keys front ∧
      build (Fields.around front key back absent good) = .read a ∧
      (∀ v name, (frame.fill v).field? known name =
        Ordered.find? (front ++ (key, v) :: back) name) ∧
      ∀ v r, build (Fields.around front key back absent v) = Form.readAt front.length r →
        decodeRecord record known build (frame.fill v) = r := by
  cases frame with
  | member before name after =>
      obtain rfl : name = key := hfield
      have hnames := ((isNormal_obj_iff _).mp hnormal).1
      refine ⟨before, after, .missing, Ordered.not_mem_keys_of_nodup_append hnames,
        (Fields.finish_eq_ok_iff.mp hgood).1, fun _ _ => rfl, fun v r hbuild => ?_⟩
      have hnames' : (Ordered.keys (before ++ (name, v) :: after)).Nodup := by
        simpa [Ordered.keys] using hnames
      exact Fields.finish_around hnames' hbuild
  | item before after =>
      obtain ⟨front, back, hsplit⟩ := zip_split hfield after
      have hkeys : ∀ v, (Ordered.keys (front ++ (key, v) :: back)).Nodup := by
        intro v
        rw [← hsplit v]
        exact hknown.sublist (isPrefix_keys_zip known _).sublist
      have hlength : ∀ v w : Json,
          (before ++ v :: after).length = (before ++ w :: after).length := by
        simp
      let absent := fun name => DecodeError.tooFew (known.idxOf name) record known.length
      have hdecode : ∀ v, decodeRecord record known build (.arr (before ++ v :: after)) =
          ((Fields.around front key back absent v).finish known
            (build (.around front key back absent v))).bind fun b =>
              if known.length < (before ++ v :: after).length
              then .error (.tooMany (before ++ v :: after).length) else .ok b := by
        intro v
        rw [decodeRecord, decodeItems_eq (by rw [hsplit v])]
        rfl
      rw [Frame.fill, hdecode] at hgood
      cases hfinish : (Fields.around front key back absent good).finish known
          (build (.around front key back absent good)) with
      | error e =>
          rw [hfinish] at hgood
          cases hgood
      | ok b =>
          simp only [hfinish, Except.bind] at hgood
          split_ifs at hgood with hlong
          obtain rfl := Except.ok.inj hgood
          refine ⟨front, back, absent, Ordered.not_mem_keys_of_nodup_append (hkeys good),
            (Fields.finish_eq_ok_iff.mp hfinish).1, fun v name => ?_, fun v r hbuild => ?_⟩
          · rw [← hsplit v]
            rfl
          · rw [Frame.fill, hdecode, Fields.finish_around (hkeys v) hbuild, hlength v good]
            cases r with
            | error e => rfl
            | ok b => exact if_neg hlong

/-- A list decodes with another item in a place as that item decides. -/
theorem decodeEach_fill {read : Json → Except DecodeError α} {before after : List Json}
    {good : Json} {xs : List α} (h : decodeEach read (before ++ good :: after) = .ok xs) :
    ∃ front back, ∀ v, decodeEach read (before ++ v :: after) =
      (read v).map fun a => front ++ a :: back := by
  induction before generalizing xs with
  | nil =>
      rw [List.nil_append, decodeEach] at h
      cases hgood : read good with
      | error e => simp [hgood] at h
      | ok a =>
          cases hback : decodeEach read after with
          | error e => simp [hgood, hback, Except.map] at h
          | ok back =>
              refine ⟨[], back, fun v => ?_⟩
              rw [List.nil_append, decodeEach, hback]
              cases read v <;> rfl
  | cons first rest ih =>
      rw [List.cons_append, decodeEach] at h
      cases hfirst : read first with
      | error e => simp [hfirst] at h
      | ok x =>
          cases hrest : decodeEach read (rest ++ good :: after) with
          | error e => simp [hfirst, hrest, Except.map] at h
          | ok tail =>
              obtain ⟨front, back, hfill⟩ := ih hrest
              refine ⟨x :: front, back, fun v => ?_⟩
              rw [List.cons_append, decodeEach, hfirst, hfill v]
              cases read v <;> rfl

end Json

end Stepwise
