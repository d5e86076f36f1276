import Stepwise.Proofs.Store.RecordFile
import Stepwise.Proofs.Store.Refinement

/-!
# A record file is an ordered list

Every call to a store in a file reads the whole file, and an update writes it whole. Between two
calls the file holds a list of records, and it stands in its place unless the list is empty, when
there is nothing that an update could replace. This is kept by every call, so the file refines the
list of its records. A call that fails changes nothing.
-/

namespace Stepwise

namespace RecordFile

/-! ## What a file is read as -/

/-- A missing file, a blank one, and a list of records are read; nothing else is. -/
theorem read_eq_ok_iff (files : FileTree) (path : String) (records : List Variable) :
    read files path = .ok records ↔
      (files.readText path = .error .missing ∧ records = []) ∨
      ∃ text, files.readText path = .ok text ∧
        ((Text.isBlankText text = true ∧ records = []) ∨
          (Text.isBlankText text = false ∧ SaidBy text records)) := by
  rw [read]
  cases files.readText path with
  | error fault =>
      cases fault with
      | unusable => simp
      | missing =>
          constructor
          · intro h
            exact Or.inl ⟨rfl, (Except.ok.inj h).symm⟩
          · rintro (⟨-, rfl⟩ | ⟨text, htext, -⟩)
            · rfl
            · cases htext
  | ok text =>
      simp only [reduceCtorEq, false_and, false_or, Except.ok.injEq, exists_eq_left',
        ofText_eq_ok_iff]

theorem read_of_readText {files : FileTree} {path : String} {records : List Variable}
    (hdurable : ∀ r ∈ records, r.Durable) (h : files.readText path = .ok (toText records)) :
    read files path = .ok records := by
  rw [read, h]
  exact ofText_toText path hdurable

theorem replaceFirst_eq (id : String) (record : Variable) (records : List Variable) :
    replaceFirst id record records =
      (records.findIdx? fun r => r.id == id).map fun place => records.set place record := by
  induction records with
  | nil => rfl
  | cons r rest ih =>
      rw [replaceFirst, List.findIdx?_cons]
      cases r.id == id with
      | true => rfl
      | false =>
          simp only [Bool.false_eq_true, if_false, ih, Option.map_map]
          rfl

/-! ## The list that a file holds -/

/-- The file is read as the records, these are durable, and unless there are none the file stands in
its place. -/
structure Holds (path : String) (files : FileTree) (records : List Variable) : Prop where
  read : read files path = .ok records
  durable : ∀ r ∈ records, r.Durable
  placed : records ≠ [] → ∃ names draft, Placed files path names draft

/-- In a sound tree a file that can be read and replaced holds its records. -/
theorem holds_of_read {path : String} {files : FileTree} {records : List Variable}
    (hsound : files.Sound) (hread : RecordFile.read files path = .ok records)
    (hwrite : ∀ text, files.readText path = .ok text →
      ∃ new written, replaceContent files path new = .ok written)
    (hdurable : ∀ r ∈ records, r.Durable) : Holds path files records where
  read := hread
  durable := hdurable
  placed hne := by
    rcases (read_eq_ok_iff files path records).mp hread with ⟨-, hnone⟩ | ⟨text, htext, -⟩
    · exact absurd hnone hne
    · obtain ⟨new, written, hwritten⟩ := hwrite text htext
      exact exists_placed hsound htext hwritten

/-- What an update does to the file that holds a list of records. -/
theorem Holds.update {path : String} {files : FileTree} {records : List Variable}
    (h : Holds path files records) (id : String) {record : Variable} (hrecord : record.Durable) :
    match records.findIdx? fun r => r.id == id with
    | none => RecordFile.update files path id record = .error (.recordNotFound id)
    | some place => ∃ written, RecordFile.update files path id record = .ok written ∧
        Holds path written (records.set place record) := by
  rw [RecordFile.update, h.read]
  simp only [replaceFirst_eq]
  cases hplace : records.findIdx? fun r => r.id == id with
  | none => rfl
  | some place =>
      have hne : records ≠ [] := by
        rintro rfl
        cases hplace
      obtain ⟨names, draft, hplaced⟩ := h.placed hne
      obtain ⟨written, hwritten, hagain, htext, -⟩ :=
        hplaced.replaceContent (toText (records.set place record))
      have hdurable : ∀ r ∈ records.set place record, r.Durable := by
        intro r hr
        rcases List.mem_or_eq_of_mem_set hr with hold | rfl
        · exact h.durable r hold
        · exact hrecord
      refine ⟨written, by simp [hwritten], ?_, hdurable, fun _ => ⟨names, draft, hagain⟩⟩
      exact read_of_readText hdurable htext

/-! ## A file alone in a folder -/

/-- Files of which there is one, with records, in a folder. -/
def alone (records : List Variable) : FileTree :=
  [(["data", "records.json"], .file (.text (toText records)))]

theorem sound_alone (records : List Variable) : (alone records).Sound := by
  constructor <;> simp [alone, FileTree.Bare, FileTree.isAbove]

theorem read_alone {records : List Variable} (h : ∀ r ∈ records, r.Durable) :
    RecordFile.read (alone records) "data/records.json" = .ok records :=
  read_of_readText h rfl

theorem replaceContent_alone (records : List Variable) :
    ∃ new written, replaceContent (alone records) "data/records.json" new = .ok written :=
  ⟨"", _, rfl⟩

end RecordFile

namespace RecordStore

/-- Records in a file refine their list, if every record that is stored is durable. -/
theorem file_refines_plain (path : String) :
    Refines (RecordFile.Holds path) (fun _ record => record.Durable) (file path) plain where
  findOne id files records h := by
    have hrun : ((file path).findOne id).run files = ((RecordFile.read files path).map fun found =>
      RecordFile.findOne found id, files) := rfl
    rw [hrun, h.read]
    exact ⟨rfl, h⟩
  updateOne id record hrecord files records h := by
    have hupdate := h.update id hrecord
    rw [run_updateOne_file, run_updateOne_plain]
    cases hplace : records.findIdx? fun r => r.id == id with
    | none =>
        rw [hplace] at hupdate
        simp only [hupdate]
        exact ⟨trivial, h⟩
    | some place =>
        rw [hplace] at hupdate
        obtain ⟨written, hwritten, hholds⟩ := hupdate
        simp only [hwritten]
        exact ⟨trivial, hholds⟩
  list object files records h := by
    have hlist : (file path).list object files =
      (RecordFile.read files path).map (RecordTable.list.inCollection object) := rfl
    rw [hlist, h.read]
    exact congrArg Except.ok (inCollection_eq_filter object records)
  found id files records record h hfound := by
    have hrun : (((file path).findOne id).run files).1 = (RecordFile.read files path).map fun found =>
      RecordFile.findOne found id := rfl
    rw [hrun, h.read] at hfound
    have hfind : records.find? (fun r => r.id == id) = some record := Except.ok.inj hfound
    exact h.durable record (List.mem_of_find?_eq_some hfind)

/-! ## Calls that fail -/

/-- A call to a store in a file that fails leaves the files as they were. -/
theorem call_file_of_error {path : String} {files : FileTree} {c : StoreCall} {e : StoreError}
    (h : (((file path).call c).run files).1 = .error e) :
    (((file path).call c).run files).2 = files := by
  cases c with
  | findOne id => rfl
  | list object => rfl
  | updateOne id record =>
      simp only [call, run_bind, run_updateOne_file] at h ⊢
      cases hupdate : RecordFile.update files path id record with
      | error e => rfl
      | ok written => simp [hupdate, Except.map] at h

/-- Content that is not read as records fails every call and stays. -/
theorem call_file_of_read_error {path : String} {files : FileTree} {e : StoreError}
    (h : RecordFile.read files path = .error e) (c : StoreCall) :
    ((file path).call c).run files = (.error e, files) := by
  cases c with
  | findOne id =>
      have hrun : ((file path).findOne id).run files =
        ((RecordFile.read files path).map fun found => RecordFile.findOne found id, files) := rfl
      simp only [call, run_bind, hrun, h]
      rfl
  | list object =>
      have hrun : ((file path).listing object).run files =
        ((RecordFile.read files path).map (RecordTable.list.inCollection object), files) := rfl
      simp only [call, run_bind, hrun, h]
      rfl
  | updateOne id record =>
      have hupdate : RecordFile.update files path id record = .error e := by
        rw [RecordFile.update, h]
      simp only [call, run_bind, run_updateOne_file, hupdate]
      rfl

theorem calls_file_of_read_error {path : String} {files : FileTree} {e : StoreError}
    (h : RecordFile.read files path = .error e) (cs : List StoreCall) :
    ((file path).calls cs).run files = (cs.map fun _ => .error e, files) := by
  induction cs with
  | nil => rfl
  | cons c rest ih =>
      simp only [calls, run_bind, call_file_of_read_error h, ih, run_pure, List.map_cons]

/-! ## The file as a list -/

/-- A store in a file behaves like the plain list of the records that the file holds: none when it is
missing or blank, else those that its text says. The answers to any calls, in sessions that
each open the file anew, are those of the list, and then the file is read as what has become of the
list. This is so in a sound tree of files if the file, where there is one, can be replaced, and if
the values in the file and the records of the updates are read again when they are printed. In any case a call that fails leaves the
files as they were, and content that is not read as records fails every call. -/
theorem file_is_ordered_list (path : String) (files : FileTree)
    (opened : List (List StoreCall)) :
    let outcome := ((file path).sessions opened).run files
    (∀ records, RecordFile.read files path = .ok records ↔
      (files.readText path = .error .missing ∧ records = []) ∨
      ∃ text, files.readText path = .ok text ∧
        ((Text.isBlankText text = true ∧ records = []) ∨
          (Text.isBlankText text = false ∧ RecordFile.SaidBy text records))) ∧
    (∀ records, files.Sound → RecordFile.read files path = .ok records →
      (∀ text, files.readText path = .ok text →
        ∃ new written, RecordFile.replaceContent files path new = .ok written) →
      (∀ r ∈ records, ∀ m ∈ r.data, m.2.Readable) →
      (∀ calls ∈ opened, ∀ id record, .updateOne id record ∈ calls → record.Durable) →
      outcome.1 = ((plain.calls opened.flatten).run records).1 ∧
        RecordFile.read outcome.2 path = .ok ((plain.calls opened.flatten).run records).2) ∧
    (∀ e, RecordFile.read files path = .error e →
      (∀ answer ∈ outcome.1, answer = .error e) ∧ outcome.2 = files) ∧
    ∀ c e, (((file path).call c).run files).1 = .error e →
      (((file path).call c).run files).2 = files := by
  rw [sessions_eq_calls]
  intro outcome
  refine ⟨RecordFile.read_eq_ok_iff files path, ?_, ?_, ?_⟩
  · intro records hsound hread hwrite hreadable hupdates
    have hdurable : ∀ r ∈ records, r.Durable := fun r hr =>
      ⟨RecordFile.isNormal_of_read hread r hr, hreadable r hr⟩
    have hholds := RecordFile.holds_of_read hsound hread hwrite hdurable
    have hfits : ∀ id record, .updateOne id record ∈ opened.flatten → record.Durable := by
      intro id record hmem
      obtain ⟨calls, hcalls, hcall⟩ := List.mem_flatten.mp hmem
      exact hupdates calls hcalls id record hcall
    obtain ⟨hanswers, hafter⟩ := (file_refines_plain path).calls hfits files records hholds
    exact ⟨hanswers, hafter.read⟩
  · intro e hread
    have hfailed : outcome = _ := calls_file_of_read_error hread opened.flatten
    constructor
    · intro answer hanswer
      rw [hfailed] at hanswer
      obtain ⟨-, -, rfl⟩ := List.mem_map.mp hanswer
      rfl
    · rw [hfailed]
  · intro c e hfails
    exact call_file_of_error hfails

/-- Two records have one identifier, which the first of them loses when it is updated. Another
identifier is of no record. After that the file is opened anew. -/
theorem first_of_two_records_is_replaced :
    let first : Variable := ⟨"1", "a", "o", [("x", .num (.int 5))]⟩
    let second : Variable := ⟨"1", "b", "p", [("y", .null)]⟩
    let new : Variable := ⟨"2", "c", "p", [("z", .str "v")]⟩
    let files := RecordFile.alone [first, second]
    let opened : List (List StoreCall) :=
      [[.findOne "1", .updateOne "1" new, .updateOne "9" new], [.list (some "p"), .findOne "2"]]
    let answers : List (Except StoreError StoreAnswer) :=
      [.ok (.found (some first)), .ok .updated, .error (.recordNotFound "9"),
        .ok (.listed [new, second]), .ok (.found (some new))]
    RecordFile.read files "data/records.json" = .ok [first, second] ∧
      ∃ written, ((file "data/records.json").sessions opened).run files = (answers, written) ∧
        RecordFile.read written "data/records.json" = .ok [new, second] := by
  intro first second new files opened answers
  have hfirst : first.Durable := by
    constructor
    · simp [first, Variable.toJson, Ordered.keys]
    · simpa [first] using Json.readable_int (by decide) (by decide)
  have hsecond : second.Durable := by
    constructor
    · simp [second, Variable.toJson, Ordered.keys]
    · simpa [second] using Json.readable_null
  have hnew : new.Durable := by
    constructor
    · simp [new, Variable.toJson, Ordered.keys]
    · simpa [new] using Json.readable_str "v"
  have hdurable : ∀ r ∈ [first, second], r.Durable := by
    simpa using And.intro hfirst hsecond
  have hread := RecordFile.read_alone hdurable
  have hupdates : ∀ calls ∈ opened, ∀ id record, .updateOne id record ∈ calls → record.Durable := by
    have hnamed : ∀ id record, id = "1" ∧ record = new ∨ id = "9" ∧ record = new →
        record.Durable := by
      rintro id record (⟨-, rfl⟩ | ⟨-, rfl⟩)
      · exact hnew
      · exact hnew
    simpa [opened] using hnamed
  have hplain : (plain.calls opened.flatten).run [first, second] = (answers, [new, second]) := rfl
  obtain ⟨-, hlist, -⟩ := file_is_ordered_list _ files opened
  obtain ⟨hanswers, hafter⟩ := hlist _ (RecordFile.sound_alone _) hread
    (fun _ _ => RecordFile.replaceContent_alone _) (fun r hr => (hdurable r hr).readable) hupdates
  rw [hplain] at hanswers hafter
  generalize ((file "data/records.json").sessions opened).run files = outcome at hanswers hafter ⊢
  obtain ⟨given, written⟩ := outcome
  obtain rfl : given = answers := hanswers
  exact ⟨hread, written, rfl, hafter⟩

end RecordStore

end Stepwise
