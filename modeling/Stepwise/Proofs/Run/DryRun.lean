import Mathlib.Data.List.Perm.Subperm
import Stepwise.Proofs.Run.Lockstep
import Stepwise.Proofs.Store.RecordList

/-!
# A dry run is a run on a copy

A dry run takes the list of the records in a file and runs against a table in memory that is made of
it. The table and the file refine the same list, so both runs are in step with a run on this list, as
long as the identifiers are distinct. A table holds one record for each identifier and a run never
adds one or takes one away; so with an identifier that occurs twice the two runs cannot even end
with the same records.
-/

namespace Stepwise

/-! ## Tables of records with distinct identifiers -/

namespace RecordTable

/-- Records with distinct identifiers are listed as they were given. -/
theorem lists_ofRecords {records : List Variable} (h : (records.map Variable.id).Nodup) :
    (ofRecords records).Lists records where
  sound := sound_ofRecords records
  values := by
    have hkeys : (Ordered.keys (records.map fun r => (r.id, r))).Nodup := by
      simpa [Ordered.keys, Function.comp_def] using h
    rw [ofRecords, Ordered.ofPairs_eq_self hkeys]
    simp [Ordered.values, Function.comp_def]

/-- A table of as many records as were given was given distinct identifiers. -/
theorem nodup_of_length_keys {records : List Variable}
    (h : (ofRecords records).keys.length = records.length) : (records.map Variable.id).Nodup := by
  have hdistinct : (ofRecords records).keys.Nodup := (sound_ofRecords records).distinct
  have hgiven : (ofRecords records).keys ⊆ records.map Variable.id := by
    intro key hkey
    obtain ⟨slot, hslot, rfl⟩ := List.mem_map.mp hkey
    obtain ⟨r, hr, rfl⟩ := List.mem_map.mp (Ordered.mem_of_mem_ofPairs hslot)
    exact List.mem_map_of_mem hr
  have hall : (records.map Variable.id).length ≤ (ofRecords records).keys.length := by
    rw [List.length_map, h]
  exact ((hdistinct.subperm hgiven).perm_of_length_le hall).nodup hdistinct

end RecordTable

namespace Collaborators

variable {ρ ε β : Type}

/-! ## What a run never changes -/

/-- A property of records that both calls of a store keep is kept by every run. -/
theorem run_keeps {store : RecordStore ρ} {Safe : ρ → Prop}
    (hfind : ∀ id records, Safe records → Safe ((store.findOne id).run records).2)
    (hupdate : ∀ id record records, Safe records →
      Safe ((store.updateOne id record).run records).2)
    (evaluate : Condition → Pool → ρ → StateM ε (Except EvaluationError Evaluation))
    (outside : Outside ε β) (workflow : Workflow) (pool : Pool) {s : ρ × ε} (hs : Safe s.1) :
    Safe (((withStore store evaluate outside).run workflow pool).run s).2.1 := by
  have hcalls : Corresponds (keeping fun s : ρ × ε => Safe s.1)
      (withStore store evaluate outside) (withStore store evaluate outside) := by
    refine withStore_corresponds ?_ ?_ ?_ ?_
    · intro α x s hs
      exact hs
    · intro condition pool s hs
      exact hs
    · intro id s hs
      exact hfind id s.1 hs
    · intro id record s hs
      exact hupdate id record s.1 hs
  exact hcalls.runAlike.run (fun _ _ => trivial) pool s hs

theorem keys_after_run
    (evaluate : Condition → Pool → RecordTable → StateM ε (Except EvaluationError Evaluation))
    (outside : Outside ε β) (workflow : Workflow) (pool : Pool) (table : RecordTable) (e : ε) :
    Ordered.keys (((withStore .memory evaluate outside).run workflow pool).run (table, e)).2.1 =
      table.keys := by
  refine @run_keeps _ _ _ RecordStore.memory (fun final => Ordered.keys final = table.keys) ?_ ?_
    evaluate outside workflow pool (table, e) rfl
  · intro id final hfinal
    exact hfinal
  · intro id record final hfinal
    rw [RecordStore.run_updateOne_memory]
    split
    · next hhas =>
      rw [← hfinal]
      exact Ordered.keys_set_of_mem ((Ordered.has_iff_mem_keys _ _).mp hhas) record
    · exact hfinal

theorem length_after_run
    (evaluate : Condition → Pool → List Variable → StateM ε (Except EvaluationError Evaluation))
    (outside : Outside ε β) (workflow : Workflow) (pool : Pool) (records : List Variable) (e : ε) :
    (((withStore .plain evaluate outside).run workflow pool).run (records, e)).2.1.length =
      records.length := by
  refine @run_keeps _ _ _ RecordStore.plain (fun final => final.length = records.length) ?_ ?_
    evaluate outside workflow pool (records, e) rfl
  · intro id final hfinal
    exact hfinal
  · intro id record final hfinal
    rw [RecordStore.run_updateOne_plain]
    cases final.findIdx? fun r => r.id == id with
    | none => exact hfinal
    | some place => simpa using hfinal

/-! ## The two runs -/

/-- A run over a store that refines the plain list is in step with a run over the list. -/
theorem run_eq_run_plain {store : RecordStore ρ} {R : ρ → List Variable → Prop}
    {Fits : String → Variable → Prop} (hrefines : store.Refines R Fits .plain) {N : Json → Prop}
    (hkeeps : ∀ assigned : List (String × Json), (∀ a ∈ assigned, N a.2) →
      ∀ id record, Fits id record → Fits id (record.withFields assigned))
    {workflow : Workflow} (hassigns : workflow.AssignsOnly N) (pool : Pool)
    (evaluate : Condition → Pool → (Option String → Except StoreError (List Variable)) →
      StateM ε (Except EvaluationError Evaluation))
    (outside : Outside ε β) {stored : ρ} {records : List Variable} (h : R stored records) (e : ε) :
    let c := withListing store evaluate outside
    let listed := withListing .plain evaluate outside
    let final := (c.run workflow pool).run (stored, e)
    let listedFinal := (listed.run workflow pool).run (records, e)
    final.1 = listedFinal.1 ∧ final.2.2 = listedFinal.2.2 ∧
      c.calls workflow.steps ⟨pool, (stored, e)⟩ =
        listed.calls workflow.steps ⟨pool, (records, e)⟩ ∧
      store.list none final.2.1 = .ok listedFinal.2.1 := by
  intro c listed final listedFinal
  have hstep : InStep _ _ c listed := inStep_withListing hrefines evaluate outside
  have hstart : R (stored, e).1 (records, e).1 ∧ (stored, e).2 = (records, e).2 := ⟨h, rfl⟩
  obtain ⟨hresult, ⟨hend, hstate⟩, hcalls⟩ := hstep.run hkeeps hassigns pool hstart
  have hlist : store.list none final.2.1 = RecordStore.plain.list none listedFinal.2.1 :=
    hrefines.list none _ _ hend
  exact ⟨hresult, hstate, hcalls, hlist.trans (RecordStore.list_none_plain _)⟩

/-- A dry run works on a table in memory made from the list of the records in the file, and a real
run on the file. If the identifiers of the records are distinct, both runs end with the same result,
the same pool and the same list of records, make the same calls and leave what lies outside alike.
Otherwise not even the lists at the end agree. This is so in a sound tree of files if the file, where
there is one, can be replaced, and if the values in the file and those that the workflow assigns are
read again when they are printed. -/
theorem dry_run_eq_run_on_file (path : String) (files : FileTree) (records : List Variable)
    (hsound : files.Sound) (hlist : (RecordStore.file path).list none files = .ok records)
    (hwrite : ∀ text, files.readText path = .ok text →
      ∃ new written, RecordFile.replaceContent files path new = .ok written)
    (hreadable : ∀ r ∈ records, ∀ m ∈ r.data, m.2.Readable) (workflow : Workflow)
    (hassigns : workflow.AssignsOnly fun v => v.IsNormal ∧ v.Readable) (pool : Pool)
    (evaluate : Condition → Pool → (Option String → Except StoreError (List Variable)) →
      StateM ε (Except EvaluationError Evaluation))
    (outside : Outside ε β) (e : ε) :
    let dry := withListing .memory evaluate outside
    let real := withListing (.file path) evaluate outside
    let table := RecordTable.ofRecords records
    let dryEnd := (dry.run workflow pool).run (table, e)
    let realEnd := (real.run workflow pool).run (files, e)
    let dryList := RecordStore.memory.list none dryEnd.2.1
    let realList := (RecordStore.file path).list none realEnd.2.1
    ((records.map Variable.id).Nodup →
      dryEnd.1 = realEnd.1 ∧ dryEnd.2.2 = realEnd.2.2 ∧ dryList = realList ∧
        dry.calls workflow.steps ⟨pool, (table, e)⟩ =
          real.calls workflow.steps ⟨pool, (files, e)⟩) ∧
    (dryList = realList → (records.map Variable.id).Nodup) := by
  intro dry real table dryEnd realEnd dryList realList
  have hread : RecordFile.read files path = .ok records :=
    (RecordStore.list_none_file path files).symm.trans hlist
  have hdurable : ∀ r ∈ records, r.Durable := fun r hr =>
    ⟨RecordFile.isNormal_of_read hread r hr, hreadable r hr⟩
  have hholds := RecordFile.holds_of_read hsound hread hwrite hdurable
  obtain ⟨hresult, hstate, hcalls, hfinal⟩ := run_eq_run_plain (RecordStore.file_refines_plain path)
    (fun assigned hassigned _ record hrecord => hrecord.withFields hassigned) hassigns pool evaluate
    outside hholds e
  constructor
  · intro hdistinct
    have hlists := RecordTable.lists_ofRecords hdistinct
    obtain ⟨hdryResult, hdryState, hdryCalls, hdryFinal⟩ := run_eq_run_plain
      RecordStore.memory_refines_plain (fun _ _ _ _ hid => hid) hassigns pool evaluate outside
      hlists e
    exact ⟨hdryResult.trans hresult.symm, hdryState.trans hstate.symm,
      hdryFinal.trans hfinal.symm, hdryCalls.trans hcalls.symm⟩
  · intro hsame
    have hvalues : dryEnd.2.1.values = _ := Except.ok.inj (hsame.trans hfinal)
    have hlength : dryEnd.2.1.keys.length = records.length := by
      rw [Ordered.keys, List.length_map, ← List.length_map Prod.snd]
      exact (congrArg List.length hvalues).trans (length_after_run _ outside workflow pool records e)
    have hkeys : dryEnd.2.1.keys = table.keys := keys_after_run _ outside workflow pool table e
    rw [hkeys] at hlength
    exact RecordTable.nodup_of_length_keys hlength

/-- A run on a file looks up a record, assigns a field to it, and looks it up again by this field. -/
theorem run_on_file_finds_what_it_wrote :
    let first : Variable := ⟨"1", "a", "o", [("k", .str "x")]⟩
    let second : Variable := ⟨"2", "b", "o", [("k", .str "y")]⟩
    let changed : Variable := ⟨"2", "b", "o", [("k", .str "z")]⟩
    let lookup := fun name value => Step.task ⟨name, name, ""⟩
      (.findRecord ⟨none, [⟨.recordField "k", "==", .bare (.str value)⟩]⟩)
    let update : UpdateRecord := ⟨⟨none, ⟨"old", none⟩⟩, [⟨"k", .str "z"⟩]⟩
    let workflow : Workflow := ⟨"w", none, none,
      [lookup "old" "y", .task ⟨"update", "update", ""⟩ (.updateRecord update), lookup "new" "z"]⟩
    let pool : Pool := [("old", .var second), ("update", .var changed), ("new", .var changed)]
    ∃ written, ((searching (.file "data/records.json") .idle).run workflow []).run
        (RecordFile.alone [first, second], ()) = ((.completed, pool), (written, ())) ∧
      (RecordStore.file "data/records.json").list none written = .ok [first, changed] := by
  intro first second changed lookup update workflow pool
  have hdurable : ∀ r ∈ [first, second], r.Durable := by
    have hnormal : ∀ r ∈ [first, second], r.toJson.IsNormal := by
      simp [first, second, Variable.toJson, Ordered.keys]
    have hreadable : ∀ r ∈ [first, second], ∀ m ∈ r.data, m.2.Readable := by
      simp [first, second, Json.readable_str]
    exact fun r hr => ⟨hnormal r hr, hreadable r hr⟩
  have hassigns : workflow.AssignsOnly fun v => v.IsNormal ∧ v.Readable := by
    simp [workflow, lookup, update, Workflow.AssignsOnly, Workflow.outline, Step.outlineAll,
      Step.outline, Step.AssignsOnly, UpdateRecord.assignments, Json.readable_str]
  have hlist := (RecordStore.list_none_file _ _).trans (RecordFile.read_alone hdurable)
  have hdistinct : ([first, second].map Variable.id).Nodup := by decide
  obtain ⟨hsame, -⟩ := dry_run_eq_run_on_file "data/records.json" _ _ (RecordFile.sound_alone _)
    hlist (fun _ _ => RecordFile.replaceContent_alone _) (fun r hr => (hdurable r hr).readable)
    workflow hassigns [] (fun condition pool list => pure (condition.answer pool list)) .idle ()
  obtain ⟨hresult, hstate, hfinal, -⟩ := hsame hdistinct
  rw [← searching_eq_withListing, ← searching_eq_withListing] at hresult hstate hfinal
  have hdry : ((searching .memory .idle).run workflow []).run
      (RecordTable.ofRecords [first, second], ()) =
    ((.completed, pool), (RecordTable.ofRecords [first, changed], ())) := rfl
  rw [hdry] at hresult hstate hfinal
  generalize ((searching (.file "data/records.json") .idle).run workflow []).run
    (RecordFile.alone [first, second], ()) = final at hresult hstate hfinal ⊢
  obtain ⟨given, written, nothing⟩ := final
  obtain rfl : (.completed, pool) = given := hresult
  exact ⟨written, rfl, hfinal.symm⟩

/-- Of two records with one identifier a dry run knows the second one alone, so that it misses the
first one, which a real run finds. -/
theorem dry_run_misses_first_of_two :
    let first : Variable := ⟨"1", "a", "o", [("k", .str "x")]⟩
    let second : Variable := ⟨"1", "b", "o", [("k", .str "y")]⟩
    let files := RecordFile.alone [first, second]
    let workflow : Workflow := ⟨"w", none, none, [.task ⟨"find", "found", ""⟩
      (.findRecord ⟨none, [⟨.recordField "k", "==", .bare (.str "x")⟩]⟩)]⟩
    let dryPool : Pool := [("found", .failed)]
    let realPool : Pool := [("found", .var first)]
    (RecordStore.file "data/records.json").list none files = .ok [first, second] ∧
      dryPool ≠ realPool ∧ ∃ table written,
        ((searching .memory .idle).run workflow []).run
          (RecordTable.ofRecords [first, second], ()) = ((.completed, dryPool), (table, ())) ∧
        ((searching (.file "data/records.json") .idle).run workflow []).run (files, ()) =
          ((.completed, realPool), (written, ())) ∧
        RecordStore.memory.list none table = .ok [second] ∧
        (RecordStore.file "data/records.json").list none written = .ok [first, second] := by
  intro first second files workflow dryPool realPool
  have hdurable : ∀ r ∈ [first, second], r.Durable := by
    have hnormal : ∀ r ∈ [first, second], r.toJson.IsNormal := by
      simp [first, second, Variable.toJson, Ordered.keys]
    have hreadable : ∀ r ∈ [first, second], ∀ m ∈ r.data, m.2.Readable := by
      simp [first, second, Json.readable_str]
    exact fun r hr => ⟨hnormal r hr, hreadable r hr⟩
  have hread := RecordFile.read_alone hdurable
  have hholds := RecordFile.holds_of_read (RecordFile.sound_alone _) hread
    (fun _ _ => RecordFile.replaceContent_alone _) hdurable
  have hassigns : workflow.AssignsOnly fun v => v.IsNormal ∧ v.Readable := by
    simp [workflow, Workflow.AssignsOnly, Workflow.outline, Step.outlineAll, Step.outline,
      Step.AssignsOnly]
  obtain ⟨hresult, -, -, hfinal⟩ := run_eq_run_plain
    (RecordStore.file_refines_plain "data/records.json")
    (fun assigned hassigned _ record hrecord => hrecord.withFields hassigned) hassigns []
    (fun condition pool list => pure (condition.answer pool list)) .idle hholds ()
  rw [← searching_eq_withListing, ← searching_eq_withListing] at hresult hfinal
  have hplain : ((searching .plain .idle).run workflow []).run ([first, second], ()) =
    ((.completed, realPool), ([first, second], ())) := rfl
  rw [hplain] at hresult hfinal
  generalize ((searching (.file "data/records.json") .idle).run workflow []).run (files, ()) =
    final at hresult hfinal ⊢
  obtain ⟨given, written, nothing⟩ := final
  obtain rfl : given = (.completed, realPool) := hresult
  have hlist := (RecordStore.list_none_file _ _).trans hread
  have hpools : dryPool ≠ realPool := by simp [dryPool, realPool]
  exact ⟨hlist, hpools, [("1", second)], written, rfl, rfl, rfl, hfinal⟩

end Collaborators

end Stepwise
