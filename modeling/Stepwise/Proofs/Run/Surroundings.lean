import Stepwise.Proofs.Run.Correspondence
import Stepwise.Proofs.Run.Moment
import Stepwise.Store.RecordFile

/-!
# Records and what lies outside

Collaborators put together from three parts: a store of records, an evaluation of conditions, and
all that lies outside, which is the mailer, the client of APIs, the forms and the clock. The
records change through the store alone; the evaluation may look at them. The evaluation that
searches the records asks the store for them and leaves them as they are.
-/

namespace Stepwise

/-- A store of records with its state in `ρ`. A list of records is read off the state. -/
structure RecordStore (ρ : Type) where
  findOne : String → StateM ρ (Except StoreError (Option Variable))
  updateOne : String → Variable → StateM ρ (Except StoreError Unit)
  list : Option String → ρ → Except StoreError (List Variable)

/-- The mailer, the client of APIs, the forms and the clock, with their state in `ε` and saved
forms in `β`. -/
structure Outside (ε β : Type) where
  send : OutgoingEmail → StateM ε (Except MailError Unit)
  request : HttpRequest → StateM ε (Except HttpError HttpResponse)
  openForm : String → StateM ε (Except FormError Unit)
  setTextField : String → String → StateM ε (Except FormError Unit)
  flatten : StateM ε (Except FormError Unit)
  save : StateM ε (Except FormError β)
  store : String → β → StateM ε (Except FormError Unit)
  stamp : StateM ε String

/-- Messages are sent and forms are saved without further ado, and no request is answered. -/
def Outside.idle : Outside Unit Unit where
  send _ := pure (.ok ())
  request _ := pure (.error (.timeout ""))
  openForm _ := pure (.ok ())
  setTextField _ _ := pure (.ok ())
  flatten := pure (.ok ())
  save := pure (.ok ())
  store _ _ := pure (.ok ())
  stamp := pure "0"

/-- A computation on the records, beside which the rest stays as it is. -/
def onRecords {ρ ε α : Type} (x : StateM ρ α) : StateM (ρ × ε) α := fun s =>
  ((x.run s.1).1, ((x.run s.1).2, s.2))

/-- A computation outside, beside which the records stay as they are. -/
def onOutside {ρ ε α : Type} (x : StateM ε α) : StateM (ρ × ε) α := fun s =>
  ((x.run s.2).1, (s.1, (x.run s.2).2))

namespace RecordStore

variable {ρ : Type} (store : RecordStore ρ)

/-- The records of a collection, or all of them. -/
def listing (object : Option String) : StateM ρ (Except StoreError (List Variable)) := do
  return store.list object (← get)

/-- The answer to a condition that is searched for in the store. -/
def answer (condition : Condition) (pool : Pool) (records : ρ) :
    Except EvaluationError Evaluation :=
  ((condition.evaluate store.listing pool).run records).1

/-- Searching for the answer to a condition leaves the records as they are. -/
theorem evaluate_listing (condition : Condition) (pool : Pool) (records : ρ) :
    (condition.evaluate store.listing pool).run records =
      (store.answer condition pool records, records) := by
  have hstate : ((condition.evaluate store.listing pool).run records).2 = records := by
    unfold Condition.evaluate
    split
    · rfl
    · rfl
    · rename_i object test _
      have hlist : (store.listing object).run records =
        (store.list object records, records) := rfl
      rw [run_bind, hlist]
      cases store.list object records <;> rfl
  exact Prod.ext rfl hstate

/-- Records in memory. -/
def memory : RecordStore RecordTable where
  findOne id := do return .ok ((← get).find? id)
  updateOne id record := do
    match (← get).update id record with
    | .error e => return .error e
    | .ok table => do
        set table
        return .ok ()
  list object table := .ok (table.list object)

/-- Records in the file at a path, among the files that a program sees. -/
def file (path : String) : RecordStore FileTree where
  findOne id := do
    return (RecordFile.read (← get) path).map fun records => RecordFile.findOne records id
  updateOne id record := do
    match RecordFile.update (← get) path id record with
    | .error e => return .error e
    | .ok files => do
        set files
        return .ok ()
  list object files :=
    (RecordFile.read files path).map (RecordTable.list.inCollection object)

/-- An update in memory replaces a record that is stored, and fails without one. -/
theorem run_updateOne_memory (id : String) (record : Variable) (table : RecordTable) :
    (memory.updateOne id record).run table =
      if table.has id then (.ok (), table.set id record)
      else (.error (.recordNotFound id), table) := by
  have hget : (get : StateM RecordTable RecordTable).run table = (table, table) := rfl
  simp only [memory, run_bind, hget, RecordTable.update]
  by_cases hid : table.has id = true
  · simp only [if_pos hid]
    rfl
  · simp only [if_neg hid]
    rfl

/-- An update in a file leaves the files that it writes, and the old files when it fails. -/
theorem run_updateOne_file (path id : String) (record : Variable) (files : FileTree) :
    ((file path).updateOne id record).run files =
      match RecordFile.update files path id record with
      | .error e => (.error e, files)
      | .ok written => (.ok (), written) := by
  have hget : (get : StateM FileTree FileTree).run files = (files, files) := rfl
  simp only [file, run_bind, hget]
  cases RecordFile.update files path id record with
  | error e => rfl
  | ok written => rfl

end RecordStore

namespace Collaborators

variable {ρ ε β : Type}

/-- Collaborators over a store of records, with a way to evaluate conditions. -/
def overStore (store : RecordStore ρ)
    (evaluate : Condition → Pool → StateM (ρ × ε) (Except EvaluationError Evaluation))
    (outside : Outside ε β) : Collaborators (ρ × ε) β where
  evaluate := evaluate
  findOne id := onRecords (store.findOne id)
  updateOne id record := onRecords (store.updateOne id record)
  send email := onOutside (outside.send email)
  request request := onOutside (outside.request request)
  openForm path := onOutside (outside.openForm path)
  setTextField name text := onOutside (outside.setTextField name text)
  flatten := onOutside outside.flatten
  save := onOutside outside.save
  store name saved := onOutside (outside.store name saved)
  stamp := onOutside outside.stamp

/-- Collaborators over a store of records. Conditions are evaluated outside, with a view to the
records. -/
def withStore (store : RecordStore ρ)
    (evaluate : Condition → Pool → ρ → StateM ε (Except EvaluationError Evaluation))
    (outside : Outside ε β) : Collaborators (ρ × ε) β :=
  overStore store (fun condition pool s => onOutside (evaluate condition pool s.1) s) outside

/-- Collaborators over two stores correspond, if what happens outside does, the answers to conditions
and the two calls to the stores. -/
theorem withStore_corresponds {τ : Type} {K : Correspondence (ρ × ε) (τ × ε)}
    {store : RecordStore ρ} {spec : RecordStore τ}
    {evaluate : Condition → Pool → ρ → StateM ε (Except EvaluationError Evaluation)}
    {judge : Condition → Pool → τ → StateM ε (Except EvaluationError Evaluation)}
    {outside : Outside ε β}
    (houtside : ∀ {α : Type} (x : StateM ε α), K.Holds (onOutside x) (onOutside x))
    (hevaluate : ∀ condition pool,
      K.Holds ((withStore store evaluate outside).evaluate condition pool)
        ((withStore spec judge outside).evaluate condition pool))
    (hfind : ∀ id, K.Holds (onRecords (store.findOne id)) (onRecords (spec.findOne id)))
    (hupdate : ∀ id record,
      K.Holds (onRecords (store.updateOne id record)) (onRecords (spec.updateOne id record))) :
    Corresponds K (withStore store evaluate outside) (withStore spec judge outside) where
  evaluate := hevaluate
  findOne := hfind
  updateOne := hupdate
  send email := houtside (outside.send email)
  request request := houtside (outside.request request)
  openForm path := houtside (outside.openForm path)
  setTextField name text := houtside (outside.setTextField name text)
  flatten := houtside outside.flatten
  save := houtside outside.save
  store name saved := houtside (outside.store name saved)
  stamp := houtside outside.stamp

/-- Collaborators whose conditions are searched for in the store. -/
def searching (store : RecordStore ρ) (outside : Outside ε β) : Collaborators (ρ × ε) β :=
  overStore store (fun condition pool => onRecords (condition.evaluate store.listing pool)) outside

/-- A search answers a condition, and everything stays as it is. -/
theorem searching_evaluate (store : RecordStore ρ) (outside : Outside ε β)
    (condition : Condition) (pool : Pool) (s : ρ × ε) :
    ((searching store outside).evaluate condition pool).run s =
      (store.answer condition pool s.1, s) := by
  change onRecords (condition.evaluate store.listing pool) s = _
  rw [onRecords, RecordStore.evaluate_listing]

theorem searching_eq_withStore (store : RecordStore ρ) (outside : Outside ε β) :
    searching store outside =
      withStore store (fun condition pool records => pure (store.answer condition pool records))
        outside := by
  have hevaluate : (searching store outside).evaluate = fun condition pool s =>
      (store.answer condition pool s.1, s) := by
    funext condition pool s
    exact searching_evaluate store outside condition pool s
  exact congrArg (overStore store · outside) hevaluate

end Collaborators

end Stepwise
