import Stepwise.Proofs.Pool
import Stepwise.Proofs.Run.PoolWrites
import Stepwise.Proofs.Run.RecordLookup

/-!
# What a step reads of the pool

An entry of the pool can reach a step in three ways: by its key, when the step names a variable; by
the own name of the variable it holds, as the source of a form; and by its key again, when a step
of this name stores its outcome. A step that an entry reaches in none of these ways does the same
with the entry in the pool and without it.
-/

namespace Stepwise

/-! ## Pools with one more entry -/

/-- The second pool is the first one with one more entry, at any place and under a new key. -/
def Pool.Added (key : String) (entry : PoolEntry) (pool full : Pool) : Prop :=
  ∃ before after, pool = before ++ after ∧ full = before ++ (key, entry) :: after ∧
    key ∉ pool.keys

namespace Pool

variable {key : String} {entry : PoolEntry} {pool full : Pool}

/-- Storing an entry under a new key adds it. -/
theorem added_set (h : key ∉ pool.keys) : Added key entry pool (pool.set key entry) :=
  ⟨pool, [], by simp, Ordered.set_of_not_mem h entry, h⟩

section Reading

variable (h : Added key entry pool full)
include h

theorem Added.variableAt? {name : String} (hname : name ≠ key) :
    full.variableAt? name = pool.variableAt? name := by
  obtain ⟨before, after, rfl, rfl, -⟩ := h
  simp [Pool.variableAt?, Ordered.find?_append, Ordered.find?_cons, Ne.symm hname]

theorem Added.variableNamed? {name : String} (hname : ∀ v, entry = .var v → v.name ≠ name) :
    Pool.variableNamed? full name = Pool.variableNamed? pool name := by
  obtain ⟨before, after, rfl, rfl, -⟩ := h
  have hentry : Pool.variableNamed? [(key, entry)] name = none :=
    (variableNamed?_eq_none_iff _ _).mpr (by simpa [NamesNone] using hname)
  rw [← List.singleton_append, variableNamed?_append, variableNamed?_append, hentry,
    Option.or_none, variableNamed?_append]

/-- Storing an entry under another key leaves the added one in its place. -/
theorem Added.set {name : String} (hname : name ≠ key) (stored : PoolEntry) :
    Added key entry (pool.set name stored) (full.set name stored) := by
  obtain ⟨before, after, rfl, rfl, hkey⟩ := h
  have hstill : key ∉ Ordered.keys (Ordered.set (before ++ after) name stored) := by
    rw [Ordered.mem_keys_set]
    exact fun hk => hk.elim (Ne.symm hname) hkey
  by_cases hmem : name ∈ Ordered.keys before
  · exact ⟨before.set name stored, after, Ordered.set_append_of_mem hmem after stored,
      Ordered.set_append_of_mem hmem ((key, entry) :: after) stored, hstill⟩
  · refine ⟨before, after.set name stored, Ordered.set_append_of_not_mem hmem after stored,
      ?_, hstill⟩
    rw [Ordered.set_append_of_not_mem hmem, Ordered.set, if_neg (Ne.symm hname)]

end Reading

end Pool

/-! ## What steps read -/

/-- The key of the variable that an operand names. -/
def Operand.variableKeys : Operand → List String
  | .variableField f => [f.reference.key]
  | _ => []

/-- The keys of the variables that a condition names. -/
def Condition.variableKeys (c : Condition) : List String :=
  c.statements.flatMap fun s => s.lhs.variableKeys ++ s.rhs.variableKeys

/-- The key of the variable that the recipient of a message names. -/
def EmailRecipient.variableKeys (r : EmailRecipient) : List String :=
  match r.kind with
  | .literal => []
  | .ofVariable =>
      match r.variableField with
      | .ok f => [f.reference.key]
      | .error _ => []

/-- A step takes no notice of an entry under a key: it names no variable by the key, stores nothing
under it, and fills no form from a variable with the own name of the one that the entry holds. -/
def Step.Ignores (key : String) (entry : PoolEntry) : Step → Prop
  | .task h (.findRecord condition) => key ∉ condition.variableKeys ∧ h.name ≠ key
  | .task h (.sendEmail settings) =>
      key ∉ settings.email.recipient.variableKeys ∧ h.name ≠ key
  | .task h (.updateRecord settings) => settings.target.value.name ≠ key ∧ h.name ≠ key
  | .task _ (.createPdf settings) => ∀ v, entry = .var v → v.name ≠ settings.source.value
  | .task _ (.apiCall _) => True
  | .branch _ condition _ => key ∉ condition.variableKeys
  | .unknown _ _ _ => True

theorem Step.Ignores.name_ne {key : String} {entry : PoolEntry} {h : Heading} {task : Task}
    (hignores : (Step.task h task).Ignores key entry)
    (hstores : (Step.task h task).storesEntry = true) : h.name ≠ key := by
  cases task with
  | findRecord condition => exact hignores.2
  | sendEmail settings => exact hignores.2
  | updateRecord settings => exact hignores.2
  | createPdf settings => cases hstores
  | apiCall call => cases hstores

theorem Condition.variableKeys_within (c : Condition) (object : String) :
    (c.within object).variableKeys = c.variableKeys := by
  rw [variableKeys, statements_within, variableKeys]

section Reading

variable {key : String} {entry : PoolEntry} {pool full : Pool} (h : Pool.Added key entry pool full)
include h

theorem Operand.resolve_added {o : Operand} (ho : key ∉ o.variableKeys)
    (record : Option Variable) : o.resolve full record = o.resolve pool record := by
  cases o with
  | variableField f =>
      have hname : f.reference.key ≠ key := fun hkey => ho (by simp [variableKeys, hkey])
      rw [resolve, resolve, h.variableAt? hname]
  | bare v => rfl
  | literal v => rfl
  | recordField f => rfl

/-- A condition asks the same of both pools. -/
theorem Condition.question_added {c : Condition} (hc : key ∉ c.variableKeys) :
    c.question full = c.question pool := by
  have hholds : ∀ record, ∀ s ∈ c.statements, s.Holds full record ↔ s.Holds pool record := by
    intro record s hs
    have hkeys : key ∉ s.lhs.variableKeys ++ s.rhs.variableKeys := fun hkey =>
      hc (List.mem_flatMap.mpr ⟨s, hs, hkey⟩)
    rw [List.mem_append, not_or] at hkeys
    rw [Statement.Holds, Statement.Holds, Operand.resolve_added h hkeys.1,
      Operand.resolve_added h hkeys.2]
  rw [question, question]
  cases hcomparisons : Comparison.ofStatements c.statements with
  | error e => rfl
  | ok comparisons =>
      have hall : ∀ record, Comparison.allHold comparisons full record =
          Comparison.allHold comparisons pool record := by
        intro record
        rw [Bool.eq_iff_iff, Comparison.allHold_ofStatements hcomparisons,
          Comparison.allHold_ofStatements hcomparisons]
        exact forall₂_congr (hholds record)
      simp only [hall]

theorem RecordStore.answer_added {ρ : Type} (store : RecordStore ρ) {c : Condition}
    (hc : key ∉ c.variableKeys) : store.answer c full = store.answer c pool := by
  funext records
  rw [answer, answer, Condition.run_evaluate, Condition.run_evaluate, Condition.question_added h hc]

theorem EmailMessage.outgoing?_added {message : EmailMessage}
    (hm : key ∉ message.recipient.variableKeys) :
    message.outgoing? full = message.outgoing? pool := by
  have htext : recipientText? message.recipient full = recipientText? message.recipient pool := by
    rw [EmailRecipient.variableKeys] at hm
    rw [recipientText?, recipientText?]
    cases hkind : message.recipient.kind with
    | literal => rfl
    | ofVariable =>
        cases hfield : message.recipient.variableField with
        | error e => rfl
        | ok f =>
            have hname : f.reference.key ≠ key := fun hkey =>
              hm (by simp [hkind, hfield, hkey])
            simp only [h.variableAt? hname]
  rw [outgoing?, outgoing?, htext]

/-- A task other than a lookup is performed in the same way against both pools. -/
theorem Collaborators.perform_added {σ β : Type} (c : Collaborators σ β) (object : String)
    {heading : Heading} {task : Task} (hignores : (Step.task heading task).Ignores key entry)
    (htask : ∀ condition, task ≠ .findRecord condition) :
    c.perform object task full = c.perform object task pool := by
  cases task with
  | findRecord condition => exact absurd rfl (htask condition)
  | createPdf settings => rw [perform, perform, createPdf, createPdf, h.variableNamed? hignores]
  | sendEmail settings =>
      rw [perform, perform, sendEmail, sendEmail, EmailMessage.outgoing?_added h hignores.1]
  | apiCall call => rfl
  | updateRecord settings =>
      rw [perform, perform, updateRecord, updateRecord, h.variableAt? hignores.1]

end Reading

end Stepwise
