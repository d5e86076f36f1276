import Stepwise.Condition.Evaluate

/-!
# Laws of conditions

What it is for an operator to be known, for a statement to hold, and for a condition to be
satisfied, said without the order in which a condition is worked through. A condition with an
unknown operator has no question; the error names the first such operator. Otherwise its question
is settled by the pool, or it asks for a record, and then it has the statements as its test.
-/

namespace Stepwise

namespace Operator

/-- Whether a text without the white space around it is a spelling of some operator. -/
def IsKnown (text : String) : Prop := ∃ operator : Operator, Text.trim text ∈ operator.spellings

theorem mem_all (operator : Operator) : operator ∈ all := by
  cases operator <;> decide

/-- No two operators share a spelling. -/
theorem eq_of_mem_spellings : ∀ a ∈ all, ∀ b ∈ all, ∀ text ∈ a.spellings,
    text ∈ b.spellings → a = b := by
  decide

/-- The operator of a text is the one that has it as a spelling. -/
theorem ofText?_eq_some_iff (text : String) (operator : Operator) :
    ofText? text = some operator ↔ Text.trim text ∈ operator.spellings := by
  constructor
  · intro h
    simpa using List.find?_some h
  · intro h
    cases hfound : ofText? text with
    | none =>
        have hno := List.find?_eq_none.mp hfound operator (mem_all operator)
        exact absurd (decide_eq_true h) hno
    | some other =>
        have hother : Text.trim text ∈ other.spellings := by simpa using List.find?_some hfound
        rw [eq_of_mem_spellings other (mem_all other) operator (mem_all operator) _ hother h]

theorem ofText?_eq_none_iff (text : String) : ofText? text = none ↔ ¬IsKnown text := by
  constructor
  · rintro h ⟨operator, hspelled⟩
    rw [(ofText?_eq_some_iff text operator).mpr hspelled] at h
    cases h
  · intro h
    cases hfound : ofText? text with
    | none => rfl
    | some operator => exact absurd ⟨operator, (ofText?_eq_some_iff text operator).mp hfound⟩ h

end Operator

/-- Whether a statement holds for a pool and, perhaps, a record. -/
def Statement.Holds (pool : Pool) (record : Option Variable) (s : Statement) : Prop :=
  ∃ operator : Operator, Text.trim s.operator ∈ operator.spellings ∧
    operator.holds (s.lhs.resolve pool record) (s.rhs.resolve pool record) = true

/-- A statement with a known operator holds when this operator does. -/
theorem Statement.holds_iff {s : Statement} {operator : Operator}
    (h : Operator.ofText? s.operator = some operator) (pool : Pool) (record : Option Variable) :
    s.Holds pool record ↔
      operator.holds (s.lhs.resolve pool record) (s.rhs.resolve pool record) = true := by
  constructor
  · rintro ⟨other, hspelled, hholds⟩
    have hother := (Operator.ofText?_eq_some_iff _ _).mpr hspelled
    rw [h] at hother
    obtain rfl := Option.some.inj hother
    exact hholds
  · exact fun hholds => ⟨operator, (Operator.ofText?_eq_some_iff _ _).mp h, hholds⟩

/-- Whether an operand of a statement is a field of the record that is being matched. -/
def Statement.NamesRecordField (s : Statement) : Prop :=
  ∃ field, s.lhs = .recordField field ∨ s.rhs = .recordField field

namespace Condition

/-- Whether every statement holds. -/
def Satisfied (c : Condition) (pool : Pool) (record : Option Variable) : Prop :=
  ∀ s ∈ c.statements, s.Holds pool record

/-- Whether every operator is known. -/
def IsWellSpelled (c : Condition) : Prop := ∀ s ∈ c.statements, Operator.IsKnown s.operator

/-- Whether some statement is about a field of the record that is being matched. -/
def NamesRecordField (c : Condition) : Prop := ∃ s ∈ c.statements, s.NamesRecordField

end Condition

theorem Operand.isRecordField_iff (o : Operand) :
    o.isRecordField = true ↔ ∃ field, o = .recordField field := by
  cases o <;> simp [isRecordField]

theorem Condition.readsRecords_iff (c : Condition) :
    c.readsRecords = true ↔ c.NamesRecordField := by
  simp only [readsRecords, NamesRecordField, List.any_eq_true, Statement.readsRecord,
    Statement.NamesRecordField, Bool.or_eq_true, Operand.isRecordField_iff, exists_or]

namespace Comparison

/-- The comparisons of statements fail with the first operator that is not known. -/
theorem ofStatements_eq_error_iff (statements : List Statement) (e : EvaluationError) :
    ofStatements statements = .error e ↔
      ∃ before s after, statements = before ++ s :: after ∧
        (∀ t ∈ before, Operator.IsKnown t.operator) ∧ ¬Operator.IsKnown s.operator ∧
        e = .unsupportedOperator (Text.trim s.operator) := by
  induction statements with
  | nil => simp [ofStatements]
  | cons s rest ih =>
      rw [ofStatements]
      cases hs : Operator.ofText? s.operator with
      | none =>
          have hunknown := (Operator.ofText?_eq_none_iff s.operator).mp hs
          constructor
          · intro h
            exact ⟨[], s, rest, rfl, nofun, hunknown, (Except.error.inj h).symm⟩
          · rintro ⟨before, t, after, hsplit, hknown, -, rfl⟩
            cases before with
            | nil => rw [(List.cons.inj hsplit).1]
            | cons first others =>
                rw [(List.cons.inj hsplit).1] at hunknown
                exact absurd (hknown first List.mem_cons_self) hunknown
      | some operator =>
          have hknown : Operator.IsKnown s.operator :=
            ⟨operator, (Operator.ofText?_eq_some_iff _ _).mp hs⟩
          have hrest : (ofStatements rest).map (⟨s.lhs, operator, s.rhs⟩ :: ·) = .error e ↔
              ofStatements rest = .error e := by
            cases ofStatements rest <;> simp [Except.map]
          rw [hrest, ih]
          constructor
          · rintro ⟨before, t, after, rfl, hbefore, hunknown⟩
            exact ⟨s :: before, t, after, rfl, List.forall_mem_cons.mpr ⟨hknown, hbefore⟩, hunknown⟩
          · rintro ⟨before, t, after, hsplit, hbefore, hunknown, rfl⟩
            cases before with
            | nil =>
                rw [(List.cons.inj hsplit).1] at hknown
                exact absurd hknown hunknown
            | cons first others =>
                exact ⟨others, t, after, (List.cons.inj hsplit).2,
                  (List.forall_mem_cons.mp hbefore).2, hunknown, rfl⟩

theorem isKnown_of_ofStatements {statements : List Statement} {comparisons : List Comparison}
    (h : ofStatements statements = .ok comparisons) :
    ∀ s ∈ statements, Operator.IsKnown s.operator := by
  induction statements generalizing comparisons with
  | nil => nofun
  | cons s rest ih =>
      rw [ofStatements] at h
      cases hs : Operator.ofText? s.operator with
      | none =>
          rw [hs] at h
          cases h
      | some operator =>
          cases hrest : ofStatements rest with
          | error e =>
              rw [hs, hrest] at h
              cases h
          | ok others =>
              exact List.forall_mem_cons.mpr
                ⟨⟨operator, (Operator.ofText?_eq_some_iff _ _).mp hs⟩, ih hrest⟩

/-- The comparisons of statements hold just when the statements do. -/
theorem allHold_ofStatements {statements : List Statement} {comparisons : List Comparison}
    (h : ofStatements statements = .ok comparisons) (pool : Pool) (record : Option Variable) :
    allHold comparisons pool record = true ↔ ∀ s ∈ statements, s.Holds pool record := by
  induction statements generalizing comparisons with
  | nil =>
      rw [← Except.ok.inj h]
      simp [allHold]
  | cons s rest ih =>
      rw [ofStatements] at h
      cases hs : Operator.ofText? s.operator with
      | none =>
          rw [hs] at h
          cases h
      | some operator =>
          cases hrest : ofStatements rest with
          | error e =>
              rw [hs, hrest] at h
              cases h
          | ok others =>
              rw [hs, hrest] at h
              obtain rfl : ⟨s.lhs, operator, s.rhs⟩ :: others = comparisons := Except.ok.inj h
              have hfirst : holds pool record ⟨s.lhs, operator, s.rhs⟩ = true ↔
                  s.Holds pool record := (Statement.holds_iff hs pool record).symm
              have hothers := ih hrest
              rw [allHold] at hothers ⊢
              rw [List.all_cons, Bool.and_eq_true, hfirst, hothers, List.forall_mem_cons]

end Comparison

namespace Condition

/-- A condition with an unknown operator has no question, and the first such operator is named. -/
theorem question_eq_error_iff (c : Condition) (pool : Pool) (e : EvaluationError) :
    c.question pool = .error e ↔
      ∃ before s after, c.statements = before ++ s :: after ∧
        (∀ t ∈ before, Operator.IsKnown t.operator) ∧ ¬Operator.IsKnown s.operator ∧
        e = .unsupportedOperator (Text.trim s.operator) := by
  rw [← Comparison.ofStatements_eq_error_iff, question]
  cases Comparison.ofStatements c.statements with
  | error e' => exact ⟨fun h => by rw [Except.error.inj h], fun h => by rw [Except.error.inj h]⟩
  | ok comparisons =>
      constructor
      · intro h
        by_cases hreads : c.readsRecords = true <;> simp [hreads] at h
      · exact nofun

theorem exists_question_eq_error_iff (c : Condition) (pool : Pool) :
    (∃ e, c.question pool = .error e) ↔ ¬c.IsWellSpelled := by
  constructor
  · rintro ⟨e, he⟩ hknown
    obtain ⟨before, s, after, hsplit, -, hunknown, -⟩ := (c.question_eq_error_iff pool e).mp he
    exact hunknown (hknown s (by simp [hsplit]))
  · intro hunknown
    cases hc : Comparison.ofStatements c.statements with
    | error e => exact ⟨e, by rw [question, hc]⟩
    | ok comparisons => exact absurd (Comparison.isKnown_of_ofStatements hc) hunknown

/-- A condition whose operators are known asks for a record that satisfies it if it names a field
of one, and is settled by the pool otherwise. -/
theorem question_of_wellSpelled {c : Condition} (h : c.IsWellSpelled) (pool : Pool) :
    (c.NamesRecordField → ∃ test, c.question pool = .ok (.firstRecord c.object test) ∧
      ∀ r, test r = true ↔ c.Satisfied pool (some r)) ∧
    (¬c.NamesRecordField → ∃ holds, c.question pool = .ok (.settled holds) ∧
      (holds = true ↔ c.Satisfied pool none)) := by
  cases hc : Comparison.ofStatements c.statements with
  | error e =>
      obtain ⟨before, s, after, hsplit, -, hunknown, -⟩ :=
        (Comparison.ofStatements_eq_error_iff _ _).mp hc
      exact absurd (h s (by simp [hsplit])) hunknown
  | ok comparisons =>
      have hall := Comparison.allHold_ofStatements hc pool
      constructor
      · intro hnames
        refine ⟨fun v => Comparison.allHold comparisons pool (some v), ?_, fun r => hall (some r)⟩
        simp only [question, hc, c.readsRecords_iff.mpr hnames, if_true]
      · intro hnames
        have hreads : c.readsRecords = false :=
          Bool.eq_false_iff.mpr fun hreads => hnames (c.readsRecords_iff.mp hreads)
        refine ⟨Comparison.allHold comparisons pool none, ?_, hall none⟩
        simp [question, hc, hreads]

end Condition

end Stepwise
