import Mathlib.Logic.Function.Basic
import Stepwise.Proofs.Run.Lockstep
import Stepwise.Proofs.Run.Update
import Stepwise.Proofs.Store.RecordList

/-!
# Updates that overlap

Runs that share a store take turns at its calls, and an update makes two: it reads a record, and it
writes back the copy that it read with its assignments. Which assignments the stored record has then
depends on the turns alone. They are kept in a ledger, a list of assignments in the place of every
record: a read copies the list that is stored, and a write stores the copy with further assignments.
What was written between the read and the write of another update is lost.
-/

namespace Stepwise

/-! ## The record under an identifier -/

/-- In some states a store shows a record under an identifier: it is found there, and another one that
fits takes its place. -/
structure RecordStore.Keeps {ρ : Type} (store : RecordStore ρ) (id : String)
    (Shows : ρ → Variable → Prop) (Fit : Variable → Prop) : Prop where
  findOne : ∀ records record, Shows records record →
    ∃ left, (store.findOne id).run records = (.ok (some record), left) ∧ Shows left record
  updateOne : ∀ records record new, Shows records record → Fit new →
    ∃ written, (store.updateOne id new).run records = (.ok (), written) ∧ Shows written new
  fit : ∀ records record, Shows records record → Fit record

namespace RecordStore

variable {ρ : Type}

/-- In memory any record is kept, under whatever identifier. -/
theorem memory_keeps (id : String) :
    memory.Keeps id (fun table record => table.find? id = some record) fun _ => True where
  findOne table record h := by
    have hrun : (memory.findOne id).run table = (.ok (table.find? id), table) := rfl
    exact ⟨table, by rw [hrun, h], h⟩
  updateOne table record new h _ := by
    have hhas : table.has id = true := by
      rw [Ordered.has, h]
      rfl
    refine ⟨table.set id new, ?_, Ordered.find?_set_self table id new⟩
    rw [run_updateOne_memory, if_pos hhas]
  fit _ _ _ := trivial

/-- A record that takes the place of the first one with its identifier is the first one. -/
theorem find?_set_of_findIdx? {id : String} {new : Variable} (hid : new.id = id)
    {records : List Variable} {place : Nat}
    (h : records.findIdx? (fun r => r.id == id) = some place) :
    (records.set place new).find? (fun r => r.id == id) = some new := by
  induction records generalizing place with
  | nil => cases h
  | cons r rest ih =>
      rw [List.findIdx?_cons] at h
      by_cases hr : (r.id == id) = true
      · rw [if_pos hr] at h
        obtain rfl : 0 = place := Option.some.inj h
        simp [hid]
      · rw [if_neg hr] at h
        obtain ⟨before, hbefore, rfl⟩ := Option.map_eq_some_iff.mp h
        rw [List.set_cons_succ, List.find?_cons, Bool.eq_false_iff.mpr hr]
        exact ih hbefore

/-- In a list a record is kept under its own identifier. -/
theorem plain_keeps (id : String) :
    plain.Keeps id (fun records record => records.find? (fun r => r.id == id) = some record)
      fun record => record.id = id where
  findOne records record h := ⟨records, by rw [run_findOne_plain, h], h⟩
  updateOne records record new h hid := by
    rw [run_updateOne_plain]
    cases hplace : records.findIdx? fun r => r.id == id with
    | none =>
        rw [List.findIdx?_eq_none_iff] at hplace
        have hnone := hplace record (List.mem_of_find?_eq_some h)
        have hfound := List.find?_some h
        rw [hnone] at hfound
        cases hfound
    | some place => exact ⟨_, rfl, find?_set_of_findIdx? hid hplace⟩
  fit records record h := by simpa using List.find?_some h

/-- A store that refines another one keeps what that one keeps. -/
theorem Refines.keeps {τ : Type} {R : ρ → τ → Prop} {Fits : String → Variable → Prop}
    {store : RecordStore ρ} {spec : RecordStore τ} (h : store.Refines R Fits spec) {id : String}
    {Shows : τ → Variable → Prop} {Fit : Variable → Prop} (hspec : spec.Keeps id Shows Fit) :
    store.Keeps id (fun s record => ∃ t, R s t ∧ Shows t record)
      fun record => Fit record ∧ Fits id record where
  findOne s record := by
    rintro ⟨t, hst, hshows⟩
    obtain ⟨left, hrun, hleft⟩ := hspec.findOne t record hshows
    obtain ⟨hanswer, hnext⟩ := h.findOne id s t hst
    rw [hrun] at hanswer hnext
    exact ⟨_, Prod.ext hanswer rfl, left, hnext, hleft⟩
  updateOne s record new := by
    rintro ⟨t, hst, hshows⟩ ⟨hfit, hfits⟩
    obtain ⟨written, hrun, hwritten⟩ := hspec.updateOne t record new hshows hfit
    obtain ⟨hanswer, hnext⟩ := h.updateOne id new hfits s t hst
    rw [hrun] at hanswer hnext
    exact ⟨_, Prod.ext hanswer rfl, written, hnext, hwritten⟩
  fit s record := by
    rintro ⟨t, hst, hshows⟩
    obtain ⟨left, hrun, -⟩ := hspec.findOne t record hshows
    obtain ⟨hanswer, -⟩ := h.findOne id s t hst
    rw [hrun] at hanswer
    exact ⟨hspec.fit t record hshows, h.found id s t record hst hanswer⟩

end RecordStore

/-! ## Turns -/

/-- An update that a run comes to: its settings, and the pool in which it looks its target up. -/
structure PendingUpdate where
  settings : UpdateRecord
  pool : Pool

namespace PendingUpdate

/-- The target of the update is a variable with an identifier. -/
def Targets (update : PendingUpdate) (id : String) : Prop :=
  ∃ target, update.pool.variableAt? update.settings.target.value.name = some target ∧
    target.id = id

end PendingUpdate

namespace Collaborators

variable {σ β ι : Type} [DecidableEq ι] (c : Collaborators σ β)

/-- The next call of an update. -/
def turn (update : PendingUpdate) (phase : UpdatePhase) : StateM σ UpdatePhase :=
  match update.pool.variableAt? update.settings.target.value.name with
  | none => pure (.ended .failed)
  | some target => c.advance update.settings target.id phase

/-- Two turns without another one between them are the update. -/
theorem updateRecord_eq_turns (update : PendingUpdate) :
    c.updateRecord update.settings update.pool = do
      let read ← c.turn update .unread
      let written ← c.turn update read
      return written.outcome := by
  rw [updateRecord_eq_advance]
  simp only [turn]
  cases update.pool.variableAt? update.settings.target.value.name with
  | none => rfl
  | some target => rfl

/-- Updates of several runs that take turns in an order, each from its phase. -/
def takeTurns (updates : ι → PendingUpdate) :
    List ι → (ι → UpdatePhase) → StateM σ (ι → UpdatePhase)
  | [], phases => return phases
  | side :: rest, phases => do
      let phase ← c.turn (updates side) (phases side)
      takeTurns updates rest (Function.update phases side phase)

/-- Updates that do not overlap are one update after the other. -/
theorem takeTurns_apart (updates : ι → PendingUpdate) {first second : ι} (hne : first ≠ second) (s : σ) :
    let final := (c.takeTurns updates [first, first, second, second] fun _ => .unread).run s
    let one := (c.updateRecord (updates first).settings (updates first).pool).run s
    let other := (c.updateRecord (updates second).settings (updates second).pool).run one.2
    (final.1 first).outcome = one.1 ∧ (final.1 second).outcome = other.1 ∧ final.2 = other.2 := by
  intro final one other
  have hsecond : second ≠ first := Ne.symm hne
  simp only [final, one, other, updateRecord_eq_turns, takeTurns, run_bind, run_pure]
  simp [hne, hsecond]

end Collaborators

/-! ## The ledger -/

/-- How far an update has come, with the assignments of its copy. -/
inductive LedgerPhase where
  | unread
  | holding (copied : List (String × Json))
  | written

/-- How many turns an update still needs. -/
def LedgerPhase.turnsLeft : LedgerPhase → Nat
  | unread => 2
  | holding _ => 1
  | written => 0

/-- The assignments that the stored record has, and the phases of the updates. -/
structure Ledger (ι : Type) where
  stored : List (String × Json)
  phase : ι → LedgerPhase

namespace Ledger

variable {ι : Type} [DecidableEq ι]

/-- The stored record as it was at the beginning, before the first turn. -/
def start : Ledger ι := ⟨[], fun _ => .unread⟩

/-- What a turn of an update changes. -/
def turn (assigned : ι → List (String × Json)) (ledger : Ledger ι) (side : ι) : Ledger ι :=
  match ledger.phase side with
  | .unread => ⟨ledger.stored, Function.update ledger.phase side (.holding ledger.stored)⟩
  | .holding copied => ⟨copied ++ assigned side, Function.update ledger.phase side .written⟩
  | .written => ledger

/-- The ledger after turns in an order. -/
def after (ledger : Ledger ι) (assigned : ι → List (String × Json)) (order : List ι) : Ledger ι :=
  order.foldl (turn assigned) ledger

theorem turnsLeft_turn (ledger : Ledger ι) (assigned : ι → List (String × Json)) (side other : ι) :
    ((ledger.turn assigned side).phase other).turnsLeft =
      (ledger.phase other).turnsLeft - if side = other then 1 else 0 := by
  by_cases hother : side = other
  · subst hother
    cases hphase : ledger.phase side <;> simp [turn, hphase, LedgerPhase.turnsLeft]
  · have hne : other ≠ side := Ne.symm hother
    cases hphase : ledger.phase side <;> simp [turn, hphase, hother, hne]

theorem turnsLeft_after (ledger : Ledger ι) (assigned : ι → List (String × Json)) (order : List ι)
    (side : ι) :
    ((ledger.after assigned order).phase side).turnsLeft =
      (ledger.phase side).turnsLeft - order.count side := by
  induction order generalizing ledger with
  | nil => rfl
  | cons first rest ih =>
      have hrest := ih (ledger.turn assigned first)
      rw [turnsLeft_turn] at hrest
      rw [List.count_cons]
      by_cases hfirst : first = side
      · simp only [hfirst, beq_self_eq_true, if_true] at hrest ⊢
        exact hrest.trans (Nat.sub_sub _ _ _ |>.trans (by omega))
      · simp only [hfirst, beq_iff_eq, if_false] at hrest ⊢
        exact hrest

/-- An update that had its two turns, in whatever order, has written. -/
theorem phase_eq_written (assigned : ι → List (String × Json)) {order : List ι} {side : ι}
    (h : 2 ≤ order.count side) : (start.after assigned order).phase side = .written := by
  have hleft : ((start.after assigned order).phase side).turnsLeft = 0 := by
    rw [turnsLeft_after, start, LedgerPhase.turnsLeft]
    omega
  cases hphase : (start.after assigned order).phase side with
  | unread => simp [hphase, LedgerPhase.turnsLeft] at hleft
  | holding copied => simp [hphase, LedgerPhase.turnsLeft] at hleft
  | written => rfl

end Ledger

/-- The phase of an update that a ledger describes: the copy is the old record with assignments, and an
update that has written has succeeded. -/
def LedgerPhase.Describes (old : Variable) (Fit : Variable → Prop) (phase : UpdatePhase) :
    LedgerPhase → Prop
  | unread => phase = .unread
  | holding copied => phase = .holding (old.withFields copied) ∧ Fit (old.withFields copied)
  | written => ∃ record, phase = .ended (.succeeded (.var record))

/-- A ledger describes a store and the phases of the updates. -/
structure Ledger.Describes {ρ ι : Type} (old : Variable) (Shows : ρ → Variable → Prop)
    (Fit : Variable → Prop) (ledger : Ledger ι) (records : ρ) (phases : ι → UpdatePhase) : Prop where
  stored : Shows records (old.withFields ledger.stored)
  phases : ∀ side, (ledger.phase side).Describes old Fit (phases side)

theorem LedgerPhase.describes_update {ι : Type} [DecidableEq ι] {old : Variable}
    {Fit : Variable → Prop} {phases : ι → UpdatePhase} {ledgerPhases : ι → LedgerPhase}
    (h : ∀ side, (ledgerPhases side).Describes old Fit (phases side)) (side : ι)
    {phase : UpdatePhase} {ledgerPhase : LedgerPhase} (hside : ledgerPhase.Describes old Fit phase) :
    ∀ other, (Function.update ledgerPhases side ledgerPhase other).Describes old Fit
      (Function.update phases side phase other) := by
  intro other
  by_cases hother : other = side
  · subst hother
    simpa using hside
  · simpa [Function.update_of_ne hother] using h other

namespace Collaborators

variable {ρ ε β ι : Type} [DecidableEq ι] {store : RecordStore ρ} {id : String}
  {Shows : ρ → Variable → Prop} {Fit : Variable → Prop} {old : Variable}
  (evaluate : Condition → Pool → ρ → StateM ε (Except EvaluationError Evaluation))
  (outside : Outside ε β) {updates : ι → PendingUpdate}

/-- The first turn of an update copies the stored record. -/
theorem turn_unread (hstore : store.Keeps id Shows Fit) {update : PendingUpdate}
    (htarget : update.Targets id) {record : Variable} {s : ρ × ε} (hstored : Shows s.1 record) :
    let next := ((withStore store evaluate outside).turn update .unread).run s
    Shows next.2.1 record ∧ next.1 = .holding record := by
  obtain ⟨target, hentry, rfl⟩ := htarget
  obtain ⟨records, e⟩ := s
  obtain ⟨left, hrun, hleft⟩ := hstore.findOne records record hstored
  have hfind : ((withStore store evaluate outside).findOne target.id).run (records, e) =
      (.ok (some record), (left, e)) := by
    change (((store.findOne target.id).run records).1,
      (((store.findOne target.id).run records).2, e)) = _
    rw [hrun]
  simp only [turn, hentry, advance, run_bind, hfind]
  exact ⟨hleft, rfl⟩

/-- The second turn puts the copy with the assignments in the place of whatever is stored. -/
theorem turn_holding (hstore : store.Keeps id Shows Fit) {update : PendingUpdate}
    (htarget : update.Targets id) {record copy : Variable} {s : ρ × ε} (hstored : Shows s.1 record)
    (hfit : Fit (copy.withFields update.settings.assignments)) :
    let next := ((withStore store evaluate outside).turn update (.holding copy)).run s
    Shows next.2.1 (copy.withFields update.settings.assignments) ∧
      next.1 = .ended (.succeeded (.var (copy.withFields update.settings.assignments))) := by
  obtain ⟨target, hentry, rfl⟩ := htarget
  obtain ⟨records, e⟩ := s
  obtain ⟨written, hrun, hwritten⟩ := hstore.updateOne records record _ hstored hfit
  have hupdate : ((withStore store evaluate outside).updateOne target.id
      (copy.withFields update.settings.assignments)).run (records, e) = (.ok (), (written, e)) := by
    change (((store.updateOne target.id _).run records).1,
      (((store.updateOne target.id _).run records).2, e)) = _
    rw [hrun]
  simp only [turn, hentry, advance, run_bind, hupdate]
  exact ⟨hwritten, rfl⟩

omit [DecidableEq ι] in
theorem turn_ended {σ : Type} (c : Collaborators σ β) {update : PendingUpdate}
    (htarget : update.Targets id) (outcome : StepOutcome) :
    c.turn update (.ended outcome) = pure (.ended outcome) := by
  obtain ⟨target, hentry, -⟩ := htarget
  simp only [turn, hentry, advance_ended]

/-- One turn is described by the turn in the ledger. -/
theorem turn_describes (hstore : store.Keeps id Shows Fit) (htargets : ∀ side, (updates side).Targets id)
    (hkeeps : ∀ side record, Fit record →
      Fit (record.withFields (updates side).settings.assignments))
    {ledger : Ledger ι} {s : ρ × ε} {phases : ι → UpdatePhase}
    (h : ledger.Describes old Shows Fit s.1 phases) (side : ι) :
    let next := ((withStore store evaluate outside).turn (updates side) (phases side)).run s
    (ledger.turn (fun side => (updates side).settings.assignments) side).Describes old Shows Fit
      next.2.1 (Function.update phases side next.1) := by
  intro next
  have hphase := h.phases side
  rw [Ledger.turn]
  cases hledger : ledger.phase side with
  | unread =>
      rw [hledger] at hphase
      have hunread : phases side = .unread := hphase
      obtain ⟨hstored, hnext⟩ := turn_unread evaluate outside hstore (htargets side) h.stored
      rw [← hunread] at hstored hnext
      have hfit := hstore.fit _ _ h.stored
      exact ⟨hstored, LedgerPhase.describes_update h.phases side ⟨hnext, hfit⟩⟩
  | holding copied =>
      rw [hledger] at hphase
      obtain ⟨hholding, hcopy⟩ := hphase
      have hfit := hkeeps side _ hcopy
      obtain ⟨hstored, hnext⟩ := turn_holding evaluate outside hstore (htargets side) h.stored hfit
      rw [← hholding] at hstored hnext
      rw [Variable.withFields_append] at hstored
      exact ⟨hstored, LedgerPhase.describes_update h.phases side ⟨_, hnext⟩⟩
  | written =>
      rw [hledger] at hphase
      obtain ⟨record, hended⟩ := hphase
      have hturn := turn_ended (withStore store evaluate outside) (htargets side)
        (.succeeded (.var record))
      have hnext : next = (phases side, s) := by
        rw [← hended] at hturn
        exact congrArg (fun x => x.run s) hturn
      rw [hnext, Function.update_eq_self]
      exact h

/-- Whatever the order of the turns, the ledger describes what they lead to. -/
theorem takeTurns_describes (hstore : store.Keeps id Shows Fit)
    (htargets : ∀ side, (updates side).Targets id)
    (hkeeps : ∀ side record, Fit record →
      Fit (record.withFields (updates side).settings.assignments))
    (order : List ι) {ledger : Ledger ι} {s : ρ × ε} {phases : ι → UpdatePhase}
    (h : ledger.Describes old Shows Fit s.1 phases) :
    let final := ((withStore store evaluate outside).takeTurns updates order phases).run s
    (ledger.after (fun side => (updates side).settings.assignments) order).Describes old Shows Fit
      final.2.1 final.1 := by
  induction order generalizing ledger s phases with
  | nil => exact h
  | cons side rest ih =>
      have hturn := turn_describes evaluate outside hstore htargets hkeeps h side
      exact ih hturn

end Collaborators

/-! ## Two updates -/

/-- One of two runs that share a store. -/
inductive Side where
  | left
  | right
  deriving DecidableEq

namespace Side

def other : Side → Side
  | left => right
  | right => left

@[simp] theorem other_ne (side : Side) : side.other ≠ side := by
  cases side <;> simp [other]

theorem count_add_count (order : List Side) :
    order.count left + order.count right = order.length := by
  induction order with
  | nil => rfl
  | cons side rest ih =>
      rw [List.length_cons, ← ih]
      cases side with
      | left =>
          rw [List.count_cons_self, List.count_cons_of_ne (by decide)]
          omega
      | right =>
          rw [List.count_cons_self, List.count_cons_of_ne (by decide)]
          omega

/-- With two turns of each side, the side that writes last reads after the other update, within it or
before it. -/
theorem order_cases {order : List Side} (hleft : order.count left = 2)
    (hright : order.count right = 2) :
    ∃ last : Side, order = [last.other, last.other, last, last] ∨
      order = [last.other, last, last.other, last] ∨
      order = [last, last.other, last.other, last] := by
  have hlength : order.length = 4 := by
    rw [← count_add_count, hleft, hright]
  match order, hlength with
  | [a, b, c, d], _ =>
      refine ⟨d, ?_⟩
      revert hleft hright
      cases a <;> cases b <;> cases c <;> cases d <;> decide

end Side

namespace Ledger

variable (assigned : Side → List (String × Json)) {last : Side}

/-- Updates that do not overlap both leave their assignments. -/
theorem stored_apart :
    (start.after assigned [last.other, last.other, last, last]).stored =
      assigned last.other ++ assigned last := by
  have hne : last ≠ last.other := (Side.other_ne last).symm
  simp [after, turn, start, hne]

/-- Of updates that overlap the one that writes last leaves its assignments alone. -/
theorem stored_overlap {order : List Side} (horder : order = [last.other, last, last.other, last] ∨
      order = [last, last.other, last.other, last]) :
    (start.after assigned order).stored = assigned last := by
  have hne : last ≠ last.other := (Side.other_ne last).symm
  rcases horder with rfl | rfl
  · simp [after, turn, start, hne]
  · simp [after, turn, start, hne]

end Ledger

/-- What is left of a record after two updates, of which one wrote last: the fields that neither assigned
and those that the later one did, and those of the earlier one only if the later one had not read the
record before. -/
structure Variable.Merges (old new : Variable) (earlier later : List (String × Json)) (apart : Prop) :
    Prop where
  head : new.id = old.id ∧ new.name = old.name ∧ new.object = old.object
  neither : ∀ field, field ∉ Ordered.keys earlier → field ∉ Ordered.keys later →
    new.field? field = old.field? field
  decided : ∀ field ∈ Ordered.keys later,
    ∃ value, Ordered.find? later.reverse field = some value ∧ new.field? field = some value
  kept : apart → ∀ field ∈ Ordered.keys earlier, field ∉ Ordered.keys later →
    ∃ value, Ordered.find? earlier.reverse field = some value ∧ new.field? field = some value
  lost : ¬apart → ∀ field ∈ Ordered.keys earlier, field ∉ Ordered.keys later →
    new.field? field = old.field? field

namespace Variable

theorem field?_withFields (r : Variable) (assigned : List (String × Json)) (field : String) :
    (r.withFields assigned).field? field =
      (Ordered.find? assigned.reverse field).or (r.field? field) :=
  Ordered.find?_setAll r.data assigned field

/-- A field that is assigned has the value that is assigned to it last. -/
theorem exists_field?_withFields (r : Variable) {assigned : List (String × Json)} {field : String}
    (h : field ∈ Ordered.keys assigned) :
    ∃ value, Ordered.find? assigned.reverse field = some value ∧
      (r.withFields assigned).field? field = some value := by
  have hmem : field ∈ Ordered.keys assigned.reverse := by
    simpa [Ordered.keys] using h
  rw [← Ordered.has_iff_mem_keys, Ordered.has, Option.isSome_iff_exists] at hmem
  obtain ⟨value, hvalue⟩ := hmem
  exact ⟨value, hvalue, by rw [field?_withFields, hvalue, Option.some_or]⟩

theorem field?_withFields_of_not_mem (r : Variable) {assigned : List (String × Json)} {field : String}
    (h : field ∉ Ordered.keys assigned) : (r.withFields assigned).field? field = r.field? field :=
  Ordered.find?_setAll_of_not_mem r.data h

theorem merges_apart (old : Variable) (earlier later : List (String × Json)) {apart : Prop}
    (hapart : apart) :
    old.Merges (old.withFields (earlier ++ later)) earlier later apart := by
  rw [← withFields_append]
  refine ⟨⟨rfl, rfl, rfl⟩, ?_, ?_, ?_, fun h => absurd hapart h⟩
  · intro field hearlier hlater
    rw [field?_withFields_of_not_mem _ hlater, field?_withFields_of_not_mem _ hearlier]
  · intro field hlater
    exact exists_field?_withFields _ hlater
  · intro _ field hearlier hlater
    rw [field?_withFields_of_not_mem _ hlater]
    exact exists_field?_withFields _ hearlier

theorem merges_overlap (old : Variable) (earlier later : List (String × Json)) {apart : Prop}
    (hapart : ¬apart) : old.Merges (old.withFields later) earlier later apart := by
  refine ⟨⟨rfl, rfl, rfl⟩, ?_, ?_, fun h => absurd h hapart, ?_⟩
  · intro field _ hlater
    exact field?_withFields_of_not_mem _ hlater
  · intro field hlater
    exact exists_field?_withFields _ hlater
  · intro _ field _ hlater
    exact field?_withFields_of_not_mem _ hlater

end Variable

namespace Collaborators

/-- Two updates that take turns in an order both succeed, and what they leave of the record under an
identifier is decided by the side that writes last. -/
def LeavesMerged {σ β : Type} (c : Collaborators σ β) (updates : Side → PendingUpdate) (id : String)
    (order : List Side) (s : σ) (old : Variable) : Prop :=
  let final := (c.takeTurns updates order fun _ => .unread).run s
  let assigned := fun side => (updates side).settings.assignments
  (∀ side, (final.1 side).outcome.isFailed = false) ∧
    ∃ last new, order.getLast? = some last ∧ ((c.findOne id).run final.2).1 = .ok (some new) ∧
      old.Merges new (assigned last.other) (assigned last)
        (order = [last.other, last.other, last, last])

variable {ρ ε β : Type} {updates : Side → PendingUpdate} {id : String} {order : List Side}

theorem leavesMerged_of_keeps {store : RecordStore ρ} {Shows : ρ → Variable → Prop}
    {Fit : Variable → Prop} (hstore : store.Keeps id Shows Fit)
    (htargets : ∀ side, (updates side).Targets id)
    (hkeeps : ∀ side record, Fit record →
      Fit (record.withFields (updates side).settings.assignments))
    (hleft : order.count .left = 2) (hright : order.count .right = 2)
    (evaluate : Condition → Pool → ρ → StateM ε (Except EvaluationError Evaluation))
    (outside : Outside ε β) {records : ρ} (e : ε) {old : Variable} (hold : Shows records old) :
    (withStore store evaluate outside).LeavesMerged updates id order (records, e) old := by
  unfold LeavesMerged
  intro final assigned
  have hstart : Ledger.start.Describes old Shows Fit records fun _ : Side => .unread :=
    ⟨hold, fun _ => rfl⟩
  have hfinal : (Ledger.start.after assigned order).Describes old Shows Fit final.2.1 final.1 :=
    takeTurns_describes evaluate outside hstore htargets hkeeps order hstart
  obtain ⟨left, hrun, -⟩ := hstore.findOne _ _ hfinal.stored
  have hfound : (((withStore store evaluate outside).findOne id).run final.2).1 =
      .ok (some (old.withFields (Ledger.start.after assigned order).stored)) :=
    congrArg Prod.fst hrun
  constructor
  · intro side
    have htwice : 2 ≤ order.count side := by
      cases side with
      | left => exact hleft.ge
      | right => exact hright.ge
    have hphase := hfinal.phases side
    rw [Ledger.phase_eq_written assigned htwice] at hphase
    obtain ⟨record, hended⟩ := hphase
    rw [hended]
    rfl
  · obtain ⟨last, horder⟩ := Side.order_cases hleft hright
    refine ⟨last, _, ?_, hfound, ?_⟩
    · rcases horder with rfl | rfl | rfl <;> rfl
    · rcases horder with rfl | hoverlap
      · rw [Ledger.stored_apart]
        exact old.merges_apart _ _ rfl
      · have hapart : order ≠ [last.other, last.other, last, last] := by
          have hne := Side.other_ne last
          rcases hoverlap with rfl | rfl
          · simp [hne.symm]
          · simp [hne.symm]
        rw [Ledger.stored_overlap assigned hoverlap]
        exact old.merges_overlap _ _ hapart

/-- Two runs update one record, each of its two calls being one turn, in memory or in a file. In every
order of the turns both updates succeed. The record that is stored then has the fields that neither
assigned as before, and the fields that the side assigned which writes last with its last values. A
field that only the other side assigned has its last value if that side had written before the later
one read the record; otherwise the assignment is lost. In a file this is so in a sound tree, if the
file can be replaced, and if the values in the file and those that are assigned are read again when
they are printed. -/
theorem interleaved_updates_merge (htargets : ∀ side, (updates side).Targets id)
    (hleft : order.count .left = 2) (hright : order.count .right = 2)
    (evaluate : Condition → Pool → (Option String → Except StoreError (List Variable)) →
      StateM ε (Except EvaluationError Evaluation))
    (outside : Outside ε β) (e : ε) (old : Variable) :
    (∀ table : RecordTable, table.find? id = some old →
      (withListing .memory evaluate outside).LeavesMerged updates id order (table, e) old) ∧
    ∀ path files records, files.Sound → RecordFile.read files path = .ok records →
      (∀ text, files.readText path = .ok text →
        ∃ new written, RecordFile.replaceContent files path new = .ok written) →
      (∀ r ∈ records, ∀ m ∈ r.data, m.2.Readable) →
      (∀ side, ∀ a ∈ (updates side).settings.assignments, a.2.IsNormal ∧ a.2.Readable) →
      records.find? (fun r => r.id == id) = some old →
        (withListing (.file path) evaluate outside).LeavesMerged updates id order (files, e) old := by
  constructor
  · intro table hold
    exact leavesMerged_of_keeps (RecordStore.memory_keeps id) htargets (fun _ _ _ => trivial) hleft
      hright _ outside e hold
  · intro path files records hsound hread hwrite hreadable hassigns hold
    have hdurable : ∀ r ∈ records, r.Durable := fun r hr =>
      ⟨RecordFile.isNormal_of_read hread r hr, hreadable r hr⟩
    have hholds := RecordFile.holds_of_read hsound hread hwrite hdurable
    have hstore := (RecordStore.file_refines_plain path).keeps (RecordStore.plain_keeps id)
    exact leavesMerged_of_keeps hstore htargets
      (fun side record hfit => ⟨hfit.1, hfit.2.withFields (hassigns side)⟩) hleft hright _ outside e
      ⟨records, hholds, hold⟩

/-- In memory a field of the side that writes last is kept though the other side wrote within its
update; in a file both assignments are kept when the updates do not overlap. -/
theorem later_side_keeps_its_fields :
    let old : Variable := ⟨"1", "a", "o", [("x", .str "old"), ("y", .str "old"), ("z", .null)]⟩
    let assigns : String → String → PendingUpdate := fun field value =>
      ⟨⟨⟨none, ⟨"v", none⟩⟩, [⟨field, .str value⟩]⟩, [("v", .var old)]⟩
    let updates : Side → PendingUpdate := fun side =>
      match side with
      | .left => assigns "x" "left"
      | .right => assigns "y" "right"
    (∃ new, (((searching .memory .idle).findOne "1").run
        (((searching .memory .idle).takeTurns updates [.right, .left, .left, .right]
          fun _ => .unread).run ([("1", old)], ())).2).1 = .ok (some new) ∧
      new.field? "x" = some (.str "old") ∧ new.field? "y" = some (.str "right")) ∧
    ∃ new, (((searching (.file "data/records.json") .idle).findOne "1").run
        (((searching (.file "data/records.json") .idle).takeTurns updates
          [.left, .left, .right, .right] fun _ => .unread).run
            (RecordFile.alone [old], ())).2).1 = .ok (some new) ∧
      new.field? "x" = some (.str "left") ∧ new.field? "y" = some (.str "right") ∧
      new.field? "z" = some .null := by
  intro old assigns updates
  have htargets : ∀ side, (updates side).Targets "1" := by
    intro side
    cases side with
    | left => exact ⟨old, rfl, rfl⟩
    | right => exact ⟨old, rfl, rfl⟩
  have hdurable : ∀ r ∈ [old], r.Durable := by
    have hnormal : old.toJson.IsNormal := by
      simp [old, Variable.toJson, Ordered.keys]
    have hreadable : ∀ m ∈ old.data, m.2.Readable := by
      simp [old, Json.readable_str, Json.readable_null]
    simpa using (⟨hnormal, hreadable⟩ : old.Durable)
  have hassigns : ∀ side, ∀ a ∈ (updates side).settings.assignments, a.2.IsNormal ∧ a.2.Readable := by
    intro side
    cases side with
    | left => simp [updates, assigns, UpdateRecord.assignments, Json.readable_str]
    | right => simp [updates, assigns, UpdateRecord.assignments, Json.readable_str]
  constructor
  · obtain ⟨hmemory, -⟩ := @interleaved_updates_merge Unit Unit updates "1"
      [.right, .left, .left, .right] htargets rfl rfl
      (fun condition pool list => pure (condition.answer pool list)) .idle () old
    obtain ⟨-, last, new, hlast, hfound, hmerges⟩ := hmemory [("1", old)] rfl
    obtain rfl : .right = last := Option.some.inj hlast
    rw [← searching_eq_withListing] at hfound
    have hoverlap : [Side.right, .left, .left, .right] ≠ [.left, .left, .right, .right] := by decide
    have hx := hmerges.lost hoverlap "x" (by decide) (by decide)
    obtain ⟨value, hvalue, hy⟩ := hmerges.decided "y" (by decide)
    obtain rfl : .str "right" = value := Option.some.inj hvalue
    exact ⟨new, hfound, hx, hy⟩
  · obtain ⟨-, hfile⟩ := @interleaved_updates_merge Unit Unit updates "1"
      [.left, .left, .right, .right] htargets rfl rfl
      (fun condition pool list => pure (condition.answer pool list)) .idle () old
    obtain ⟨-, last, new, hlast, hfound, hmerges⟩ := hfile "data/records.json" _ [old]
      (RecordFile.sound_alone _) (RecordFile.read_alone hdurable)
      (fun _ _ => RecordFile.replaceContent_alone _) (fun r hr => (hdurable r hr).readable) hassigns
      rfl
    obtain rfl : .right = last := Option.some.inj hlast
    rw [← searching_eq_withListing] at hfound
    obtain ⟨left, hleft, hx⟩ := hmerges.kept rfl "x" (by decide) (by decide)
    obtain ⟨right, hright, hy⟩ := hmerges.decided "y" (by decide)
    obtain rfl : .str "left" = left := Option.some.inj hleft
    obtain rfl : .str "right" = right := Option.some.inj hright
    exact ⟨new, hfound, hx, hy, hmerges.neither "z" (by decide) (by decide)⟩

/-- Both updates read the record before either writes it. Both succeed, and the field that only the
left side assigned has its old value. -/
theorem update_within_another_is_lost :
    let old : Variable := ⟨"1", "a", "o", [("x", .str "old"), ("y", .str "old")]⟩
    let assigns : String → String → PendingUpdate := fun field value =>
      ⟨⟨⟨none, ⟨"v", none⟩⟩, [⟨field, .str value⟩]⟩, [("v", .var old)]⟩
    let updates : Side → PendingUpdate := fun side =>
      match side with
      | .left => assigns "x" "left"
      | .right => assigns "y" "right"
    ∃ phases new, ((searching .memory .idle).takeTurns updates [.left, .right, .left, .right]
        fun _ => .unread).run ([("1", old)], ()) = (phases, ([("1", new)], ())) ∧
      (∀ side, (phases side).outcome.isFailed = false) ∧
      new.field? "x" = some (.str "old") ∧ new.field? "x" ≠ some (.str "left") ∧
      new.field? "y" = some (.str "right") := by
  intro old assigns updates
  refine ⟨_, ⟨"1", "a", "o", [("x", .str "old"), ("y", .str "right")]⟩, rfl, ?_, rfl, ?_, rfl⟩
  · intro side
    cases side with
    | left => rfl
    | right => rfl
  · have hx : (⟨"1", "a", "o", [("x", .str "old"), ("y", .str "right")]⟩ : Variable).field? "x" =
      some (.str "old") := rfl
    rw [hx]
    simp

end Collaborators

end Stepwise
