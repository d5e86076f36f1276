import Mathlib.Data.List.Infix
import Stepwise.Redaction

/-!
# Laws of sweeps

A sweep goes through a text place by place: it passes a character where its rule finds nothing, and
hides a secret where it finds one and goes on behind it. Written as a relation between a text and
what is left of it, a sweep has these two steps, and what holds of every sweep is shown by an
induction over them. A sweep leaves a front alone in which its rule cannot find anything.
-/

namespace Stepwise.Redaction

/-! ## The mark -/

theorem mark_ne_nil : mark ≠ [] := by decide

theorem isSolid_of_mem_mark : ∀ c ∈ mark, isSolid c = true :=
  List.all_eq_true.mp (by decide)

namespace Found

/-- The part of the text that was found. -/
def text (f : Found) : List Char := f.kept ++ (f.secret ++ f.tail)

/-- What is written for it. -/
def shown (f : Found) : List Char := f.kept ++ mark ++ f.tail

theorem length_text (f : Found) : f.text.length = f.length := by
  simp only [text, length, List.length_append, Nat.add_assoc]

end Found

/-- A rule that does not look back, and that finds a part of the text in front of it. -/
structure LooksAhead (rule : Rule) : Prop where
  blind : ∀ before cs, rule before cs = rule none cs
  part : ∀ {cs f}, rule none cs = some f → ∃ rest, cs = f.text ++ rest
  secret : ∀ {cs f}, rule none cs = some f → f.secret ≠ []

variable {rule : Rule}

/-! ## Steps -/

theorem sweep_nil (rule : Rule) : sweep rule [] = [] := rfl

theorem sweepFrom_eq (h : LooksAhead rule) (skip : Nat) (before : Option Char) (cs : List Char) :
    sweepFrom rule skip before cs = sweep rule (cs.drop skip) := by
  induction cs generalizing skip before with
  | nil => cases skip <;> rfl
  | cons c cs ih =>
      cases skip with
      | zero => rw [List.drop_zero, sweep, sweepFrom, sweepFrom, h.blind before]
      | succ skip => exact ih skip (some c)

theorem sweep_pass (h : LooksAhead rule) {c : Char} {cs : List Char}
    (hnone : rule none (c :: cs) = none) : sweep rule (c :: cs) = c :: sweep rule cs := by
  rw [sweep, sweepFrom, hnone]
  exact congrArg (c :: ·) (sweepFrom_eq h 0 (some c) cs)

theorem sweep_hide (h : LooksAhead rule) {f : Found} {cs rest : List Char}
    (hfound : rule none cs = some f) (hcs : cs = f.text ++ rest) :
    sweep rule cs = f.shown ++ sweep rule rest := by
  subst hcs
  have hne : f.text ≠ [] := by
    intro hnil
    have hsecret := h.secret hfound
    simp [Found.text] at hnil
    exact hsecret hnil.2.1
  obtain ⟨c, cs, htext⟩ := List.exists_cons_of_ne_nil hne
  have hlength : f.length - 1 = cs.length := by
    rw [← f.length_text, htext, List.length_cons, Nat.add_sub_cancel]
  rw [htext, List.cons_append] at hfound ⊢
  rw [sweep, sweepFrom, hfound]
  simp only [sweepFrom_eq h, hlength, List.drop_left, Found.shown]

/-- A text and what a sweep leaves of it. -/
inductive Sweeps (rule : Rule) : List Char → List Char → Prop where
  | done : Sweeps rule [] []
  | pass {c cs out} (hnone : rule none (c :: cs) = none) (hrest : Sweeps rule cs out) :
      Sweeps rule (c :: cs) (c :: out)
  | hide {f cs out} (hsecret : f.secret ≠ []) (hfound : rule none (f.text ++ cs) = some f)
      (hrest : Sweeps rule cs out) : Sweeps rule (f.text ++ cs) (f.shown ++ out)

theorem sweeps (h : LooksAhead rule) (cs : List Char) : Sweeps rule cs (sweep rule cs) := by
  induction hlength : cs.length using Nat.strongRecOn generalizing cs with
  | ind n ih =>
      cases cs with
      | nil => exact .done
      | cons c cs =>
          cases hfound : rule none (c :: cs) with
          | none =>
              rw [sweep_pass h hfound]
              exact .pass hfound (ih cs.length (by simp [← hlength]) cs rfl)
          | some f =>
              obtain ⟨rest, hrest⟩ := h.part hfound
              have hsecret := h.secret hfound
              have hpositive := List.length_pos_iff.mpr hsecret
              have hshort : rest.length < n := by
                rw [← hlength, hrest, List.length_append, f.length_text, Found.length]
                omega
              rw [sweep_hide h hfound hrest]
              rw [hrest] at hfound ⊢
              exact .hide hsecret hfound (ih rest.length hshort rest rfl)

/-! ## What every sweep keeps -/

namespace Sweeps

variable {cs out : List Char}

/-- A sweep writes no characters but those of the text and of the mark. -/
theorem mem (h : Sweeps rule cs out) {c : Char} (hc : c ∈ out) : c ∈ cs ∨ c ∈ mark := by
  induction h with
  | done => exact Or.inl hc
  | pass hnone hrest ih =>
      rcases List.mem_cons.mp hc with rfl | hc
      · exact Or.inl List.mem_cons_self
      · exact (ih hc).imp_left (List.mem_cons_of_mem _)
  | hide hsecret hfound hrest ih =>
      simp only [Found.shown, List.mem_append, Found.text] at hc ⊢
      tauto

theorem eq_nil (h : Sweeps rule [] out) : out = [] := by
  generalize hcs : ([] : List Char) = cs at h
  cases h with
  | done => rfl
  | pass hnone hrest => cases hcs
  | hide hsecret hfound hrest => simp [Found.text, hsecret] at hcs

theorem ne_nil (h : Sweeps rule cs out) (hcs : cs ≠ []) : out ≠ [] := by
  cases h with
  | done => exact absurd rfl hcs
  | pass hnone hrest => exact List.cons_ne_nil _ _
  | hide hsecret hfound hrest =>
      intro hnil
      simp only [Found.shown, List.append_eq_nil_iff] at hnil
      exact mark_ne_nil hnil.1.1.2

end Sweeps

/-! ## Splitting a text at a character -/

/-- A character of a text in two parts stands in the first one or in the second. -/
theorem split_cases {c : Char} {xs ys front back : List Char} (h : xs ++ ys = front ++ c :: back) :
    (∃ mid, xs = front ++ c :: mid ∧ back = mid ++ ys) ∨
      ∃ mid, front = xs ++ mid ∧ ys = mid ++ c :: back := by
  rcases List.append_eq_append_iff.mp h with hright | ⟨mid, rfl, hmid⟩
  · exact Or.inr hright
  · cases mid with
    | nil => exact Or.inr ⟨[], by simp, hmid.symm⟩
    | cons m mid =>
        obtain ⟨rfl, rfl⟩ := List.cons.inj hmid
        exact Or.inl ⟨mid, rfl, rfl⟩

/-- A character that is not in the second part stands in the first one. -/
theorem split_front {c : Char} {xs ys front back : List Char} (hys : c ∉ ys)
    (h : xs ++ ys = front ++ c :: back) : ∃ mid, xs = front ++ c :: mid ∧ back = mid ++ ys := by
  rcases split_cases h with hfront | ⟨mid, -, rfl⟩
  · exact hfront
  · exact absurd (by simp) hys

/-- Texts are split alike at the first place of a character. -/
theorem eq_of_first_eq {c : Char} {xs ys as bs : List Char} (hxs : c ∉ xs) (hys : c ∉ ys)
    (h : xs ++ c :: as = ys ++ c :: bs) : xs = ys ∧ as = bs := by
  rcases split_cases h with ⟨mid, rfl, -⟩ | ⟨mid, rfl, hmid⟩
  · exact absurd (by simp) hxs
  · cases mid with
    | nil => exact ⟨(List.append_nil xs).symm, (List.cons.inj hmid).2⟩
    | cons m mid =>
        obtain ⟨rfl, -⟩ := List.cons.inj hmid
        exact absurd (by simp) hys

/-! ## Where nothing is found -/

/-- A sweep whose rule finds nothing at any place leaves the text as it is. -/
theorem sweep_eq_self {cs : List Char}
    (h : ∀ before s, s <:+ cs → rule before s = none) : sweep rule cs = cs := by
  have hfrom : ∀ before, sweepFrom rule 0 before cs = cs := by
    induction cs with
    | nil => intro before; rfl
    | cons c cs ih =>
        intro before
        rw [sweepFrom, h before _ (List.suffix_refl _)]
        exact congrArg (c :: ·)
          (ih (fun b s hs => h b s (hs.trans (List.suffix_cons c cs))) (some c))
  exact hfrom none

/-- A rule finds something only where one character comes, and another one not before it. -/
def Needs (rule : Rule) (needed stop : Char) : Prop :=
  ∀ cs f, rule none cs = some f → ∃ front back, cs = front ++ needed :: back ∧ stop ∉ front

namespace Needs

variable {needed stop : Char} (h : Needs rule needed stop)
include h

theorem mem {cs : List Char} {f : Found} (hfound : rule none cs = some f) : needed ∈ cs := by
  obtain ⟨front, back, rfl, -⟩ := h cs f hfound
  exact List.mem_append_right _ List.mem_cons_self

theorem eq_none (hne : needed ≠ stop) {xs : List Char} (hxs : needed ∉ xs) (ys : List Char) :
    rule none (xs ++ stop :: ys) = none := by
  cases hfound : rule none (xs ++ stop :: ys) with
  | none => rfl
  | some f =>
      obtain ⟨front, back, hsplit, hstop⟩ := h _ f hfound
      rcases split_cases hsplit with ⟨mid, rfl, -⟩ | ⟨mid, rfl, hmid⟩
      · exact absurd (by simp) hxs
      · cases mid with
        | nil => exact absurd (List.cons.inj hmid).1.symm hne
        | cons m mid =>
            obtain ⟨rfl, -⟩ := List.cons.inj hmid
            exact absurd (by simp) hstop

/-- A sweep leaves a front alone in which what its rule needs does not come before a stop. -/
theorem sweep_append (hahead : LooksAhead rule) (hne : needed ≠ stop) {xs : List Char}
    (hxs : needed ∉ xs) (ys : List Char) :
    sweep rule (xs ++ stop :: ys) = xs ++ stop :: sweep rule ys := by
  induction xs with
  | nil => exact sweep_pass hahead (h.eq_none hne hxs ys)
  | cons x xs ih =>
      have hrest := ih fun hmem => hxs (List.mem_cons_of_mem x hmem)
      have hnone := h.eq_none hne hxs ys
      simp only [List.cons_append] at hnone ⊢
      rw [sweep_pass hahead hnone, hrest]

/-- Without the character that its rule needs a text stays as it is. -/
theorem sweep_eq_self (hahead : LooksAhead rule) {cs : List Char} (hcs : needed ∉ cs) :
    sweep rule cs = cs := by
  refine Redaction.sweep_eq_self fun before s hs => ?_
  rw [hahead.blind]
  cases hfound : rule none s with
  | none => rfl
  | some f => exact absurd (hs.mem (h.mem hfound)) hcs

end Needs

end Stepwise.Redaction
