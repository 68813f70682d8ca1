import Mathlib.Data.Nat.Notation
import Mathlib.Tactic.Common

/-!
# Bounded retries

An attempt is repeated until it is accepted or no retry is left; `a k` is whether the attempt
after `k` others is accepted. Several tasks may draw on one stock of retries, filled up again
only when a task has failed.
-/
namespace EncryptedTransfer.BoundedRetries

/-- The attempts made, and whether the last one was accepted. -/
structure Outcome where
  attempts : ℕ
  accepted : Bool
  deriving DecidableEq, Repr

def tryUpTo : ℕ → (ℕ → Bool) → Outcome
  | 0, a => ⟨1, a 0⟩
  | left + 1, a =>
    if a 0 then ⟨1, true⟩
    else
      let rest := tryUpTo left (fun k => a (k + 1))
      ⟨rest.attempts + 1, rest.accepted⟩

variable {left : ℕ} {a : ℕ → Bool}

theorem tryUpTo_of_accepted (h : a 0 = true) : tryUpTo left a = ⟨1, true⟩ := by
  cases left with
  | zero => rw [tryUpTo, h]
  | succ left => rw [tryUpTo, if_pos h]

theorem tryUpTo_of_rejected (h : a 0 = false) : tryUpTo (left + 1) a =
    ⟨(tryUpTo left (fun k => a (k + 1))).attempts + 1,
      (tryUpTo left (fun k => a (k + 1))).accepted⟩ := by
  rw [tryUpTo, h]
  rfl

theorem tryUpTo_spec (left : ℕ) (a : ℕ → Bool) : ∃ k ≤ left, (∀ i < k, a i = false) ∧
    (a k = false → k = left) ∧ tryUpTo left a = ⟨k + 1, a k⟩ := by
  induction left generalizing a with
  | zero => exact ⟨0, Nat.le_refl 0, fun i hi => absurd hi (Nat.not_lt_zero i), fun _ => rfl, rfl⟩
  | succ left ih =>
    cases ha : a 0 with
    | true =>
      refine ⟨0, Nat.zero_le _, fun i hi => absurd hi (Nat.not_lt_zero i), ?_, ?_⟩
      · rw [ha]
        exact nofun
      · rw [tryUpTo_of_accepted ha, ha]
    | false =>
      obtain ⟨k, hk, hbefore, hlast, heq⟩ := ih (fun k => a (k + 1))
      refine ⟨k + 1, Nat.succ_le_succ hk, ?_, fun h => congrArg Nat.succ (hlast h), ?_⟩
      · intro i hi
        cases i with
        | zero => exact ha
        | succ i => exact hbefore i (Nat.lt_of_succ_lt_succ hi)
      · rw [tryUpTo_of_rejected ha, heq]

theorem one_le_attempts (left : ℕ) (a : ℕ → Bool) : 1 ≤ (tryUpTo left a).attempts := by
  obtain ⟨k, -, -, -, heq⟩ := tryUpTo_spec left a
  rw [heq]
  exact Nat.succ_le_succ (Nat.zero_le k)

theorem attempts_le (left : ℕ) (a : ℕ → Bool) : (tryUpTo left a).attempts ≤ left + 1 := by
  obtain ⟨k, hk, -, -, heq⟩ := tryUpTo_spec left a
  rw [heq]
  exact Nat.succ_le_succ hk

theorem tryUpTo_accepted_iff : (tryUpTo left a).accepted = true ↔ ∃ k ≤ left, a k = true := by
  obtain ⟨k, hk, hbefore, hlast, heq⟩ := tryUpTo_spec left a
  rw [heq]
  constructor
  · exact fun ha => ⟨k, hk, ha⟩
  · rintro ⟨i, hi, hai⟩
    by_contra hno
    have hak : a k = false := by simpa using hno
    rcases Nat.lt_or_ge i k with hlt | hge
    · simp [hbefore i hlt] at hai
    · have hsame : i = k := by
        have hleft := hlast hak
        omega
      simp [hsame, hak] at hai

/-- More retries make a difference exactly where the fewer are not enough. -/
theorem tryUpTo_eq_iff {more : ℕ} (h : left ≤ more) : tryUpTo left a = tryUpTo more a ↔
    left = more ∨ ∃ k ≤ left, a k = true := by
  obtain ⟨k, hk, hbefore, hlast, heq⟩ := tryUpTo_spec left a
  obtain ⟨k', -, hbefore', hlast', heq'⟩ := tryUpTo_spec more a
  rw [← tryUpTo_accepted_iff, heq, heq']
  constructor
  · intro hsame
    have hkk : k = k' := Nat.succ.inj (congrArg Outcome.attempts hsame)
    subst hkk
    cases hak : a k with
    | true => exact .inr rfl
    | false => exact .inl ((hlast hak).symm.trans (hlast' hak))
  · rintro (rfl | hak)
    · rw [← heq, heq']
    · have hkk : k = k' := by
        rcases Nat.lt_trichotomy k k' with hlt | hsame | hlt
        · simp [hbefore' k hlt] at hak
        · exact hsame
        · have hmore := hlast' (hbefore k' hlt)
          omega
      rw [hkk]

def leftAfter (more left : ℕ) (a : ℕ → Bool) : ℕ :=
  if (tryUpTo left a).accepted then left - ((tryUpTo left a).attempts - 1) else more

theorem leftAfter_le {more : ℕ} (h : left ≤ more) : leftAfter more left a ≤ more := by
  unfold leftAfter
  split_ifs
  · exact Nat.le_trans (Nat.sub_le _ _) h
  · exact Nat.le_refl more

/-- Every task ends as if it had the whole stock for itself. -/
def Unaffected (more : ℕ) : ℕ → List (ℕ → Bool) → Prop
  | _, [] => True
  | left, a :: as => tryUpTo left a = tryUpTo more a ∧ Unaffected more (leftAfter more left a) as

/-- Every task has the whole stock or is accepted with what is left. -/
def Spares (more : ℕ) : ℕ → List (ℕ → Bool) → Prop
  | _, [] => True
  | left, a :: as => (left = more ∨ ∃ k ≤ left, a k = true) ∧ Spares more (leftAfter more left a) as

theorem unaffected_iff_spares {more : ℕ} (h : left ≤ more) (as : List (ℕ → Bool)) :
    Unaffected more left as ↔ Spares more left as := by
  induction as generalizing left with
  | nil => exact Iff.rfl
  | cons a as ih =>
    rw [Unaffected, Spares, tryUpTo_eq_iff h, ih (leftAfter_le h)]

end EncryptedTransfer.BoundedRetries
