import Mathlib.Data.List.Induction
import Mathlib.Logic.Function.Basic

/-!
# A ledger of contents and their confirmations

The abstract store: under each key the content accepted last, until it is discarded, and
whether it has been confirmed since it was accepted. `Standing` says the same of a history
without running it.
-/
namespace EncryptedTransfer.FileLedger

variable {K C : Type}

inductive Act (K C : Type) where
  | accept (k : K) (c : C)
  | confirm (k : K)
  | discard (k : K)

/-- The content under a key and whether it is confirmed. -/
abbrev Ledger (K C : Type) := K → Option (C × Bool)

/-- The acts that replace or remove what stands under a key. -/
def Act.Rewrites (k : K) : Act K C → Prop
  | accept k' _ => k' = k
  | confirm _ => False
  | discard k' => k' = k

/-- The content `c` was accepted under `k` last and not discarded since, and `v` tells
whether it was confirmed since. -/
def Standing (acts : List (Act K C)) (k : K) (c : C) (v : Bool) : Prop :=
  ∃ before after, acts = before ++ .accept k c :: after ∧
    (∀ a ∈ after, ¬ a.Rewrites k) ∧ (v = true ↔ .confirm k ∈ after)

variable [DecidableEq K]

def Ledger.apply (l : Ledger K C) : Act K C → Ledger K C
  | .accept k c => Function.update l k (some (c, false))
  | .confirm k => Function.update l k ((l k).map (fun e => (e.1, true)))
  | .discard k => Function.update l k none

def Ledger.empty : Ledger K C := fun _ => none

def Ledger.run (acts : List (Act K C)) : Ledger K C := acts.foldl Ledger.apply Ledger.empty

theorem Ledger.run_append_singleton (acts : List (Act K C)) (a : Act K C) :
    Ledger.run (acts ++ [a]) = (Ledger.run acts).apply a := by
  simp [Ledger.run, List.foldl_append]

theorem Ledger.apply_of_not_rewrites (l : Ledger K C) {a : Act K C} {k : K}
    (ha : ¬ a.Rewrites k) (hc : ∀ k', a = .confirm k' → k' ≠ k) : l.apply a k = l k := by
  cases a with
  | accept k' c => exact Function.update_of_ne (fun h => ha h.symm) _ _
  | confirm k' => exact Function.update_of_ne (fun h => hc k' rfl h.symm) _ _
  | discard k' => exact Function.update_of_ne (fun h => ha h.symm) _ _

omit [DecidableEq K] in
theorem Standing.extend {acts : List (Act K C)} {a : Act K C} {k : K} {c : C} {u v : Bool}
    (h : Standing acts k c u) (ha : ¬ a.Rewrites k)
    (hv : v = true ↔ u = true ∨ a = .confirm k) : Standing (acts ++ [a]) k c v := by
  obtain ⟨before, after, rfl, hno, hu⟩ := h
  refine ⟨before, after ++ [a], by simp, ?_, ?_⟩
  · intro b hb
    rcases List.mem_append.mp hb with hb | hb
    · exact hno b hb
    · rw [List.mem_singleton.mp hb]
      exact ha
  · rw [hv, hu, List.mem_append, List.mem_singleton, eq_comm (a := a)]

omit [DecidableEq K] in
/-- What stands after one more act was just accepted, or stood before. -/
theorem Standing.cases {acts : List (Act K C)} {a : Act K C} {k : K} {c : C} {v : Bool}
    (h : Standing (acts ++ [a]) k c v) :
    (a = .accept k c ∧ v = false) ∨
      (¬ a.Rewrites k ∧ ∃ u, Standing acts k c u ∧ (v = true ↔ u = true ∨ a = .confirm k)) := by
  obtain ⟨before, after, he, hno, hv⟩ := h
  rcases List.eq_nil_or_concat after with rfl | ⟨after, a', rfl⟩
  · obtain ⟨_, ha⟩ := List.append_inj' he rfl
    left
    exact ⟨(List.cons.inj ha).1, by simpa using hv⟩
  · right
    have he' : acts ++ [a] = (before ++ .accept k c :: after) ++ [a'] := by simp [he]
    obtain ⟨rfl, ha⟩ := List.append_inj' he' rfl
    obtain rfl := (List.cons.inj ha).1
    refine ⟨hno a (by simp), ?_⟩
    have hstand (u : Bool) (hu : u = true ↔ .confirm k ∈ after) :
        Standing (before ++ .accept k c :: after) k c u :=
      ⟨before, after, rfl, fun b hb => hno b (by simp [hb]), hu⟩
    by_cases hc : Act.confirm k ∈ after
    · exact ⟨true, hstand true (by simp [hc]), by simp [hv, hc]⟩
    · exact ⟨false, hstand false (by simp [hc]), by simp [hv, hc, eq_comm]⟩

/-- Running the history is reading it. -/
theorem Ledger.run_eq_some {acts : List (Act K C)} {k : K} {c : C} {v : Bool} :
    Ledger.run acts k = some (c, v) ↔ Standing acts k c v := by
  induction acts using List.reverseRecOn generalizing c v with
  | nil => simp [Ledger.run, Ledger.empty, Standing]
  | append_singleton acts a ih =>
    rw [Ledger.run_append_singleton]
    constructor
    · intro h
      cases a with
      | accept k' c' =>
        by_cases hk : k = k'
        · subst hk
          rw [Ledger.apply, Function.update_self, Option.some.injEq, Prod.mk.injEq] at h
          obtain ⟨rfl, rfl⟩ := h
          exact ⟨acts, [], rfl, by simp, by simp⟩
        · rw [Ledger.apply, Function.update_of_ne hk] at h
          exact (ih.mp h).extend (fun h => hk h.symm) (by simp)
      | confirm k' =>
        by_cases hk : k = k'
        · subst hk
          rw [Ledger.apply, Function.update_self, Option.map_eq_some_iff] at h
          obtain ⟨⟨c', u⟩, hu, he⟩ := h
          obtain ⟨rfl, rfl⟩ := Prod.mk.inj he
          exact (ih.mp hu).extend id (by simp)
        · rw [Ledger.apply, Function.update_of_ne hk] at h
          exact (ih.mp h).extend id (by simp [Ne.symm hk])
      | discard k' =>
        by_cases hk : k = k'
        · subst hk
          simp [Ledger.apply] at h
        · rw [Ledger.apply, Function.update_of_ne hk] at h
          exact (ih.mp h).extend (fun h => hk h.symm) (by simp)
    · intro h
      rcases h.cases with ⟨rfl, rfl⟩ | ⟨ha, u, hu, hv⟩
      · simp [Ledger.apply]
      · have hrun := ih.mpr hu
        by_cases hc : a = .confirm k
        · subst hc
          have hv : v = true := by simpa using hv
          simp [Ledger.apply, hrun, hv]
        · have hv : v = u := by
            rw [Bool.eq_iff_iff, hv]
            simp [hc]
          rw [Ledger.apply_of_not_rewrites _ ha, hrun, hv]
          rintro k' rfl rfl
          exact hc rfl

end EncryptedTransfer.FileLedger
