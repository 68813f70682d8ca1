import EncryptedTransfer.Interaction

/-!
# Machines whose calls are replaced

A disturbance replaces what a call does, its answer and its effect alike. The calls of a kind are
numbered, and a pattern says of each number and call whether it is replaced.
-/
namespace EncryptedTransfer.Interaction.Program

variable {I : Interface} {ε α σ : Type}

/-- What a call does in place of what the machine does, where anything. -/
abbrev Disturbance (I : Interface) (ε σ : Type) :=
  (c : I.Call) → Option (σ → Except ε (I.Answer c) × σ)

/-- The machine under a pattern; `counted` says which calls are numbered. -/
def disturbed (M : Machine I ε σ) (counted : I.Call → Bool) (pattern : ℕ → Disturbance I ε σ) :
    Machine I ε (σ × ℕ) := fun c s =>
  let r := ((pattern s.2 c).getD (M c)) s.1
  (r.1, (r.2, if counted c then s.2 + 1 else s.2))

variable (M : Machine I ε σ) {counted : I.Call → Bool} {pattern : ℕ → Disturbance I ε σ}

theorem disturbed_calm {c : I.Call} {n : ℕ} (h : pattern n c = none) (s : σ) :
    disturbed M counted pattern c (s, n) =
      ((M c s).1, ((M c s).2, if counted c then n + 1 else n)) := by
  simp only [disturbed, h, Option.getD_none]

theorem disturbed_struck {c : I.Call} {n : ℕ} {f : σ → Except ε (I.Answer c) × σ}
    (h : pattern n c = some f) (s : σ) : disturbed M counted pattern c (s, n) =
      ((f s).1, ((f s).2, if counted c then n + 1 else n)) := by
  simp only [disturbed, h, Option.getD_some]

variable (counted) in
theorem run_disturbed_never (h : ∀ n c, pattern n c = none) (p : Program I ε α) (s : σ × ℕ) :
    (run (disturbed M counted pattern) p s).1 = (run M p s.1).1 ∧
      (run (disturbed M counted pattern) p s).2.1 = (run M p s.1).2 := by
  induction p generalizing s with
  | done o => exact ⟨rfl, rfl⟩
  | call c next ih =>
    rw [run_call, run_call, ← Prod.eta s, disturbed_calm M (h s.2 c)]
    exact ih _ _

theorem run_disturbed_calm {p : Program I ε α}
    (h : Issues (fun c => counted c = false ∧ ∀ n, pattern n c = none) p) (s : σ) (n : ℕ) :
    run (disturbed M counted pattern) p (s, n) = ((run M p s).1, ((run M p s).2, n)) := by
  induction p generalizing s with
  | done o => rfl
  | call c next ih =>
    rw [run_call, run_call, disturbed_calm M (h.1.2 n), h.1.1]
    exact ih _ (h.2 _) _

end EncryptedTransfer.Interaction.Program
