import EncryptedTransfer.Interaction

/-!
# Machines some of whose calls fail

A failing call changes nothing and answers with a value of its own, so that a program takes the
failure for that answer. The calls that can fail are counted, and a pattern says of each
number and call whether it fails.
-/
namespace EncryptedTransfer.Interaction.Program

variable {I : Interface} {ε α σ : Type}

/-- The machine under a pattern: `missing c` is what `c` answers where it fails, `none` where it
cannot fail. -/
def flaky (M : Machine I ε σ) (missing : (c : I.Call) → Option (I.Answer c))
    (fails : ℕ → I.Call → Bool) : Machine I ε (σ × ℕ) := fun c s =>
  match missing c with
  | none => ((M c s.1).1, ((M c s.1).2, s.2))
  | some a =>
    if fails s.2 c then (.ok a, (s.1, s.2 + 1)) else ((M c s.1).1, ((M c s.1).2, s.2 + 1))

variable (M : Machine I ε σ) {missing : (c : I.Call) → Option (I.Answer c)}
  (fails : ℕ → I.Call → Bool)

theorem flaky_sure {c : I.Call} (h : missing c = none) (s : σ) (n : ℕ) :
    flaky M missing fails c (s, n) = ((M c s).1, ((M c s).2, n)) := by
  simp only [flaky, h]

theorem flaky_counted {c : I.Call} {a : I.Answer c} (h : missing c = some a) (s : σ) (n : ℕ) :
    flaky M missing fails c (s, n) =
      (if fails n c then .ok a else (M c s).1, if fails n c then s else (M c s).2, n + 1) := by
  simp only [flaky, h]
  split_ifs <;> rfl

theorem flaky_keeps {P : σ → Prop} {c : I.Call} {s : σ × ℕ} (hs : P s.1)
    (hM : P s.1 → P (M c s.1).2) : P (flaky M missing fails c s).2.1 := by
  unfold flaky
  split
  · exact hM hs
  · split_ifs
    · exact hs
    · exact hM hs

/-- A program that issues only calls that cannot fail runs as on the machine itself. -/
theorem run_flaky_sure {p : Program I ε α} (h : Issues (fun c => missing c = none) p) (s : σ)
    (n : ℕ) : run (flaky M missing fails) p (s, n) = ((run M p s).1, ((run M p s).2, n)) := by
  induction p generalizing s with
  | done o => rfl
  | call c next ih =>
    rw [run_call, run_call, flaky_sure M fails h.1]
    exact ih _ (h.2 _) _

variable (missing) {fails} in
theorem run_flaky_never (h : ∀ n c, fails n c = false) (p : Program I ε α) (s : σ × ℕ) :
    (run (flaky M missing fails) p s).1 = (run M p s.1).1 ∧
      (run (flaky M missing fails) p s).2.1 = (run M p s.1).2 := by
  induction p generalizing s with
  | done o => exact ⟨rfl, rfl⟩
  | call c next ih =>
    have hstep : (flaky M missing fails c s).1 = (M c s.1).1 ∧
        (flaky M missing fails c s).2.1 = (M c s.1).2 := by
      unfold flaky
      split <;> simp [h]
    rw [run_call, run_call, hstep.1, ← hstep.2]
    exact ih _ _

end EncryptedTransfer.Interaction.Program
