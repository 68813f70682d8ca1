import Mathlib.Logic.Function.Basic
import Mathlib.Data.Nat.Notation

/-!
# Loops

A loop runs its body on what it has until the body leaves it. With a bound on the rounds it is a
function; it returns where some bound is enough.
-/
namespace EncryptedTransfer.Loops

variable {σ β : Type*} {body : σ → σ ⊕ β}

/-- The loop, for at most `fuel` rounds. The body goes on with what it has on the left, and leaves
the loop with what it has on the right. -/
def rounds (body : σ → σ ⊕ β) : ℕ → σ → Option β
  | 0, _ => none
  | fuel + 1, s =>
    match body s with
    | .inl s' => rounds body fuel s'
    | .inr b => some b

/-- The loop ends, and this is what it leaves with. -/
def Returns (body : σ → σ ⊕ β) (s : σ) (b : β) : Prop := ∃ fuel, rounds body fuel s = some b

theorem rounds_exit {s : σ} {b : β} (h : body s = .inr b) (fuel : ℕ) :
    rounds body (fuel + 1) s = some b := by simp only [rounds, h]

theorem rounds_next {s s' : σ} (h : body s = .inl s') (fuel : ℕ) :
    rounds body (fuel + 1) s = rounds body fuel s' := by simp only [rounds, h]

theorem Returns.exit {s : σ} {b : β} (h : body s = .inr b) : Returns body s b :=
  ⟨1, rounds_exit h 0⟩

theorem Returns.next {s s' : σ} {b : β} (h : body s = .inl s') (hr : Returns body s' b) :
    Returns body s b := by
  obtain ⟨fuel, hfuel⟩ := hr
  exact ⟨fuel + 1, (rounds_next h fuel).trans hfuel⟩

theorem rounds_mono {fuel fuel' : ℕ} (hle : fuel ≤ fuel') {s : σ} {b : β}
    (h : rounds body fuel s = some b) : rounds body fuel' s = some b := by
  induction fuel generalizing fuel' s with
  | zero => cases h
  | succ fuel ih =>
    obtain ⟨n, rfl⟩ : ∃ n, fuel' = n + 1 := ⟨fuel' - 1, by omega⟩
    cases hbody : body s with
    | inl s' =>
      rw [rounds_next hbody] at h ⊢
      exact ih (by omega) h
    | inr b' => rwa [rounds_exit hbody] at h ⊢

/-- A loop leaves with one value. -/
theorem Returns.unique {s : σ} {b b' : β} (h : Returns body s b) (h' : Returns body s b') :
    b = b' := by
  obtain ⟨fuel, hfuel⟩ := h
  obtain ⟨fuel', hfuel'⟩ := h'
  have hmax := rounds_mono (Nat.le_max_left fuel fuel') hfuel
  rw [rounds_mono (Nat.le_max_right fuel fuel') hfuel'] at hmax
  exact (Option.some.inj hmax).symm

end EncryptedTransfer.Loops
