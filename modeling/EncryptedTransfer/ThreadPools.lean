import EncryptedTransfer.Interaction

/-!
# Threads over one shared state

Any number of threads run the same looping program call by call against one state. The
calls are atomic, the threads take turns in any order, and what has happened is recorded as
a trace, newest event first. A property of the state and the trace that every allowed call
preserves holds throughout a run.
-/
namespace EncryptedTransfer.ThreadPools
open Interaction Program

variable {I : Interface} {ε γ σ ι : Type}

/-- A call a thread has issued, with its answer. -/
structure Event (I : Interface) (ε : Type) where
  thread : ℕ
  call : I.Call
  answer : Except ε (I.Answer call)

abbrev Trace (I : Interface) (ε : Type) := List (Event I ε)

/-- What a monitor has seen of one thread. -/
def seen (W : Monitor I ε γ) (g : γ) (i : ℕ) : Trace I ε → γ
  | [] => g
  | e :: t => if e.thread = i then W.after (seen W g i t) e.call e.answer else seen W g i t

/-- The shared state, what is left of each thread's turn, and the trace. -/
structure Pool (I : Interface) (ε σ : Type) where
  state : σ
  thread : ℕ → Program I ε Bool
  trace : Trace I ε

namespace Pool

def start (body : Program I ε Bool) (s : σ) : Pool I ε σ := ⟨s, fun _ => body, []⟩

variable (M : ι → Machine I ε σ) (body : Program I ε Bool)

/-- A thread issues its next call, or begins a further turn. -/
def step (p : Pool I ε σ) (i : ℕ) (x : ι) : Pool I ε σ :=
  match p.thread i with
  | .call c next =>
    { state := (M x c p.state).2
      thread := Function.update p.thread i (next (M x c p.state).1)
      trace := ⟨i, c, (M x c p.state).1⟩ :: p.trace }
  | .done (.ok true) => { p with thread := Function.update p.thread i body }
  | .done _ => p

variable {M body} {p : Pool I ε σ} {i : ℕ} (x : ι)

theorem step_call {c : I.Call} {next : Except ε (I.Answer c) → Program I ε Bool}
    (h : p.thread i = .call c next) : p.step M body i x =
      ⟨(M x c p.state).2, Function.update p.thread i (next (M x c p.state).1),
        ⟨i, c, (M x c p.state).1⟩ :: p.trace⟩ := by
  simp only [step, h]

theorem step_again (h : p.thread i = .done (.ok true)) :
    p.step M body i x = { p with thread := Function.update p.thread i body } := by
  simp only [step, h]

theorem step_ended {o : Except ε Bool} (h : p.thread i = .done o) (ho : o ≠ .ok true) :
    p.step M body i x = p := by
  unfold step
  split
  · next hc => rw [h] at hc; cases hc
  · next hc => rw [h] at hc; cases hc; exact absurd rfl ho
  · rfl

end Pool

/-- What a run asks of a call: it depends on the state and the trace before the call. -/
abbrev Demand (I : Interface) (ε σ : Type) := σ → Trace I ε → ℕ → I.Call → Prop

/-- The demand on the next call of a thread, if it has one. -/
def Meets (D : Demand I ε σ) (s : σ) (t : Trace I ε) (i : ℕ) : Program I ε Bool → Prop
  | .call c _ => D s t i c
  | .done _ => True

instance (D : Demand I ε σ) [∀ s t i c, Decidable (D s t i c)] (s : σ) (t : Trace I ε) (i : ℕ) :
    (p : Program I ε Bool) → Decidable (Meets D s t i p)
  | .call c _ => inferInstanceAs (Decidable (D s t i c))
  | .done _ => inferInstanceAs (Decidable True)

/-- The runs all of whose calls meet the demand. -/
inductive Run (M : ι → Machine I ε σ) (body : Program I ε Bool) (D : Demand I ε σ) (s : σ) :
    Pool I ε σ → Prop
  | start : Run M body D s (.start body s)
  | step {p : Pool I ε σ} (h : Run M body D s p) (i : ℕ) (x : ι)
      (hD : Meets D p.state p.trace i (p.thread i)) : Run M body D s (p.step M body i x)

theorem Run.step_free {M : ι → Machine I ε σ} {body : Program I ε Bool} {s : σ} {p : Pool I ε σ}
    (h : Run M body (fun _ _ _ _ => True) s p) (i : ℕ) (x : ι) :
    Run M body (fun _ _ _ _ => True) s (p.step M body i x) :=
  h.step i x (by cases p.thread i <;> trivial)

section Schedules

variable (M : ι → Machine I ε σ) (body : Program I ε Bool) (D : Demand I ε σ)

def Pool.play (p : Pool I ε σ) : List (ℕ × ι) → Pool I ε σ
  | [] => p
  | move :: schedule => (p.step M body move.1 move.2).play schedule

/-- Every move of a schedule meets the demand. -/
def Follows (p : Pool I ε σ) : List (ℕ × ι) → Prop
  | [] => True
  | move :: schedule =>
    Meets D p.state p.trace move.1 (p.thread move.1) ∧
      Follows (p.step M body move.1 move.2) schedule

instance [∀ s t i c, Decidable (D s t i c)] :
    (p : Pool I ε σ) → (schedule : List (ℕ × ι)) → Decidable (Follows M body D p schedule)
  | _, [] => inferInstanceAs (Decidable True)
  | p, move :: schedule =>
    have : Decidable (Follows M body D (p.step M body move.1 move.2) schedule) :=
      instDecidableFollows (p.step M body move.1 move.2) schedule
    inferInstanceAs (Decidable (_ ∧ _))

variable {M body D} {s : σ}

theorem Run.play {p : Pool I ε σ} (h : Run M body D s p) {schedule : List (ℕ × ι)}
    (hf : Follows M body D p schedule) : Run M body D s (p.play M body schedule) := by
  induction schedule generalizing p with
  | nil => exact h
  | cons move schedule ih => exact ih (h.step move.1 move.2 hf.1) hf.2

theorem follows_free (p : Pool I ε σ) (schedule : List (ℕ × ι)) :
    Follows M body (fun _ _ _ _ => True) p schedule := by
  induction schedule generalizing p with
  | nil => trivial
  | cons move schedule ih =>
    refine ⟨?_, ih _⟩
    cases p.thread move.1 <;> trivial

end Schedules

variable {M : ι → Machine I ε σ} {body : Program I ε Bool} {D : Demand I ε σ} {s : σ}
variable {W : Monitor I ε γ} {g : γ}

theorem seen_self (i : ℕ) (c : I.Call) (r : Except ε (I.Answer c)) (t : Trace I ε) :
    seen W g i (⟨i, c, r⟩ :: t) = W.after (seen W g i t) c r := by
  rw [seen, if_pos rfl]

theorem seen_other {i j : ℕ} (h : i ≠ j) (c : I.Call) (r : Except ε (I.Answer c))
    (t : Trace I ε) : seen W g i (⟨j, c, r⟩ :: t) = seen W g i t := by
  rw [seen, if_neg (Ne.symm h)]

theorem seen_still {e : Event I ε} (h : ∀ g, W.after g e.call e.answer = g) (i : ℕ)
    (t : Trace I ε) : seen W g i (e :: t) = seen W g i t := by
  rw [seen, h, ite_self]

theorem seen_of_forall_ne {i : ℕ} {t : Trace I ε} (h : ∀ e ∈ t, e.thread ≠ i) :
    seen W g i t = g := by
  induction t with
  | nil => rfl
  | cons e t ih =>
    rw [seen, if_neg (h e List.mem_cons_self)]
    exact ih fun e' he' => h e' (List.mem_cons_of_mem e he')

/-- Where the loop's body obeys a monitor from every state, the rest of every thread's turn
obeys it from what it has seen. -/
theorem Run.obeys (hbody : ∀ g, Obeys W body g fun _ _ => True) {p : Pool I ε σ}
    (h : Run M body D s p) (i : ℕ) : Obeys W (p.thread i) (seen W g i p.trace) fun _ _ => True := by
  induction h generalizing i with
  | start => exact hbody g
  | @step p _ j x _ ih =>
    unfold Pool.step
    split
    · next c next hthread =>
      have hj := ih j
      rw [hthread] at hj
      dsimp only
      by_cases hij : i = j
      · subst hij
        rw [Function.update_self, seen_self]
        exact hj.2 _
      · rw [Function.update_of_ne hij, seen_other hij]
        exact ih i
    · dsimp only
      by_cases hij : i = j
      · subst hij
        rw [Function.update_self]
        exact hbody _
      · rw [Function.update_of_ne hij]
        exact ih i
    · exact ih i

/-- The invariant rule: what every call that is allowed and meets the demand preserves, holds
in every state of the run. -/
theorem Run.invariant (hbody : ∀ g, Obeys W body g fun _ _ => True)
    (Inv : σ → Trace I ε → Prop) (hstart : Inv s [])
    (hcall : ∀ s t i c x, W.allowed (seen W g i t) c → D s t i c → Inv s t →
      Inv (M x c s).2 (⟨i, c, (M x c s).1⟩ :: t))
    {p : Pool I ε σ} (h : Run M body D s p) : Inv p.state p.trace := by
  induction h with
  | start => exact hstart
  | @step p hrun i x hD ih =>
    have hobeys := hrun.obeys (g := g) hbody i
    unfold Pool.step
    split
    · next c next hthread =>
      rw [hthread] at hobeys hD
      exact hcall p.state p.trace i c x hobeys.1 hD ih
    · exact ih
    · exact ih

end EncryptedTransfer.ThreadPools
