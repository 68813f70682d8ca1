import Mathlib.Data.Set.Basic
import Mathlib.Logic.Function.Basic

/-!
# Programs that talk to their surroundings by calls

A program is a finite tree: it is finished, or it issues one call and goes on with the
answer. A call may fail, and a failure is an exception of the program unless it is
attempted. The same program is run to the end against a machine, or followed call by call
where several programs share one state.
-/
namespace EncryptedTransfer.Interaction

/-- The calls a program may issue and the type of the answer to each. -/
structure Interface where
  Call : Type
  Answer : Call → Type

/-- Programs over an interface with exceptions in `ε` and results in `α`. -/
inductive Program (I : Interface) (ε α : Type) : Type where
  | done (outcome : Except ε α)
  | call (c : I.Call) (next : Except ε (I.Answer c) → Program I ε α)

namespace Program

variable {I : Interface} {ε α β γ σ : Type}

/-- Sequencing; an exception skips the continuation. -/
def bind (p : Program I ε α) (f : α → Program I ε β) : Program I ε β :=
  match p with
  | .done (.ok a) => f a
  | .done (.error e) => .done (.error e)
  | .call c next => .call c (fun r => (next r).bind f)

instance : Monad (Program I ε) where
  pure a := .done (.ok a)
  bind := bind

def issue (c : I.Call) : Program I ε (I.Answer c) := .call c .done

def raise (e : ε) : Program I ε α := .done (.error e)

/-- `try p except handler`. -/
def attempt (p : Program I ε α) (handler : ε → Program I ε α) : Program I ε α :=
  match p with
  | .done (.ok a) => .done (.ok a)
  | .done (.error e) => handler e
  | .call c next => .call c (fun r => (next r).attempt handler)

/-- A partial pure computation inside a program. -/
def ofOption (e : ε) : Option α → Program I ε α
  | some a => .done (.ok a)
  | none => .done (.error e)

theorem pure_eq (a : α) : (pure a : Program I ε α) = .done (.ok a) := rfl

theorem bind_eq (p : Program I ε α) (f : α → Program I ε β) : p >>= f = p.bind f := rfl

/-- A machine answers each call and changes its state. -/
abbrev Machine (I : Interface) (ε σ : Type) := (c : I.Call) → σ → Except ε (I.Answer c) × σ

def run (M : Machine I ε σ) : Program I ε α → σ → Except ε α × σ
  | .done o, s => (o, s)
  | .call c next, s => run M (next (M c s).1) (M c s).2

variable (M : Machine I ε σ)

@[simp] theorem run_done (o : Except ε α) (s : σ) : run M (.done o) s = (o, s) := rfl

@[simp] theorem run_call (c : I.Call) (next : Except ε (I.Answer c) → Program I ε α) (s : σ) :
    run M (.call c next) s = run M (next (M c s).1) (M c s).2 := rfl

@[simp] theorem run_pure (a : α) (s : σ) :
    run M (pure a : Program I ε α) s = (.ok a, s) := rfl

@[simp] theorem run_raise (e : ε) (s : σ) :
    run M (raise e : Program I ε α) s = (.error e, s) := rfl

@[simp] theorem run_issue (c : I.Call) (s : σ) : run M (issue c) s = M c s := rfl

@[simp] theorem run_ofOption (e : ε) (o : Option α) (s : σ) :
    run M (ofOption e o : Program I ε α) s =
      match o with
      | some a => (.ok a, s)
      | none => (.error e, s) := by
  cases o <;> rfl

theorem run_keeps {P : σ → Prop} (hM : ∀ c s, P s → P (M c s).2) (p : Program I ε α) {s : σ}
    (hs : P s) : P (run M p s).2 := by
  induction p generalizing s with
  | done o => exact hs
  | call c next ih => exact ih _ (hM c s hs)

/-- What follows a finished first part. -/
def andThen (M : Machine I ε σ) (f : α → Program I ε β) : Except ε α × σ → Except ε β × σ
  | (.ok a, s) => run M (f a) s
  | (.error e, s) => (.error e, s)

@[simp] theorem andThen_ok (f : α → Program I ε β) (a : α) (s : σ) :
    andThen M f (.ok a, s) = run M (f a) s := rfl

@[simp] theorem andThen_error (f : α → Program I ε β) (e : ε) (s : σ) :
    andThen M f (.error e, s) = (.error e, s) := rfl

@[simp] theorem run_bind (p : Program I ε α) (f : α → Program I ε β) (s : σ) :
    run M (p >>= f) s = andThen M f (run M p s) := by
  induction p generalizing s with
  | done o => cases o <;> rfl
  | call c next ih => exact ih _ _

theorem run_bind_pure (p : Program I ε α) (b : β) (s : σ) :
    (run M (p >>= fun _ => pure b) s).2 = (run M p s).2 := by
  rw [run_bind]
  obtain ⟨o, s'⟩ := run M p s
  cases o <;> rfl

/-- What an attempted program does after its body has finished. -/
def recover (M : Machine I ε σ) (handler : ε → Program I ε α) :
    Except ε α × σ → Except ε α × σ
  | (.ok a, s) => (.ok a, s)
  | (.error e, s) => run M (handler e) s

@[simp] theorem recover_ok (handler : ε → Program I ε α) (a : α) (s : σ) :
    recover M handler (.ok a, s) = (.ok a, s) := rfl

@[simp] theorem recover_error (handler : ε → Program I ε α) (e : ε) (s : σ) :
    recover M handler (.error e, s) = run M (handler e) s := rfl

@[simp] theorem run_attempt (p : Program I ε α) (handler : ε → Program I ε α) (s : σ) :
    run M (p.attempt handler) s = recover M handler (run M p s) := by
  induction p generalizing s with
  | done o => cases o <;> rfl
  | call c next ih => exact ih _ _

@[simp] theorem run_ite (b : Prop) [Decidable b] (p q : Program I ε α) (s : σ) :
    run M (if b then p else q) s = if b then run M p s else run M q s := by
  split <;> rfl

/-- A ghost automaton over calls: which calls are allowed, and what an answer changes. -/
structure Monitor (I : Interface) (ε γ : Type) where
  allowed : γ → I.Call → Prop
  after : γ → (c : I.Call) → Except ε (I.Answer c) → γ

/-- Every path of the program is a path of the monitor, and it ends in `Q`. -/
def Obeys (W : Monitor I ε γ) : Program I ε α → γ → (γ → Except ε α → Prop) → Prop
  | .done o, g, Q => Q g o
  | .call c next, g, Q => W.allowed g c ∧ ∀ r, Obeys W (next r) (W.after g c r) Q

variable {W : Monitor I ε γ}

theorem Obeys.mono {p : Program I ε α} {g : γ} {Q R : γ → Except ε α → Prop}
    (h : Obeys W p g Q) (hQR : ∀ g o, Q g o → R g o) : Obeys W p g R := by
  induction p generalizing g with
  | done o => exact hQR g o h
  | call c next ih => exact ⟨h.1, fun r => ih r (h.2 r)⟩

/-- The rule for sequencing: the exception path keeps the postcondition too. -/
theorem Obeys.bind {p : Program I ε α} {f : α → Program I ε β} {g : γ}
    {Q : γ → Except ε β → Prop}
    (h : Obeys W p g (fun g o => match o with
      | .ok a => Obeys W (f a) g Q
      | .error e => Q g (.error e))) : Obeys W (p >>= f) g Q := by
  induction p generalizing g with
  | done o =>
    cases o with
    | ok a => exact h
    | error e => exact h
  | call c next ih => exact ⟨h.1, fun r => ih r (h.2 r)⟩

theorem Obeys.attempt {p : Program I ε α} {handler : ε → Program I ε α} {g : γ}
    {Q : γ → Except ε α → Prop}
    (h : Obeys W p g (fun g o => match o with
      | .ok a => Q g (.ok a)
      | .error e => Obeys W (handler e) g Q)) : Obeys W (p.attempt handler) g Q := by
  induction p generalizing g with
  | done o =>
    cases o with
    | ok a => exact h
    | error e => exact h
  | call c next ih => exact ⟨h.1, fun r => ih r (h.2 r)⟩

/-- The rule for sequencing where the exception path is free. -/
theorem Obeys.seq {p : Program I ε α} {f : α → Program I ε β} {g : γ}
    (h : Obeys W p g (fun g o => ∀ a, o = .ok a → Obeys W (f a) g (fun _ _ => True))) :
    Obeys W (p >>= f) g (fun _ _ => True) := by
  apply Obeys.bind
  apply h.mono
  intro g o hg
  cases o with
  | ok a => exact hg a rfl
  | error e => trivial

theorem Obeys.issue {c : I.Call} {g : γ} {Q : γ → Except ε (I.Answer c) → Prop}
    (hc : W.allowed g c) (h : ∀ r, Q (W.after g c r) r) : Obeys W (issue c) g Q :=
  ⟨hc, fun r => h r⟩

theorem Obeys.ofOption {e : ε} {o : Option α} {g : γ} {Q : γ → Except ε α → Prop}
    (hs : ∀ a, o = some a → Q g (.ok a)) (hn : Q g (.error e)) :
    Obeys W (ofOption e o) g Q := by
  cases o with
  | none => exact hn
  | some a => exact hs a rfl

/-- A relation between ghost state and machine state that every allowed call keeps holds at the
end of a run, with the postcondition. -/
theorem Obeys.run {p : Program I ε α} {g : γ} {Q : γ → Except ε α → Prop} (h : Obeys W p g Q)
    {R : γ → σ → Prop} (hM : ∀ g c s, W.allowed g c → R g s → R (W.after g c (M c s).1) (M c s).2)
    {s : σ} (hs : R g s) : ∃ g', R g' (run M p s).2 ∧ Q g' (run M p s).1 := by
  induction p generalizing g s with
  | done o => exact ⟨g, hs, h⟩
  | call c next ih => exact ih _ (h.2 _) (hM g c s h.1 hs)

def only (A : I.Call → Prop) : Monitor I ε Unit := ⟨fun _ c => A c, fun g _ _ => g⟩

/-- A program all of whose calls are in `A`. -/
def Issues (A : I.Call → Prop) (p : Program I ε α) : Prop :=
  Obeys (only A) p () (fun _ _ => True)

variable {A B : I.Call → Prop}

theorem Issues.done (o : Except ε α) : Issues A (.done o : Program I ε α) := trivial

theorem Issues.issue {c : I.Call} (h : A c) : Issues A (issue c : Program I ε _) :=
  ⟨h, fun _ => trivial⟩

theorem Issues.ofOption (e : ε) (o : Option α) : Issues A (ofOption e o : Program I ε α) := by
  cases o <;> trivial

theorem Issues.bind {p : Program I ε α} {f : α → Program I ε β} (hp : Issues A p)
    (hf : ∀ a, Issues A (f a)) : Issues A (p >>= f) := by
  apply Obeys.bind
  apply hp.mono
  intro g o _
  cases o with
  | ok a => exact hf a
  | error e => trivial

theorem Issues.attempt {p : Program I ε α} {handler : ε → Program I ε α} (hp : Issues A p)
    (hh : ∀ e, Issues A (handler e)) : Issues A (p.attempt handler) := by
  apply Obeys.attempt
  apply hp.mono
  intro g o _
  cases o with
  | ok a => trivial
  | error e => exact hh e

theorem Issues.mono {p : Program I ε α} (hp : Issues A p) (h : ∀ c, A c → B c) :
    Issues B p := by
  induction p with
  | done o => trivial
  | call c next ih => exact ⟨h c hp.1, fun r => ih r (hp.2 r)⟩

theorem Issues.obeys {p : Program I ε α} (hp : Issues A p)
    (h : ∀ g c, A c → W.allowed g c) (g : γ) : Obeys W p g (fun _ _ => True) := by
  induction p generalizing g with
  | done o => trivial
  | call c next ih => exact ⟨h g c hp.1, fun r => ih r (hp.2 r) _⟩

theorem Issues.obeys_stays {p : Program I ε α} (hp : Issues A p) {g : γ}
    (h : ∀ c, A c → W.allowed g c ∧ ∀ r, W.after g c r = g) : Obeys W p g (fun g' _ => g' = g) := by
  induction p with
  | done o => rfl
  | call c next ih =>
    obtain ⟨hallowed, hafter⟩ := h c hp.1
    refine ⟨hallowed, fun r => ?_⟩
    rw [hafter r]
    exact ih r (hp.2 r)

/-- A property every issued call preserves is preserved by the run. -/
theorem Issues.run_preserves {p : Program I ε α} (hp : Issues A p) {P : σ → Prop}
    (hM : ∀ c s, A c → P s → P (M c s).2) {s : σ} (hs : P s) : P (run M p s).2 := by
  induction p generalizing s with
  | done o => exact hs
  | call c next ih => exact ih _ (hp.2 _) (hM c s hp.1 hs)

end Program

end EncryptedTransfer.Interaction
