import Mathlib.Data.List.Basic

/-!
# Parties that each see a part of one state

Every action is one party's: it changes that party's view by what the view was, and no other
view. After a run each view, and each party's answers, then depend on that party's own actions
alone, in whatever order the parties take turns. A time beside each action may differ from run to
run and is seen in no view.
-/
namespace EncryptedTransfer.SeparateViews

variable {σ κ τ ι ν ρ : Type}

/-- An action of a party at a time changes the state and is answered. -/
abbrev Step (σ κ τ ρ : Type) := κ → τ → σ → σ × ρ

def run (step : Step σ κ τ ρ) : List (κ × τ) → σ → σ
  | [], s => s
  | a :: l, s => run step l (step a.1 a.2 s).1

variable [DecidableEq ι] (who : κ → ι)

/-- The actions of one party, in order. -/
def actionsOf (x : ι) (l : List (κ × τ)) : List κ :=
  (l.map Prod.fst).filter (fun a => who a = x)

/-- What one party is answered during a schedule. -/
def answersTo (step : Step σ κ τ ρ) (x : ι) : List (κ × τ) → σ → List ρ
  | [], _ => []
  | a :: l, s =>
    if who a.1 = x then (step a.1 a.2 s).2 :: answersTo step x l (step a.1 a.2 s).1
    else answersTo step x l (step a.1 a.2 s).1

/-- The actions in `Allowed`, in the states of an invariant, keep the views apart. -/
structure Separate (step : Step σ κ τ ρ) (view : ι → σ → ν) (Allowed : κ → Prop)
    (Inv : σ → Prop) : Prop where
  keeps : ∀ a t s, Allowed a → Inv s → Inv (step a t s).1
  others : ∀ a t s x, Allowed a → Inv s → x ≠ who a → view x (step a t s).1 = view x s
  own : ∀ a t t' s s', Allowed a → Inv s → Inv s' → view (who a) s = view (who a) s' →
    view (who a) (step a t s).1 = view (who a) (step a t' s').1 ∧
      (step a t s).2 = (step a t' s').2

variable {who} {step : Step σ κ τ ρ} {view : ι → σ → ν} {Allowed : κ → Prop} {Inv : σ → Prop}

theorem actionsOf_cons_own {x : ι} {a : κ × τ} (h : who a.1 = x) (l : List (κ × τ)) :
    actionsOf who x (a :: l) = a.1 :: actionsOf who x l := by
  simp [actionsOf, h]

theorem actionsOf_cons_other {x : ι} {a : κ × τ} (h : who a.1 ≠ x) (l : List (κ × τ)) :
    actionsOf who x (a :: l) = actionsOf who x l := by
  simp [actionsOf, h]

namespace Separate

variable (h : Separate who step view Allowed Inv)
include h

omit [DecidableEq ι] in
theorem run_keeps {l : List (κ × τ)} (hl : ∀ a ∈ l, Allowed a.1) {s : σ} (hs : Inv s) :
    Inv (run step l s) := by
  induction l generalizing s with
  | nil => exact hs
  | cons a l ih =>
    have hstep := h.keeps a.1 a.2 s (hl a List.mem_cons_self) hs
    exact ih (fun b hb => hl b (List.mem_cons_of_mem a hb)) hstep

theorem run_idle {x : ι} {l : List (κ × τ)} (hl : ∀ a ∈ l, Allowed a.1) {s : σ} (hs : Inv s)
    (hidle : actionsOf who x l = []) :
    view x (run step l s) = view x s ∧ answersTo who step x l s = [] := by
  induction l generalizing s with
  | nil => exact ⟨rfl, rfl⟩
  | cons a l ih =>
    have ha := hl a List.mem_cons_self
    by_cases hx : who a.1 = x
    · rw [actionsOf_cons_own hx] at hidle
      cases hidle
    · rw [actionsOf_cons_other hx] at hidle
      obtain ⟨hview, hanswers⟩ := ih (fun b hb => hl b (List.mem_cons_of_mem a hb))
        (h.keeps a.1 a.2 s ha hs) hidle
      constructor
      · exact hview.trans (h.others a.1 a.2 s x ha hs (Ne.symm hx))
      · rw [answersTo, if_neg hx]
        exact hanswers

/-- The first action of a party can be brought forward. -/
theorem run_first {x : ι} {b : κ} {bs : List κ} {l : List (κ × τ)} (hl : ∀ a ∈ l, Allowed a.1)
    {s : σ} (hs : Inv s) (hfirst : actionsOf who x l = b :: bs) :
    ∃ t l' s', (∀ a ∈ l', Allowed a.1) ∧ Allowed b ∧ who b = x ∧ Inv s' ∧ view x s' = view x s ∧
      actionsOf who x l' = bs ∧ run step l s = run step l' (step b t s').1 ∧
      answersTo who step x l s = (step b t s').2 :: answersTo who step x l' (step b t s').1 := by
  induction l generalizing s with
  | nil => cases hfirst
  | cons a l ih =>
    have ha := hl a List.mem_cons_self
    have hrest := fun b hb => hl b (List.mem_cons_of_mem a hb)
    by_cases hx : who a.1 = x
    · rw [actionsOf_cons_own hx] at hfirst
      obtain ⟨rfl, rfl⟩ := List.cons.inj hfirst
      refine ⟨a.2, l, s, hrest, ha, hx, hs, rfl, rfl, rfl, ?_⟩
      rw [answersTo, if_pos hx]
    · rw [actionsOf_cons_other hx] at hfirst
      obtain ⟨t, l', s', hl', hb, hwho, hs', hview, hbs, hrun, hanswers⟩ :=
        ih hrest (h.keeps a.1 a.2 s ha hs) hfirst
      refine ⟨t, l', s', hl', hb, hwho, hs', ?_, hbs, hrun, ?_⟩
      · exact hview.trans (h.others a.1 a.2 s x ha hs (Ne.symm hx))
      · rw [answersTo, if_neg hx]
        exact hanswers

/-- What a party sees after a schedule, and is answered, depends on its own actions alone. -/
theorem run_view {x : ι} {l l' : List (κ × τ)} (hl : ∀ a ∈ l, Allowed a.1)
    (hl' : ∀ a ∈ l', Allowed a.1) {s s' : σ} (hs : Inv s) (hs' : Inv s')
    (hview : view x s = view x s') (hsame : actionsOf who x l = actionsOf who x l') :
    view x (run step l s) = view x (run step l' s') ∧
      answersTo who step x l s = answersTo who step x l' s' := by
  induction hb : actionsOf who x l generalizing l l' s s' with
  | nil =>
    obtain ⟨hv, ha⟩ := h.run_idle hl hs hb
    obtain ⟨hv', ha'⟩ := h.run_idle hl' hs' (hsame.symm.trans hb)
    exact ⟨hv.trans (hview.trans hv'.symm), ha.trans ha'.symm⟩
  | cons b bs ih =>
    obtain ⟨t, r, u, hr, hallowed, rfl, hu, huview, hrest, hrun, hanswers⟩ := h.run_first hl hs hb
    obtain ⟨t', r', u', hr', _, _, hu', huview', hrest', hrun', hanswers'⟩ :=
      h.run_first hl' hs' (hsame.symm.trans hb)
    have hstart : view (who b) u = view (who b) u' := huview.trans (hview.trans huview'.symm)
    obtain ⟨hstep, hanswer⟩ := h.own b t t' u u' hallowed hu hu' hstart
    have hnext := ih hr hr' (h.keeps b t u hallowed hu) (h.keeps b t' u' hallowed hu') hstep
      (hrest.trans hrest'.symm) hrest
    rw [hrun, hrun', hanswers, hanswers', hanswer, hnext.2]
    exact ⟨hnext.1, rfl⟩

end Separate

end EncryptedTransfer.SeparateViews
