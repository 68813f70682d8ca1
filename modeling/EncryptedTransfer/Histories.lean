import Mathlib.Data.List.Induction

/-!
# Histories

A history is a list of events, the first one first. What an event may depend on is what came
before it.
-/
namespace EncryptedTransfer.Histories

variable {α : Type*}

/-- Every event stands in `R` to what came before it. -/
def Justified (R : List α → α → Prop) (history : List α) : Prop :=
  ∀ past event future, history = past ++ event :: future → R past event

/-- The last event with `p`, and what came after it. -/
structure LastOf (p : α → Prop) (history : List α) (event : α) (since : List α) : Prop where
  holds : p event
  split : ∃ earlier, history = earlier ++ event :: since
  none_since : ∀ other ∈ since, ¬ p other

section Justified

variable {R : List α → α → Prop} {history : List α} {event : α}

theorem justified_nil : Justified R [] := by
  intro past event future h
  simp at h

theorem justified_concat :
    Justified R (history ++ [event]) ↔ Justified R history ∧ R history event := by
  constructor
  · intro h
    refine ⟨?_, h history event [] rfl⟩
    intro past event' future hsplit
    exact h past event' (future ++ [event]) (by simp [hsplit])
  · rintro ⟨hhistory, hevent⟩ past event' future hsplit
    rcases List.eq_nil_or_concat future with rfl | ⟨init, last, rfl⟩
    · obtain ⟨rfl, heq⟩ := List.append_inj' hsplit rfl
      obtain rfl := List.singleton_inj.mp heq
      exact hevent
    · have hsplit' : history ++ [event] = (past ++ event' :: init) ++ [last] := by
        rw [hsplit, List.concat_eq_append, List.append_assoc, List.cons_append]
      exact hhistory past event' init (List.append_inj' hsplit' rfl).1

theorem justified_append {events : List α} (h : ∀ event ∈ events, ∀ past, R past event) :
    Justified R (history ++ events) ↔ Justified R history := by
  induction events using List.reverseRecOn with
  | nil => rw [List.append_nil]
  | append_singleton events event ih =>
    have hevent : R (history ++ events) event := h event (by simp) _
    rw [← List.append_assoc, justified_concat, and_iff_left hevent]
    exact ih fun other hother => h other (List.mem_append_left _ hother)

theorem justified_always {p : α → Prop} :
    Justified (fun _ => p) history ↔ ∀ event ∈ history, p event := by
  constructor
  · intro h event hmem
    obtain ⟨past, future, hsplit⟩ := List.append_of_mem hmem
    exact h past event future hsplit
  · rintro h past event future rfl
    exact h event (List.mem_append_right _ List.mem_cons_self)

/-- A run whose steps add events that are justified exactly where the step fits: all its events
are, exactly where all its steps fit. -/
theorem justified_run {σ ι : Type*} {step : σ → ι → σ} {events : σ → List α} {Inv : σ → Prop}
    {Fits : σ → ι → Prop}
    (hstep : ∀ s i, Inv s → Inv (step s i) ∧
      (Justified R (events (step s i)) ↔ Justified R (events s) ∧ Fits s i))
    {s : σ} (hinv : Inv s) (hstart : Justified R (events s)) (steps : List ι) :
    Inv (steps.foldl step s) ∧ (Justified R (events (steps.foldl step s)) ↔
      Justified (fun past i => Fits (past.foldl step s) i) steps) := by
  induction steps using List.reverseRecOn with
  | nil => exact ⟨hinv, iff_of_true hstart justified_nil⟩
  | append_singleton steps i ih =>
    obtain ⟨hkept, hiff⟩ := ih
    obtain ⟨hkept', hiff'⟩ := hstep _ i hkept
    rw [List.foldl_append, justified_concat, ← hiff]
    exact ⟨hkept', hiff'⟩

end Justified

section LastOf

variable {p : α → Prop} {history since : List α} {event last : α}

theorem lastOf_concat (h : ¬ p event) : LastOf p (history ++ [event]) last since ↔
    ∃ since', since = since' ++ [event] ∧ LastOf p history last since' := by
  constructor
  · intro hlast
    obtain ⟨earlier, hsplit⟩ := hlast.split
    rcases List.eq_nil_or_concat since with rfl | ⟨since', final, rfl⟩
    · obtain ⟨-, heq⟩ := List.append_inj' hsplit rfl
      obtain rfl := List.singleton_inj.mp heq
      exact absurd hlast.holds h
    · have hsplit' : history ++ [event] = (earlier ++ last :: since') ++ [final] := by
        rw [hsplit, List.concat_eq_append, List.append_assoc, List.cons_append]
      obtain ⟨hhistory, heq⟩ := List.append_inj' hsplit' rfl
      obtain rfl := List.singleton_inj.mp heq
      rw [List.concat_eq_append]
      refine ⟨since', rfl, hlast.holds, ⟨earlier, hhistory⟩, ?_⟩
      intro other hother
      exact hlast.none_since other (by simp [hother])
  · rintro ⟨since', rfl, hlast⟩
    obtain ⟨earlier, rfl⟩ := hlast.split
    refine ⟨hlast.holds, ⟨earlier, by simp⟩, ?_⟩
    intro other hother
    rcases List.mem_append.mp hother with hbefore | hnow
    · exact hlast.none_since other hbefore
    · rwa [List.mem_singleton.mp hnow]

theorem LastOf.unique {last' : α} {since' : List α} (h : LastOf p history last since)
    (h' : LastOf p history last' since') : last = last' := by
  induction history using List.reverseRecOn generalizing since since' with
  | nil =>
    obtain ⟨earlier, hsplit⟩ := h.split
    simp at hsplit
  | append_singleton history event ih =>
    by_cases he : p event
    · have hend {last : α} {since : List α} (h : LastOf p (history ++ [event]) last since) :
          last = event := by
        obtain ⟨earlier, hsplit⟩ := h.split
        rcases List.eq_nil_or_concat since with rfl | ⟨init, final, rfl⟩
        · exact (List.singleton_inj.mp (List.append_inj' hsplit rfl).2).symm
        · have hsplit' : history ++ [event] = (earlier ++ last :: init) ++ [final] := by
            rw [hsplit, List.concat_eq_append, List.append_assoc, List.cons_append]
          obtain rfl := List.singleton_inj.mp (List.append_inj' hsplit' rfl).2
          exact absurd he (h.none_since event (by simp))
      rw [hend h, hend h']
    · obtain ⟨_, -, hbefore⟩ := (lastOf_concat he).mp h
      obtain ⟨_, -, hbefore'⟩ := (lastOf_concat he).mp h'
      exact ih hbefore hbefore'

theorem lastOf_now (h : p event) : LastOf p (history ++ [event]) event [] :=
  ⟨h, ⟨history, rfl⟩, fun _ hother => nomatch hother⟩

/-- What is folded over a history is folded over its last part. -/
theorem LastOf.foldl_eq {β : Type*} (h : LastOf p history last since) (f : β → α → β)
    (hlast : ∀ b b', f b last = f b' last) (b b' : β) :
    history.foldl f b = since.foldl f (f b' last) := by
  obtain ⟨earlier, rfl⟩ := h.split
  rw [List.foldl_append, List.foldl_cons, hlast _ b']

end LastOf

end EncryptedTransfer.Histories
