import Mathlib.Data.List.Induction
import Mathlib.Tactic.SplitIfs
import Mathlib.Data.Option.Basic

/-!
# An index of cards and its history

The abstract index: a card for every key, with a name, what was last noted under the name, and
when the card was last seen. `Standing` says the same of a history without running it.
-/
namespace EncryptedTransfer.CardIndex

variable {K N A T : Type}

inductive Act (K N A T : Type) where
  | enrol (k : K) (n : N) (t : T)
  | note (n : N) (a : A) (t : T)
  | see (k : K) (t : T)
  deriving DecidableEq

structure Card (K N A T : Type) where
  key : K
  name : N
  noted : Option A
  seen : T

variable [DecidableEq K] [DecidableEq N]

def Act.noteOf (n : N) : Act K N A T → Option A
  | note n' a _ => if n' = n then some a else none
  | _ => none

def Act.timeOf (k : K) (n : N) : Act K N A T → Option T
  | enrol _ _ _ => none
  | note n' _ t => if n' = n then some t else none
  | see k' t => if k' = k then some t else none

def Act.enrolled : Act K N A T → Option (K × N)
  | enrol k n _ => some (k, n)
  | _ => none

def last {B : Type} (f : Act K N A T → Option B) (acts : List (Act K N A T)) : Option B :=
  (acts.filterMap f).getLast?

/-- The card made at a time, after these acts: what they noted last, and when they saw it last. -/
def Card.made (k : K) (n : N) (t : T) (after : List (Act K N A T)) : Card K N A T :=
  ⟨k, n, last (Act.noteOf n) after, (last (Act.timeOf k n) after).getD t⟩

def Standing (acts : List (Act K N A T)) (c : Card K N A T) : Prop :=
  ∃ before k n t after, acts = before ++ .enrol k n t :: after ∧ c = .made k n t after

def Card.update (c : Card K N A T) : Act K N A T → Card K N A T
  | .enrol _ _ _ => c
  | .note n a t => if c.name = n then { c with noted := some a, seen := t } else c
  | .see k t => if c.key = k then { c with seen := t } else c

def apply (cards : List (Card K N A T)) : Act K N A T → List (Card K N A T)
  | .enrol k n t => cards ++ [⟨k, n, none, t⟩]
  | .note n a t => cards.map (fun c => c.update (.note n a t))
  | .see k t => cards.map (fun c => c.update (.see k t))

def index (acts : List (Act K N A T)) : List (Card K N A T) := acts.foldl apply []

theorem index_append_singleton (acts : List (Act K N A T)) (act : Act K N A T) :
    index (acts ++ [act]) = apply (index acts) act := by
  simp [index, List.foldl_append]

omit [DecidableEq K] [DecidableEq N] in
theorem last_append_singleton {B : Type} (f : Act K N A T → Option B) (acts : List (Act K N A T))
    (act : Act K N A T) : last f (acts ++ [act]) = (f act).or (last f acts) := by
  cases h : f act <;> simp [last, List.filterMap_append, h]

theorem made_append_singleton (k : K) (n : N) (t : T) (after : List (Act K N A T))
    (act : Act K N A T) :
    Card.made k n t (after ++ [act]) = (Card.made k n t after).update act := by
  simp only [Card.made, last_append_singleton]
  cases act with
  | enrol k' n' t' => rfl
  | note n' a t' =>
    by_cases h : n' = n
    · simp [Card.update, Act.noteOf, Act.timeOf, h]
    · simp [Card.update, Act.noteOf, Act.timeOf, h, Ne.symm h]
  | see k' t' =>
    by_cases h : k' = k
    · simp [Card.update, Act.noteOf, Act.timeOf, h]
    · simp [Card.update, Act.noteOf, Act.timeOf, h, Ne.symm h]

theorem standing_nil (c : Card K N A T) : ¬ Standing [] c := by
  simp [Standing]

theorem standing_append_singleton {acts : List (Act K N A T)} {act : Act K N A T}
    {c : Card K N A T} : Standing (acts ++ [act]) c ↔
      (∃ c', Standing acts c' ∧ c'.update act = c) ∨
        ∃ k n t, act = .enrol k n t ∧ c = ⟨k, n, none, t⟩ := by
  constructor
  · rintro ⟨before, k, n, t, after, he, rfl⟩
    rcases List.eq_nil_or_concat after with rfl | ⟨after, act', rfl⟩
    · obtain ⟨-, hact⟩ := List.append_inj' he rfl
      exact .inr ⟨k, n, t, (List.cons.inj hact).1, rfl⟩
    · rw [List.concat_eq_append, ← List.cons_append, ← List.append_assoc] at he
      obtain ⟨rfl, hact⟩ := List.append_inj' he rfl
      obtain rfl := (List.cons.inj hact).1
      rw [List.concat_eq_append, made_append_singleton]
      exact .inl ⟨_, ⟨before, k, n, t, after, rfl, rfl⟩, rfl⟩
  · rintro (⟨c', ⟨before, k, n, t, after, rfl, rfl⟩, rfl⟩ | ⟨k, n, t, rfl, rfl⟩)
    · exact ⟨before, k, n, t, after ++ [act], by simp, (made_append_singleton ..).symm⟩
    · exact ⟨acts, k, n, t, [], rfl, rfl⟩

@[simp] theorem Card.update_key (c : Card K N A T) (act : Act K N A T) :
    (c.update act).key = c.key := by
  unfold update
  split
  · rfl
  · split_ifs <;> rfl
  · split_ifs <;> rfl

@[simp] theorem Card.update_name (c : Card K N A T) (act : Act K N A T) :
    (c.update act).name = c.name := by
  unfold update
  split
  · rfl
  · split_ifs <;> rfl
  · split_ifs <;> rfl

theorem index_enrolled (acts : List (Act K N A T)) :
    (index acts).map (fun c => (c.key, c.name)) = acts.filterMap Act.enrolled := by
  induction acts using List.reverseRecOn with
  | nil => rfl
  | append_singleton acts act ih =>
    rw [index_append_singleton, List.filterMap_append, ← ih]
    cases act <;> simp [apply, Act.enrolled, Function.comp_def]

/-- The cards are those that stand. -/
theorem mem_index {acts : List (Act K N A T)} {c : Card K N A T} :
    c ∈ index acts ↔ Standing acts c := by
  induction acts using List.reverseRecOn generalizing c with
  | nil => simp [index, standing_nil]
  | append_singleton acts act ih =>
    rw [index_append_singleton, standing_append_singleton]
    cases act with
    | enrol k n t => simp [apply, Card.update, ih]
    | note n a t => simp [apply, ih]
    | see k t => simp [apply, ih]

end EncryptedTransfer.CardIndex
