import Mathlib.Data.List.Basic
import Mathlib.Data.List.Forall2

/-!
# Partial transfers

A call that is given a buffer moves some of it: at least one element, at most all, or nothing
where it fails. What one call leaves out the next one does not make up for.
-/
namespace EncryptedTransfer.PartialTransfers

variable {α : Type*}

/-- What is moved of a buffer: nothing where the call fails, `n + 1` elements or all there are
otherwise. -/
def moved (outcome : Option ℕ) (buffer : List α) : List α :=
  outcome.elim [] fun n => buffer.take (n + 1)

/-- What is moved of the buffers, one call each. -/
def movedOf : (ℕ → Option ℕ) → List (List α) → List (List α)
  | _, [] => []
  | outcomes, buffer :: buffers =>
    moved (outcomes 0) buffer :: movedOf (fun k => outcomes (k + 1)) buffers

def Whole (outcome : Option ℕ) (buffer : List α) : Prop :=
  buffer = [] ∨ ∃ n, outcome = some n ∧ buffer.length ≤ n + 1

section Calls

variable {outcome : Option ℕ} {outcomes : ℕ → Option ℕ} {buffer : List α}

theorem length_moved_le : (moved outcome buffer).length ≤ buffer.length := by
  cases outcome with
  | none => exact Nat.zero_le _
  | some n => exact List.length_take_le' _ _

theorem moved_eq_iff : moved outcome buffer = buffer ↔ Whole outcome buffer := by
  cases outcome with
  | none => simp [moved, Whole, eq_comm]
  | some n =>
    rw [moved, Option.elim_some, Whole]
    constructor
    · intro htake
      refine .inr ⟨n, rfl, ?_⟩
      rw [← htake]
      exact List.length_take_le _ _
    · rintro (rfl | ⟨m, hm, hle⟩)
      · exact List.take_nil
      · obtain rfl := Option.some.inj hm
        exact List.take_of_length_le hle

theorem moved_eq_field_iff {field : List α} (hle : buffer.length ≤ field.length) :
    moved outcome buffer = field ↔ buffer = field ∧ Whole outcome buffer := by
  rw [← moved_eq_iff]
  constructor
  · rintro rfl
    have hstarts : moved outcome buffer <+: buffer := by
      cases outcome with
      | none => exact List.nil_prefix
      | some n => exact List.take_prefix _ _
    have heq := hstarts.eq_of_length_le hle
    exact ⟨heq.symm, heq⟩
  · rintro ⟨rfl, hmoved⟩
    exact hmoved

/-- Parts no longer than the fields they stand for make up the fields only if each does. -/
theorem flatten_eq_iff {parts fields : List (List α)}
    (h : List.Forall₂ (fun part field => part.length ≤ field.length) parts fields) :
    parts.flatten = fields.flatten ↔ parts = fields := by
  have hle {parts fields : List (List α)}
      (h : List.Forall₂ (fun part field => part.length ≤ field.length) parts fields) :
      parts.flatten.length ≤ fields.flatten.length := by
    induction h with
    | nil => exact Nat.le_refl _
    | cons hfirst _ ih =>
      rw [List.flatten_cons, List.flatten_cons, List.length_append, List.length_append]
      exact Nat.add_le_add hfirst ih
  refine ⟨fun hflat => ?_, fun heq => heq ▸ rfl⟩
  induction h with
  | nil => rfl
  | cons hfirst hrest ih =>
    rw [List.flatten_cons, List.flatten_cons] at hflat
    have hlength := congrArg List.length hflat
    rw [List.length_append, List.length_append] at hlength
    have hrests := hle hrest
    obtain ⟨rfl, hflat'⟩ := List.append_inj hflat (by omega)
    rw [ih hflat']

/-- The calls move the fields exactly where each buffer is its field and is moved whole. -/
theorem movedOf_flatten_iff {buffers fields : List (List α)}
    (h : List.Forall₂ (fun buffer field => buffer.length ≤ field.length) buffers fields) :
    (movedOf outcomes buffers).flatten = fields.flatten ↔
      buffers = fields ∧ ∀ k buffer, buffers[k]? = some buffer → Whole (outcomes k) buffer := by
  have hmoved : List.Forall₂ (fun part field => part.length ≤ field.length)
      (movedOf outcomes buffers) fields := by
    induction h generalizing outcomes with
    | nil => exact .nil
    | cons hfirst _ ih => exact .cons (Nat.le_trans length_moved_le hfirst) ih
  rw [flatten_eq_iff hmoved]
  clear hmoved
  induction h generalizing outcomes with
  | nil => simp [movedOf]
  | cons hfirst hrest ih =>
    have hothers := @ih fun k => outcomes (k + 1)
    rw [movedOf, List.cons.injEq, List.cons.injEq, moved_eq_field_iff hfirst]
    refine (and_congr_right' hothers).trans ?_
    constructor
    · rintro ⟨⟨rfl, hwhole⟩, rfl, hall⟩
      refine ⟨⟨rfl, rfl⟩, fun k other hother => ?_⟩
      cases k with
      | zero =>
        obtain rfl := Option.some.inj hother
        exact hwhole
      | succ k => exact hall k other hother
    · rintro ⟨⟨rfl, rfl⟩, hall⟩
      exact ⟨⟨rfl, hall 0 _ rfl⟩, rfl, fun k other hother => hall (k + 1) other hother⟩

end Calls

end EncryptedTransfer.PartialTransfers
