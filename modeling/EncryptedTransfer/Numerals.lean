import Mathlib.Data.List.DropRight
import Mathlib.Data.List.TakeWhile
import Mathlib.Data.Nat.Digits.Defs

/-!
# Reading decimal numbers

A reader skips spaces, takes a sign and reads digits. One kind of reader takes the digits a text
starts with, another the whole text, where a separator may stand between two digits.
-/
namespace EncryptedTransfer.Numerals

/-- What numbers are written with. -/
structure Alphabet (α : Type*) where
  space : α → Bool
  digit : α → Option ℕ
  plus : α
  minus : α

variable {α : Type*}

def strip (space : α → Bool) (text : List α) : List α :=
  (text.dropWhile space).rdropWhile space

def signed (negative : Bool) (n : ℕ) : ℤ := if negative then -n else n

namespace Alphabet

variable [DecidableEq α] (A : Alphabet α)

def sign : List α → Bool × List α
  | [] => (false, [])
  | a :: text =>
    if a = A.minus then (true, text) else if a = A.plus then (false, text) else (false, a :: text)

def isDigit (a : α) : Bool := (A.digit a).isSome

/-- The number that the digits of a text stand for. -/
def number (text : List α) : ℕ := Nat.ofDigits 10 (text.filterMap A.digit).reverse

/-- The number a text starts with. -/
def leading (text : List α) : Option ℤ :=
  let (negative, text) := A.sign (text.dropWhile A.space)
  let digits := text.takeWhile A.isDigit
  if digits = [] then none else some (signed negative (A.number digits))

/-- The number a text is, of at most `limit` digits unless that is zero. -/
def whole (separator : α) (limit : ℕ) (text : List α) : Option ℤ :=
  let (negative, text) := A.sign (strip A.space text)
  let groups := text.splitOn separator
  if groups.all (fun group => ¬ group.isEmpty ∧ group.all A.isDigit) then
    let digits := groups.flatten
    if limit ≠ 0 ∧ limit < digits.length then none else some (signed negative (A.number digits))
  else none

def Plain (a : α) : Prop := A.space a = false ∧ a ≠ A.minus ∧ a ≠ A.plus

section Plain

variable {A} {text : List α}

omit [DecidableEq α] in
theorem dropWhile_plain (h : ∀ a ∈ text, A.Plain a) : text.dropWhile A.space = text := by
  rw [List.dropWhile_eq_self_iff]
  intro hpos
  simp [(h _ (List.getElem_mem hpos)).1]

omit [DecidableEq α] in
theorem strip_plain (h : ∀ a ∈ text, A.Plain a) : strip A.space text = text := by
  rw [strip, dropWhile_plain h, List.rdropWhile_eq_self_iff]
  intro hne
  simp [(h _ (List.getLast_mem hne)).1]

theorem sign_plain (h : ∀ a ∈ text, A.Plain a) : A.sign text = (false, text) := by
  cases text with
  | nil => rfl
  | cons a text =>
    obtain ⟨-, hminus, hplus⟩ := h a List.mem_cons_self
    rw [sign, if_neg hminus, if_neg hplus]

theorem leading_digits (h : ∀ a ∈ text, A.Plain a) (hdigits : text.all A.isDigit = true)
    (hne : text ≠ []) : A.leading text = some (A.number text : ℤ) := by
  have hall : text.takeWhile A.isDigit = text :=
    List.takeWhile_eq_self_iff.mpr (List.all_eq_true.mp hdigits)
  simp only [leading, dropWhile_plain h, sign_plain h, hall, hne, ↓reduceIte, signed,
    Bool.false_eq_true]

/-- Without spaces, signs and separators a text is read exactly where it is made of digits, and
of no more than the limit. -/
theorem whole_plain {separator : α} (limit : ℕ) (h : ∀ a ∈ text, A.Plain a ∧ a ≠ separator) :
    A.whole separator limit text =
      if (text ≠ [] ∧ text.all A.isDigit) ∧ (limit = 0 ∨ text.length ≤ limit) then
        some (A.number text : ℤ)
      else none := by
  have hplain (a : α) (ha : a ∈ text) := (h a ha).1
  have hsplit : text.splitOn separator = [text] :=
    List.splitOn_eq_singleton fun hmem => (h separator hmem).2 rfl
  simp only [whole, strip_plain hplain, sign_plain hplain, hsplit, List.flatten_singleton, signed,
    Bool.false_eq_true, ↓reduceIte, List.all_cons, List.all_nil, Bool.and_true, decide_eq_true_eq,
    List.isEmpty_iff]
  split_ifs with hdigits hlimit hboth hboth
  · omega
  · rfl
  · rfl
  · exact absurd ⟨hdigits, by omega⟩ hboth
  · simp_all
  · rfl

end Plain
end Alphabet

end EncryptedTransfer.Numerals
