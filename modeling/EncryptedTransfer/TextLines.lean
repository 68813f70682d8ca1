import Mathlib.Data.List.Basic
import EncryptedTransfer.Loops

/-!
# The lines of a text, and streams that are read line by line

A line ends with a separator, which is not part of it; the last line may do without. A stream
notices the end of its text only when it reads there.
-/
namespace EncryptedTransfer.TextLines
open Loops

variable {α : Type*} {sep : α}

def unlines (sep : α) (ls : List (List α)) : List α := ls.flatMap fun line => line ++ [sep]

/-- No line is left unfinished. -/
def Ended (sep : α) (text : List α) : Prop := ∀ a ∈ text.getLast?, a = sep

instance [DecidableEq α] (sep : α) (text : List α) : Decidable (Ended sep text) :=
  inferInstanceAs (Decidable (∀ a ∈ text.getLast?, a = sep))

section Ends

variable {line text : List α}

theorem ended_nil : Ended sep ([] : List α) := by simp [Ended]

theorem not_ended_unfinished (h : sep ∉ line) (hne : line ≠ []) : ¬ Ended sep line := by
  intro hended
  have hlast := hended _ (List.getLast?_eq_some_getLast hne)
  exact h (hlast ▸ List.getLast_mem hne)

theorem ended_append_sep (line : List α) : Ended sep (line ++ sep :: text) ↔ Ended sep text := by
  cases text with
  | nil => simp [Ended]
  | cons a text => simp [Ended, List.getLast?_cons_cons]

theorem unlines_cons (line : List α) (ls : List (List α)) :
    unlines sep (line :: ls) = line ++ sep :: unlines sep ls := by
  simp [unlines]

theorem ended_unlines (ls : List (List α)) : Ended sep (unlines sep ls) := by
  induction ls with
  | nil => exact ended_nil
  | cons line ls ih =>
    rw [unlines_cons, ended_append_sep]
    exact ih

end Ends

variable [DecidableEq α]

def lines (sep : α) : List α → List (List α)
  | [] => []
  | a :: text =>
    if a = sep then [] :: lines sep text
    else match lines sep text with
      | [] => [[a]]
      | line :: rest => (a :: line) :: rest

section Lines

variable {line text : List α}

theorem lines_append_sep (h : sep ∉ line) (text : List α) :
    lines sep (line ++ sep :: text) = line :: lines sep text := by
  induction line with
  | nil => simp [lines]
  | cons a line ih =>
    simp only [List.mem_cons, not_or] at h
    simp [lines, Ne.symm h.1, ih h.2]

theorem lines_unfinished (h : sep ∉ line) (hne : line ≠ []) : lines sep line = [line] := by
  induction line with
  | nil => exact absurd rfl hne
  | cons a line ih =>
    simp only [List.mem_cons, not_or] at h
    cases line with
    | nil => simp [lines, Ne.symm h.1]
    | cons b line => rw [lines, if_neg (Ne.symm h.1), ih h.2 (List.cons_ne_nil b line)]

/-- A text is empty, an unfinished line, or a line and a text. -/
@[elab_as_elim]
theorem lines_induction (sep : α) {P : List α → Prop} (nil : P [])
    (unfinished : ∀ line, sep ∉ line → line ≠ [] → P line)
    (line : ∀ line text, sep ∉ line → P text → P (line ++ sep :: text)) (text : List α) :
    P text := by
  have hfrom (start : List α) (hstart : sep ∉ start) : P (start ++ text) := by
    induction text generalizing start with
    | nil =>
      rw [List.append_nil]
      by_cases hne : start = []
      · exact hne ▸ nil
      · exact unfinished start hstart hne
    | cons a text ih =>
      by_cases ha : a = sep
      · subst ha
        exact line start text hstart (ih [] List.not_mem_nil)
      · have hlonger : sep ∉ start ++ [a] := by simp [hstart, Ne.symm ha]
        simpa using ih (start ++ [a]) hlonger
  exact hfrom [] List.not_mem_nil

theorem notMem_of_mem_lines (h : line ∈ lines sep text) : sep ∉ line := by
  induction text using lines_induction sep with
  | nil => cases h
  | unfinished last hlast hne =>
    rw [lines_unfinished hlast hne, List.mem_singleton] at h
    exact h ▸ hlast
  | line first text hfirst ih =>
    rw [lines_append_sep hfirst] at h
    rcases List.mem_cons.mp h with rfl | hmem
    · exact hfirst
    · exact ih hmem

theorem getLast?_lines (h : ¬ Ended sep text) :
    ∃ last, last ≠ [] ∧ (lines sep text).getLast? = some last := by
  induction text using lines_induction sep with
  | nil => exact absurd ended_nil h
  | unfinished last hlast hne => exact ⟨last, hne, by rw [lines_unfinished hlast hne]; rfl⟩
  | line first text hfirst ih =>
    rw [ended_append_sep first] at h
    obtain ⟨last, hne, hlast⟩ := ih h
    refine ⟨last, hne, ?_⟩
    rw [lines_append_sep hfirst, List.getLast?_cons, hlast, Option.getD_some]

theorem lines_unlines {ls : List (List α)} (h : ∀ line ∈ ls, sep ∉ line) :
    lines sep (unlines sep ls) = ls := by
  induction ls with
  | nil => rfl
  | cons first ls ih =>
    have hrest := ih fun line hmem => h line (List.mem_cons_of_mem _ hmem)
    rw [unlines_cons, lines_append_sep (h first List.mem_cons_self), hrest]

end Lines

/-- What is left to read, whether a read has met the end, and whether a read has failed. -/
structure Stream (α : Type*) where
  rest : List α
  ended : Bool
  failed : Bool

namespace Stream

def ofText (text : List α) : Stream α := ⟨text, false, false⟩

def unopened : Stream α := ⟨[], false, true⟩

/-- The next line, into `line`. A read that finds nothing fails, and a stream that has ended or
failed keeps `line`. -/
def getline (sep : α) (s : Stream α) (line : List α) : Stream α × List α :=
  if s.ended || s.failed then ({ s with failed := true }, line)
  else
    let next := s.rest.takeWhile (· ≠ sep)
    match s.rest.drop next.length with
    | [] => (⟨[], true, next.isEmpty⟩, next)
    | _ :: rest => ({ s with rest := rest }, next)

section Getline

variable {line text destination : List α}

theorem takeWhile_append_sep (h : sep ∉ line) :
    (line ++ sep :: text).takeWhile (· ≠ sep) = line := by
  induction line with
  | nil => simp
  | cons a line ih =>
    simp only [List.mem_cons, not_or] at h
    rw [List.cons_append, List.takeWhile_cons_of_pos (by simpa using Ne.symm h.1), ih h.2]

theorem takeWhile_unfinished (h : sep ∉ line) : line.takeWhile (· ≠ sep) = line := by
  induction line with
  | nil => rfl
  | cons a line ih =>
    simp only [List.mem_cons, not_or] at h
    rw [List.takeWhile_cons_of_pos (by simpa using Ne.symm h.1), ih h.2]

theorem getline_line (h : sep ∉ line) :
    (ofText (line ++ sep :: text)).getline sep destination = (ofText text, line) := by
  simp only [getline, ofText, Bool.or_self, Bool.false_eq_true, ↓reduceIte,
    takeWhile_append_sep h, List.drop_left]

theorem getline_unfinished (h : sep ∉ line) (hne : line ≠ []) :
    (ofText line).getline sep destination = (⟨[], true, false⟩, line) := by
  simp only [getline, ofText, Bool.or_self, Bool.false_eq_true, ↓reduceIte,
    takeWhile_unfinished h, List.drop_length, List.isEmpty_eq_false_iff.mpr hne]

theorem getline_nil :
    (ofText ([] : List α)).getline sep destination = (⟨[], true, true⟩, []) := rfl

theorem getline_ended {s : Stream α} (h : s.ended = true) :
    s.getline sep destination = ({ s with failed := true }, destination) := by
  simp [getline, h]

theorem getline_failed {s : Stream α} (h : s.failed = true) :
    s.getline sep destination = ({ s with failed := true }, destination) := by
  simp [getline, h]

end Getline

/-- `while (getline(stream, line)) lines.push_back(line)`, one round. -/
def collect (sep : α) :
    Stream α × List α × List (List α) → (Stream α × List α × List (List α)) ⊕ List (List α)
  | (s, line, found) =>
    let (s, line) := s.getline sep line
    if s.failed then .inr found else .inl (s, line, found ++ [line])

theorem collect_line {s s' : Stream α} {line line' : List α} (h : s.getline sep line = (s', line'))
    (hok : s'.failed = false) (found : List (List α)) :
    collect sep (s, line, found) = .inl (s', line', found ++ [line']) := by
  simp [collect, h, hok]

theorem collect_failed {s s' : Stream α} {line line' : List α}
    (h : s.getline sep line = (s', line')) (hfailed : s'.failed = true) (found : List (List α)) :
    collect sep (s, line, found) = .inr found := by
  simp [collect, h, hfailed]

theorem collect_returns (text line : List α) (found : List (List α)) :
    Returns (collect sep) (ofText text, line, found) (found ++ lines sep text) := by
  induction text using lines_induction sep generalizing line found with
  | nil =>
    simpa only [lines, List.append_nil] using Returns.exit (collect_failed getline_nil rfl found)
  | unfinished last hlast hne =>
    have hended : (⟨[], true, false⟩ : Stream α).getline sep last = (⟨[], true, true⟩, last) :=
      getline_ended rfl
    rw [lines_unfinished hlast hne]
    exact .next (collect_line (getline_unfinished hlast hne) rfl found)
      (.exit (collect_failed hended rfl _))
  | line first text hfirst ih =>
    rw [lines_append_sep hfirst, List.append_cons found first]
    exact .next (collect_line (getline_line hfirst) rfl found) (ih first _)

end Stream
end EncryptedTransfer.TextLines
