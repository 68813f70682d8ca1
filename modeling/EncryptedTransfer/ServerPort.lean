import EncryptedTransfer.PythonText
import EncryptedTransfer.Text

/-!
# The server's port, `Server.load_port`

What Python makes of the file's bytes is a parameter: `readline` gives the first line, or an
exception.
-/
namespace EncryptedTransfer.ServerPort
open PythonText ByteFormats Text

def defaultPort : ℤ := 1234

def maxPort : ℤ := 65535

/-- `port.info`: not there, not to be opened, or open. -/
inductive PortFile where
  | absent
  | unopenable
  | opened (readable : Bool) (content : Bytes)

inductive Local where
  | none
  | text (s : Str)
  | number (n : ℤ)

/-- The field `port`, and what `load_port` returns. -/
structure Loaded where
  port : Option ℤ
  returned : Local

section LoadPort

variable (data : CharacterData) (limit : ℕ) (readline : Bytes → Option Str)

/-- `load_port`, where the field is `port` before. An exception leaves the field as it is. -/
def loadPort (file : PortFile) (port : Option ℤ) : Loaded :=
  match file with
  | .absent => ⟨some defaultPort, .none⟩
  | .unopenable => ⟨port, .number defaultPort⟩
  | .opened readable content =>
    if ¬ readable then ⟨port, .none⟩
    else match readline content with
      | none => ⟨port, .number defaultPort⟩
      | some line =>
        let text := data.strip line
        if ¬ data.isnumeric text then ⟨some defaultPort, .text text⟩
        else match data.int limit text with
          | none => ⟨port, .number defaultPort⟩
          | some n =>
            if 0 ≤ n ∧ n < maxPort + 1 then ⟨some n, .text text⟩
            else ⟨some defaultPort, .text text⟩

/-- The first line, where there is one to read. -/
def PortFile.firstLine : PortFile → Option Str
  | .opened true content => readline content
  | _ => none

/-- The number in the stripped line, if that is a numeral. -/
def numeral (line : Str) : Option ℤ :=
  if data.isnumeric (data.strip line) then data.int limit (data.strip line) else none

/-- The number in the first line where it is a port, and the default port in every other case. -/
def expectedPort (file : PortFile) : ℤ :=
  match (file.firstLine readline).bind (numeral data limit) with
  | some n => if 0 ≤ n ∧ n ≤ maxPort then n else defaultPort
  | none => defaultPort

/-- The field is a port, the expected one. -/
def PortSet (file : PortFile) (port : Option ℤ) : Prop :=
  ∃ n, port = some n ∧ 0 ≤ n ∧ n ≤ maxPort ∧ n = expectedPort data limit readline file

section Expected

variable {data limit readline} {file : PortFile} {port : Option ℤ}

theorem expectedPort_range :
    0 ≤ expectedPort data limit readline file ∧ expectedPort data limit readline file ≤ maxPort := by
  have hdefault : 0 ≤ defaultPort ∧ defaultPort ≤ maxPort := by decide
  unfold expectedPort
  split
  · split_ifs with hport
    · exact hport
    · exact hdefault
  · exact hdefault

theorem portSet_iff : PortSet data limit readline file port ↔
    port = some (expectedPort data limit readline file) := by
  constructor
  · intro ⟨n, hn, _, _, heq⟩
    rw [hn, heq]
  · intro hport
    exact ⟨_, hport, expectedPort_range.1, expectedPort_range.2, rfl⟩

/-- A line that is read sets the field, unless `isnumeric` accepts what `int` does not. -/
theorem loadPort_line {line : Str} (hline : file.firstLine readline = some line) :
    (loadPort data limit readline file none).port =
      if data.isnumeric (data.strip line) = true ∧ data.int limit (data.strip line) = none then none
      else some (expectedPort data limit readline file) := by
  obtain ⟨content, rfl, hread⟩ : ∃ content, file = .opened true content ∧
      readline content = some line := by
    cases file with
    | absent => cases hline
    | unopenable => cases hline
    | opened readable content =>
      cases readable with
      | false => cases hline
      | true => exact ⟨content, rfl, hline⟩
  simp only [loadPort, expectedPort, PortFile.firstLine, hread, numeral, Option.bind_some,
    not_true_eq_false, ↓reduceIte, Int.lt_add_one_iff]
  by_cases hnumeric : data.isnumeric (data.strip line) = true
  · cases hint : data.int limit (data.strip line) with
    | none => simp only [hnumeric, not_true_eq_false, ↓reduceIte, and_self]
    | some n =>
      simp only [hnumeric, not_true_eq_false, ↓reduceIte, reduceCtorEq, and_false]
      split_ifs <;> rfl
  · simp only [hnumeric, Bool.false_eq_true, not_false_eq_true, ↓reduceIte, false_and]

theorem loadPort_no_line (hline : file.firstLine readline = none) :
    (loadPort data limit readline file none).port = some (expectedPort data limit readline file) ↔
      file = .absent := by
  cases file with
  | absent => exact ⟨fun _ => rfl, fun _ => rfl⟩
  | unopenable => simp [loadPort]
  | opened readable content =>
    cases readable with
    | false => simp [loadPort]
    | true =>
      have hread : readline content = none := hline
      simp [loadPort, hread]

end Expected

/-- The field is set as expected exactly where there is no file, or where the first line can be
read and, if `isnumeric` accepts what is left of it, that is made of decimal digits, and of no more
than `int` takes. -/
theorem loadPort_portSet_iff (file : PortFile) :
    PortSet data limit readline file (loadPort data limit readline file none).port ↔
      file = .absent ∨ ∃ line, file.firstLine readline = some line ∧
        (data.isnumeric (data.strip line) = true →
          (data.strip line).all data.alphabet.isDigit = true ∧
            (limit = 0 ∨ (data.strip line).length ≤ limit)) := by
  rw [portSet_iff]
  cases hline : file.firstLine readline with
  | none => simp only [loadPort_no_line hline, reduceCtorEq, false_and, exists_false, or_false]
  | some line =>
    have hfile : file ≠ .absent := by
      rintro rfl
      cases hline
    simp only [loadPort_line hline, hfile, Option.some.injEq, exists_eq_left', false_or]
    by_cases hnumeric : data.isnumeric (data.strip line) = true
    · simp only [hnumeric, true_and, forall_const, CharacterData.int_isnumeric hnumeric]
      split_ifs with hdigits <;> simp_all
    · simp [hnumeric]

end LoadPort

/-- `readline` of a file in UTF-8 that is decoded in one chunk: the line ends with LF, CR or CR LF
and is given with LF. -/
def readlineUtf8 (content : Bytes) : Option Str :=
  (decodeUtf8 content).map fun text =>
    let line := text.takeWhile fun c => c ≠ Char.ofNat 10 ∧ c ≠ Char.ofNat 13
    if line.length < text.length then line ++ [Char.ofNat 10] else line

/-- A superscript two is numeric, and no digit: the field stays unset. -/
theorem not_portSet_superscript : ¬ PortSet unicode14 4300 readlineUtf8
    (.opened true (encodeUtf8 [Char.ofNat 178]))
    (loadPort unicode14 4300 readlineUtf8 (.opened true (encodeUtf8 [Char.ofNat 178])) none).port := by
  have hline : (PortFile.opened true (encodeUtf8 [Char.ofNat 178])).firstLine readlineUtf8 =
      some [Char.ofNat 178] := by
    rw [PortFile.firstLine, readlineUtf8, decodeUtf8_encodeUtf8]
    rfl
  have hnumeric : unicode14.isnumeric (unicode14.strip [Char.ofNat 178]) = true := by
    decide +kernel
  have hint : unicode14.int 4300 (unicode14.strip [Char.ofNat 178]) = none := by
    decide +kernel
  rw [portSet_iff, loadPort_line hline, if_pos ⟨hnumeric, hint⟩]
  simp

end EncryptedTransfer.ServerPort
