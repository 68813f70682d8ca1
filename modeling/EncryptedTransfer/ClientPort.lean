import EncryptedTransfer.Numerals
import EncryptedTransfer.FileHandler

/-!
# The client's port, `SocketHandler::load_host_port`
-/
namespace EncryptedTransfer.ClientPort
open Numerals TextLines FileHandler
open ByteFormats (Bytes)
open Text (encodeUtf8)
open ClientProcess (newline)

def defaultHost : Bytes := encodeUtf8 ['1', '2', '7', '.', '0', '.', '0', '.', '1']

def defaultPort : Bytes := encodeUtf8 ['1', '2', '3', '4']

def maxPortValue : ℤ := 65535

def colon : UInt8 := 58

/-- What `strtol` reads, in the C locale. -/
def strtolAlphabet : Alphabet UInt8 where
  space := fun b => 9 ≤ b && b ≤ 13 || b = 32
  digit := fun b => if 48 ≤ b ∧ b ≤ 57 then some (b.toNat - 48) else none
  plus := 43
  minus := 45

/-- `std::stoi`: nothing to read, or a number no `int` holds, is an exception. -/
def stoi (s : Bytes) : Option ℤ :=
  (strtolAlphabet.leading s).filter fun n => -2 ^ 31 ≤ n ∧ n < 2 ^ 31

def isNumeric (str : Bytes) : Bool :=
  let it := str.dropWhile strtolAlphabet.isDigit
  ¬ str.isEmpty && it.isEmpty

def findColon (s : Bytes) : Option ℕ := if colon ∈ s then some (s.idxOf colon) else none

/-- `find(":") + 1`. Past `npos` is zero. -/
def pastColon (s : Bytes) : ℕ := (findColon s).elim 0 (· + 1)

/-- `isNumeric(port) && stoi(port) >= 0 || stoi(port) <= MAX_PORT_VALUE`. -/
def portAccepted (port : Bytes) : Option Bool :=
  let secondTest := (stoi port).map fun n => decide (n ≤ maxPortValue)
  if isNumeric port then (stoi port).bind fun n => if 0 ≤ n then some true else secondTest
  else secondTest

structure HostPort where
  host : Bytes
  port : Bytes

/-- `load_host_port`, where `isAddress` says what `from_string` accepts. -/
def loadHostPort (isAddress : Bytes → Bool) (file : Option Bytes) : Bool × HostPort :=
  let (_, ip) := ClientProcess.readLine file 1 []
  let host := (findColon ip).elim ip ip.take
  let host := if isAddress host then host else defaultHost
  let port := (ip.drop (pastColon ip)).take (ip.length - 1)
  match portAccepted port with
  | some accepted => (true, ⟨host, if accepted then port else defaultPort⟩)
  | none => (false, ⟨defaultHost, defaultPort⟩)

def IsDecimal (text : Bytes) : Prop := text ≠ [] ∧ text.all strtolAlphabet.isDigit = true

instance (text : Bytes) : Decidable (IsDecimal text) :=
  inferInstanceAs (Decidable (text ≠ [] ∧ text.all strtolAlphabet.isDigit = true))

section Accepted

variable {text : Bytes}

theorem isNumeric_iff : isNumeric text = true ↔ IsDecimal text := by
  simp [isNumeric, IsDecimal, List.dropWhile_eq_nil_iff]

theorem plain_of_isDigit {b : UInt8} (h : strtolAlphabet.isDigit b = true) :
    strtolAlphabet.Plain b := by
  have hrange : 48 ≤ b ∧ b ≤ 57 := by
    by_contra hno
    simp [Alphabet.isDigit, strtolAlphabet, hno] at h
  simp only [UInt8.le_iff_toNat_le, UInt8.reduceToNat] at hrange
  simp only [Alphabet.Plain, strtolAlphabet, ne_eq, ← UInt8.toNat_inj, UInt8.le_iff_toNat_le,
    UInt8.reduceToNat, Bool.or_eq_false_iff, Bool.and_eq_false_imp, decide_eq_true_eq,
    decide_eq_false_iff_not]
  omega

theorem stoi_decimal (h : IsDecimal text) : stoi text =
    if strtolAlphabet.number text < 2 ^ 31 then some (strtolAlphabet.number text : ℤ) else none := by
  have hplain (b : UInt8) (hb : b ∈ text) : strtolAlphabet.Plain b :=
    plain_of_isDigit (List.all_eq_true.mp h.2 b hb)
  rw [stoi, Alphabet.leading_digits hplain h.2 h.1, Option.filter_some]
  split_ifs with hrange hlt hlt
  · rfl
  · simp only [decide_eq_true_eq] at hrange
    omega
  · simp only [decide_eq_true_eq] at hrange
    omega
  · rfl

theorem isDecimal_defaultPort : IsDecimal defaultPort := by decide

theorem number_defaultPort : strtolAlphabet.number defaultPort = 1234 := by decide

def chosenPort (text : Bytes) : Bytes :=
  (portAccepted text).elim defaultPort fun accepted => if accepted then text else defaultPort

/-- A decimal number is taken where an `int` holds it, and nothing compares it with the maximum. -/
theorem chosenPort_decimal (h : IsDecimal text) : chosenPort text =
    if strtolAlphabet.number text < 2 ^ 31 then text else defaultPort := by
  rw [chosenPort, portAccepted, if_pos (isNumeric_iff.mpr h), stoi_decimal h]
  split_ifs with hlt
  · simp
  · rfl

theorem chosenPort_other (h : ¬ IsDecimal text) : chosenPort text =
    if ∀ n ∈ stoi text, maxPortValue < n then defaultPort else text := by
  rw [chosenPort, portAccepted, if_neg (mt isNumeric_iff.mp h)]
  cases hstoi : stoi text with
  | none => simp
  | some n =>
    by_cases hle : n ≤ maxPortValue
    · simp [hle]
    · simp [hle, Int.not_le.mp hle]

/-- The default port is left to a text that is refused, or taken from the default port itself. -/
theorem chosenPort_eq_defaultPort_iff : chosenPort text = defaultPort ↔ text = defaultPort ∨
    if IsDecimal text then 2 ^ 31 ≤ strtolAlphabet.number text
    else ∀ n ∈ stoi text, maxPortValue < n := by
  by_cases hdecimal : IsDecimal text
  · rw [chosenPort_decimal hdecimal, if_pos hdecimal]
    split_ifs with hlt
    · simp only [Nat.not_le.mpr hlt, or_false]
    · simp only [Nat.not_lt.mp hlt, or_true]
  · rw [chosenPort_other hdecimal, if_neg hdecimal]
    split_ifs with hrefused
    · exact ⟨fun _ => .inr hrefused, fun _ => rfl⟩
    · simp only [hrefused, or_false]

theorem ne_defaultPort (h : IsDecimal text → 65535 < strtolAlphabet.number text) :
    text ≠ defaultPort := by
  intro heq
  rw [heq, number_defaultPort] at h
  have hlarge := h isDecimal_defaultPort
  omega

end Accepted

def afterColon : Bytes → Option Bytes
  | [] => none
  | b :: s => if b = colon then some s else afterColon s

/-- The port that a line has, or the default one. -/
def expectedPort (line : Bytes) : Bytes :=
  match afterColon line with
  | some text =>
    if IsDecimal text ∧ strtolAlphabet.number text ≤ 65535 then text else defaultPort
  | none => defaultPort

/-- After the first colon stands a decimal number that is a port or too large for an `int`, or
another text that `stoi` refuses or makes more than a port of. Without a colon the line without
its last character is the default port, or one of the texts that are refused. -/
def PortMeets (line : Bytes) : Prop :=
  match afterColon line with
  | some text =>
    if IsDecimal text then
      strtolAlphabet.number text ≤ 65535 ∨ 2 ^ 31 ≤ strtolAlphabet.number text
    else ∀ n ∈ stoi text, maxPortValue < n
  | none =>
    line.dropLast = defaultPort ∨
      if IsDecimal line.dropLast then 2 ^ 31 ≤ strtolAlphabet.number line.dropLast
      else ∀ n ∈ stoi line.dropLast, maxPortValue < n

def firstLine (content : Bytes) : Bytes := (lines newline content).headD []

section Lines

variable {line text : Bytes}

theorem afterColon_append (h : colon ∉ line) (text : Bytes) :
    afterColon (line ++ colon :: text) = some text := by
  induction line with
  | nil => rfl
  | cons b line ih =>
    simp only [List.mem_cons, not_or] at h
    rw [List.cons_append, afterColon, if_neg (Ne.symm h.1), ih h.2]

theorem afterColon_none (h : colon ∉ line) : afterColon line = none := by
  induction line with
  | nil => rfl
  | cons b line ih =>
    simp only [List.mem_cons, not_or] at h
    rw [afterColon, if_neg (Ne.symm h.1), ih h.2]

theorem portText_eq (line : Bytes) : (line.drop (pastColon line)).take (line.length - 1) =
    (afterColon line).getD line.dropLast := by
  by_cases hcolon : colon ∈ line
  · obtain ⟨host, text, rfl, hhost⟩ := List.eq_append_cons_of_mem hcolon
    have hindex : (host ++ colon :: text).idxOf colon = host.length := by
      rw [List.idxOf_append_of_notMem hhost, List.idxOf_cons_self, Nat.add_zero]
    have hdrop : (host ++ colon :: text).drop (host.length + 1) = text := by simp
    rw [pastColon, findColon, if_pos hcolon, hindex, Option.elim_some, hdrop,
      afterColon_append hhost, Option.getD_some, List.take_of_length_le (by simp)]
  · rw [pastColon, findColon, if_neg hcolon, Option.elim_none, List.drop_zero,
      afterColon_none hcolon, Option.getD_none, List.dropLast_eq_take]

theorem headD_splitLines (content : Bytes) :
    (ClientProcess.splitLines content).headD [] = firstLine content := by
  induction content using lines_induction newline with
  | nil => rfl
  | unfinished last hlast hne => rw [splitLines_unfinished hlast, firstLine, lines_unfinished hlast hne]
  | line first content hfirst _ =>
    rw [DetailsFile.splitLines_append hfirst, firstLine, lines_append_sep hfirst]
    rfl

theorem readLine_first (content : Bytes) :
    (ClientProcess.readLine (some content) 1 []).2 = firstLine content := by
  rw [← headD_splitLines, ClientProcess.readLine]
  cases ClientProcess.splitLines content <;> rfl

theorem loadHostPort_port (isAddress : Bytes → Bool) (content : Bytes) :
    (loadHostPort isAddress (some content)).2.port =
      chosenPort ((afterColon (firstLine content)).getD (firstLine content).dropLast) := by
  simp only [loadHostPort, readLine_first, portText_eq, chosenPort]
  cases portAccepted ((afterColon (firstLine content)).getD (firstLine content).dropLast) <;> rfl

/-- The port is the one the line has, or else the default one, exactly where the line meets the
condition. -/
theorem loadHostPort_port_iff (isAddress : Bytes → Bool) (content : Bytes) :
    (loadHostPort isAddress (some content)).2.port = expectedPort (firstLine content) ↔
      PortMeets (firstLine content) := by
  rw [loadHostPort_port, expectedPort, PortMeets]
  cases afterColon (firstLine content) with
  | none => exact chosenPort_eq_defaultPort_iff
  | some text =>
    simp only [Option.getD_some]
    by_cases hdecimal : IsDecimal text
    · simp only [hdecimal, true_and, ↓reduceIte]
      by_cases hport : strtolAlphabet.number text ≤ 65535
      · rw [if_pos hport, chosenPort_decimal hdecimal, if_pos (by omega)]
        simp only [hport, true_or]
      · rw [if_neg hport, chosenPort_eq_defaultPort_iff, if_pos hdecimal]
        simp only [ne_defaultPort fun _ => Nat.not_le.mp hport, hport, false_or]
    · simp only [hdecimal, false_and, ↓reduceIte]
      rw [chosenPort_eq_defaultPort_iff, if_neg hdecimal]
      simp only [ne_defaultPort fun h => absurd h hdecimal, false_or]

end Lines

/-- A number above the maximum is taken. -/
theorem loadHostPort_large : (loadHostPort (fun _ => true)
    (some (encodeUtf8 ['h', ':', '7', '0', '0', '0', '0']))).2.port ≠
      expectedPort (firstLine (encodeUtf8 ['h', ':', '7', '0', '0', '0', '0'])) := by
  decide

end EncryptedTransfer.ClientPort
