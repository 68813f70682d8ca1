import EncryptedTransfer.TextLines
import EncryptedTransfer.DetailsFile

/-!
# `FileHandler`, statement by statement

`readLine` and the `writeLines` that replaces a line, on the streams they open. A file's content
is what a text stream delivers of it. The functions of `ClientProcess` under the same names say
what these leave where all goes well.
-/
namespace EncryptedTransfer.FileHandler
open TextLines Loops
open ByteFormats (Bytes)
open ClientProcess (newline)

structure Reading where
  file : Stream UInt8
  lineCount : ℕ
  destination : Bytes

/-- One round of the loop. No file has so many lines that a `size_t` wraps. -/
def readLineRound (lineNumber : ℕ) (reading : Reading) : Reading ⊕ Reading :=
  if reading.file.ended then .inr reading
  else
    let (file, destination) := reading.file.getline newline reading.destination
    if reading.lineCount = lineNumber then .inr ⟨file, reading.lineCount, destination⟩
    else .inl ⟨file, reading.lineCount + 1, destination⟩

def openFile (file : Option Bytes) : Stream UInt8 := file.elim .unopened .ofText

def readLine (fuel : ℕ) (file : Option Bytes) (lineNumber : ℕ) (destination : Bytes) :
    Option (Bool × Bytes) :=
  (rounds (readLineRound lineNumber) fuel ⟨openFile file, 1, destination⟩).map fun reading =>
    if reading.lineCount < lineNumber then (false, reading.destination)
    else (true, reading.destination)

/-- `readLine` returns, with this result and this destination. -/
def Reads (file : Option Bytes) (lineNumber : ℕ) (destination : Bytes) (result : Bool × Bytes) :
    Prop :=
  ∃ fuel, readLine fuel file lineNumber destination = some result

section Rounds

variable {lineNumber lineCount : ℕ} {s s' : Stream UInt8} {destination line : Bytes}

theorem readLineRound_ended (h : s.ended = true) :
    readLineRound lineNumber ⟨s, lineCount, destination⟩ = .inr ⟨s, lineCount, destination⟩ := by
  simp only [readLineRound, h, ↓reduceIte]

theorem readLineRound_found (hopen : s.ended = false)
    (h : s.getline newline destination = (s', line)) :
    readLineRound lineNumber ⟨s, lineNumber, destination⟩ = .inr ⟨s', lineNumber, line⟩ := by
  simp only [readLineRound, hopen, h, Bool.false_eq_true, ↓reduceIte]

theorem readLineRound_next (hopen : s.ended = false) (hne : lineCount ≠ lineNumber)
    (h : s.getline newline destination = (s', line)) :
    readLineRound lineNumber ⟨s, lineCount, destination⟩ = .inl ⟨s', lineCount + 1, line⟩ := by
  simp only [readLineRound, hopen, h, hne, Bool.false_eq_true, ↓reduceIte]

end Rounds

theorem Reads.unique {file : Option Bytes} {lineNumber : ℕ} {destination : Bytes}
    {result result' : Bool × Bytes} (h : Reads file lineNumber destination result)
    (h' : Reads file lineNumber destination result') : result = result' := by
  obtain ⟨fuel, hfuel⟩ := h
  obtain ⟨fuel', hfuel'⟩ := h'
  obtain ⟨reading, hreading, rfl⟩ := Option.map_eq_some_iff.mp hfuel
  obtain ⟨reading', hreading', rfl⟩ := Option.map_eq_some_iff.mp hfuel'
  rw [Returns.unique ⟨fuel, hreading⟩ ⟨fuel', hreading'⟩]

theorem splitLines_unfinished {line : Bytes} (h : newline ∉ line) :
    ClientProcess.splitLines line = [line] := by
  induction line with
  | nil => rfl
  | cons b line ih =>
    simp only [List.mem_cons, not_or] at h
    rw [ClientProcess.splitLines, if_neg (Ne.symm h.1), ih h.2]

/-- A round that meets the end of the file is the last that reads. -/
theorem readLineRound_last {s s' : Stream UInt8} {destination line : Bytes}
    (hopen : s.ended = false) (h : s.getline newline destination = (s', line))
    (hended : s'.ended = true) (lineNumber lineCount : ℕ) :
    Returns (readLineRound lineNumber) ⟨s, lineCount, destination⟩
      ⟨s', (ClientProcess.readLineLoop lineNumber lineCount destination [line]).1,
        (ClientProcess.readLineLoop lineNumber lineCount destination [line]).2⟩ := by
  simp only [ClientProcess.readLineLoop]
  split_ifs with hcount
  · subst hcount
    exact .exit (readLineRound_found hopen h)
  · exact .next (readLineRound_next hopen hcount h) (.exit (readLineRound_ended hended))

theorem readLineRound_returns (lineNumber : ℕ) (content : Bytes) (lineCount : ℕ)
    (destination : Bytes) : ∃ s, Returns (readLineRound lineNumber)
      ⟨.ofText content, lineCount, destination⟩
      ⟨s, (ClientProcess.readLineLoop lineNumber lineCount destination
          (ClientProcess.splitLines content)).1,
        (ClientProcess.readLineLoop lineNumber lineCount destination
          (ClientProcess.splitLines content)).2⟩ := by
  induction content using lines_induction newline generalizing lineCount destination with
  | nil => exact ⟨_, readLineRound_last rfl Stream.getline_nil rfl lineNumber lineCount⟩
  | unfinished last hlast hne =>
    rw [splitLines_unfinished hlast]
    exact ⟨_, readLineRound_last rfl (Stream.getline_unfinished hlast hne) rfl lineNumber lineCount⟩
  | line first content hfirst ih =>
    rw [DetailsFile.splitLines_append hfirst]
    simp only [ClientProcess.readLineLoop]
    split_ifs with hcount
    · subst hcount
      exact ⟨_, .exit (readLineRound_found rfl (Stream.getline_line hfirst))⟩
    · obtain ⟨s, hreturns⟩ := ih (lineCount + 1) first
      exact ⟨s, .next (readLineRound_next rfl hcount (Stream.getline_line hfirst)) hreturns⟩

theorem readLineRound_unopened {lineNumber lineCount : ℕ} (h : lineCount ≤ lineNumber)
    (destination : Bytes) : Returns (readLineRound lineNumber)
      ⟨.unopened, lineCount, destination⟩ ⟨.unopened, lineNumber, destination⟩ := by
  have hread : (Stream.unopened : Stream UInt8).getline newline destination =
      (.unopened, destination) := Stream.getline_failed rfl
  induction h using Nat.decreasingInduction with
  | self => exact .exit (readLineRound_found rfl hread)
  | of_succ lineCount hlt ih => exact .next (readLineRound_next rfl (by omega) hread) ih

/-- Where there is no file, no line is missed from the first on. -/
theorem reads_readLine {lineNumber : ℕ} (h : 1 ≤ lineNumber) (file : Option Bytes)
    (destination : Bytes) :
    Reads file lineNumber destination (ClientProcess.readLine file lineNumber destination) := by
  cases file with
  | none =>
    obtain ⟨fuel, hfuel⟩ := readLineRound_unopened h destination
    refine ⟨fuel, ?_⟩
    simp only [readLine, openFile, Option.elim_none, hfuel, Option.map_some, lt_self_iff_false,
      ↓reduceIte, ClientProcess.readLine]
  | some content =>
    obtain ⟨s, fuel, hfuel⟩ := readLineRound_returns lineNumber content 1 destination
    refine ⟨fuel, ?_⟩
    simp only [readLine, openFile, Option.elim_some, hfuel, Option.map_some, ClientProcess.readLine]
    split_ifs with hcount
    · simp only [Nat.not_le.mpr hcount, decide_false]
    · simp only [Nat.not_lt.mp hcount, decide_true]

theorem splitLines_of_ended {content : Bytes} (h : Ended newline content) :
    ClientProcess.splitLines content = lines newline content ++ [[]] := by
  induction content using lines_induction newline with
  | nil => rfl
  | unfinished last hlast hne => exact absurd h (not_ended_unfinished hlast hne)
  | line first content hfirst ih =>
    rw [DetailsFile.splitLines_append hfirst, lines_append_sep hfirst,
      ih ((ended_append_sep first).mp h), List.cons_append]

theorem splitLines_of_unended {content : Bytes} (h : ¬ Ended newline content) :
    ClientProcess.splitLines content = lines newline content := by
  induction content using lines_induction newline with
  | nil => exact absurd ended_nil h
  | unfinished last hlast hne => rw [splitLines_unfinished hlast, lines_unfinished hlast hne]
  | line first content hfirst ih =>
    rw [ended_append_sep first] at h
    rw [DetailsFile.splitLines_append hfirst, lines_append_sep hfirst, ih h]

section Loop

variable {lineNumber lineCount : ℕ}

theorem readLineLoop_found (h : lineCount ≤ lineNumber) {found : List Bytes} {line : Bytes}
    (hline : found[lineNumber - lineCount]? = some line) (destination : Bytes) :
    ClientProcess.readLineLoop lineNumber lineCount destination found = (lineNumber, line) := by
  induction found generalizing lineCount destination with
  | nil => cases hline
  | cons first found ih =>
    rw [ClientProcess.readLineLoop]
    split_ifs with hcount
    · simp only [hcount, Nat.sub_self, List.getElem?_cons_zero, Option.some.injEq] at hline
      rw [hcount, hline]
    · have hlater : lineNumber - lineCount = lineNumber - (lineCount + 1) + 1 := by omega
      rw [hlater, List.getElem?_cons_succ] at hline
      exact ih (by omega) hline first

theorem readLineLoop_missing {found : List Bytes} (h : lineCount + found.length ≤ lineNumber)
    (destination : Bytes) :
    (ClientProcess.readLineLoop lineNumber lineCount destination found).1 =
      lineCount + found.length := by
  induction found generalizing lineCount destination with
  | nil => rfl
  | cons first found ih =>
    simp only [List.length_cons] at h ⊢
    rw [ClientProcess.readLineLoop, if_neg (by omega), ih (by omega)]
    omega

end Loop

section Lines

variable {content : Bytes} {lineNumber : ℕ}

theorem readLine_isTrue_iff (h : 1 ≤ lineNumber) (destination : Bytes) :
    (ClientProcess.readLine (some content) lineNumber destination).1 = true ↔
      lineNumber ≤ (ClientProcess.splitLines content).length + 1 := by
  simp only [ClientProcess.readLine, decide_eq_true_eq]
  by_cases hfound : lineNumber - 1 < (ClientProcess.splitLines content).length
  · rw [readLineLoop_found h (List.getElem?_eq_getElem hfound)]
    simp only [le_refl, true_iff]
    omega
  · rw [readLineLoop_missing (by omega)]
    omega

theorem splitLines_getElem? {line : Bytes} {i : ℕ} (h : (lines newline content)[i]? = some line) :
    (ClientProcess.splitLines content)[i]? = some line := by
  by_cases hended : Ended newline content
  · rw [splitLines_of_ended hended, List.getElem?_append_left (List.getElem?_eq_some_iff.mp h).1, h]
  · rw [splitLines_of_unended hended, h]

theorem readLine_of_line (h : 1 ≤ lineNumber) {line : Bytes}
    (hline : (lines newline content)[lineNumber - 1]? = some line) (destination : Bytes) :
    ClientProcess.readLine (some content) lineNumber destination = (true, line) := by
  simp only [ClientProcess.readLine, readLineLoop_found h (splitLines_getElem? hline), le_refl,
    decide_true]

theorem length_splitLines (content : Bytes) : (ClientProcess.splitLines content).length =
    (lines newline content).length + if Ended newline content then 1 else 0 := by
  split_ifs with h
  · rw [splitLines_of_ended h, List.length_append, List.length_singleton]
  · rw [splitLines_of_unended h, Nat.add_zero]

/-- `readLine` returns, says whether there is such a line, and reads it where there is. -/
def ReadsLine (content : Bytes) (lineNumber : ℕ) (destination : Bytes) : Prop :=
  ∃ result, Reads (some content) lineNumber destination result ∧
    (result.1 = true ↔ lineNumber ≤ (lines newline content).length) ∧
    (result.1 = true → (lines newline content)[lineNumber - 1]? = some result.2)

theorem readsLine_iff_result (h : 1 ≤ lineNumber) (destination : Bytes) :
    ReadsLine content lineNumber destination ↔
      (lineNumber ≤ (ClientProcess.splitLines content).length + 1 →
        lineNumber ≤ (lines newline content).length) := by
  have hreads := reads_readLine h (some content) destination
  have htrue : (ClientProcess.readLine (some content) lineNumber destination).1 = true ↔ _ :=
    readLine_isTrue_iff h destination
  constructor
  · intro ⟨result, hresult, hiff, _⟩ hle
    rw [hresult.unique hreads] at hiff
    exact hiff.mp (htrue.mpr hle)
  · intro hle
    refine ⟨_, hreads, ?_, ?_⟩
    · rw [htrue, length_splitLines] at *
      omega
    · intro hfound
      have hlt : lineNumber - 1 < (lines newline content).length := by
        have := hle (htrue.mp hfound)
        omega
      rw [readLine_of_line h (List.getElem?_eq_getElem hlt), List.getElem?_eq_getElem hlt]

/-- The line after the last is found, and so is the next one where the last line is ended. -/
theorem readsLine_iff (h : 1 ≤ lineNumber) (destination : Bytes) :
    ReadsLine content lineNumber destination ↔
      lineNumber ≠ (lines newline content).length + 1 ∧
        ¬ (Ended newline content ∧ lineNumber = (lines newline content).length + 2) := by
  rw [readsLine_iff_result h, length_splitLines]
  split_ifs with hended
  · simp only [hended, true_and]
    omega
  · simp only [hended, false_and, not_false_eq_true, and_true]
    omega

end Lines

theorem readsLine_iff_first : ReadsLine [97, 10, 98, 10] 1 [] ↔
    1 ≠ (lines newline [97, 10, 98, 10]).length + 1 ∧
      ¬ (Ended newline [97, 10, 98, 10] ∧ 1 = (lines newline [97, 10, 98, 10]).length + 2) :=
  readsLine_iff (le_refl 1) []

/-- The second line of a file with one is the first once more. -/
theorem not_readsLine_second : ¬ ReadsLine [97] 2 [] := by
  intro hreads
  have hle := (readsLine_iff_result (by omega) []).mp hreads (by decide)
  exact absurd hle (by decide)

/-- Whether the file can be opened to read and to write, and what of the written bytes is kept. -/
structure Access where
  readable : Bool
  writable : Bool
  stored : Bytes → Bytes

structure Access.Full (access : Access) : Prop where
  readable : access.readable = true
  writable : access.writable = true
  stored : ∀ written, access.stored written = written

def intMax : ℕ := 2 ^ 31 - 1

/-- One round of `for (int i = 0; i < lines.size(); i++)`. What `i++` does past `INT_MAX` is not
defined. -/
def writeRound (lines : List Bytes) : ℕ × Bytes → (ℕ × Bytes) ⊕ Option Bytes
  | (i, written) =>
    if h : i < lines.length then
      let written := written ++ (lines[i] ++ [newline])
      if i = intMax then .inr none else .inl (i + 1, written)
    else .inr (some written)

/-- The lines that are written: `source` takes the place of its line, or comes last. -/
def replaced (lineNumber : ℕ) (source : Bytes) (lines : List Bytes) : List Bytes :=
  if lines.length < lineNumber then lines ++ [source] else lines.set (lineNumber - 1) source

/-- `writeLines`, with at most `fuel` rounds of each loop: what it returns, and the file. -/
def writeLines (fuel : ℕ) (access : Access) (file : Option Bytes) (lineNumber : ℕ)
    (source : Bytes) : Option (Bool × Option Bytes) :=
  let readFile := if access.readable then openFile file else .unopened
  (rounds (Stream.collect newline) fuel (readFile, [], [])).bind fun lines =>
    (rounds (writeRound (replaced lineNumber source lines)) fuel (0, [])).join.map fun written =>
      (true, if access.writable then some (access.stored written) else file)

/-- `writeLines` returns, with this result and this file. -/
def Writes (access : Access) (file : Option Bytes) (lineNumber : ℕ) (source : Bytes)
    (result : Bool × Option Bytes) : Prop :=
  ∃ fuel, writeLines fuel access file lineNumber source = some result

theorem Writes.unique {access : Access} {file : Option Bytes} {lineNumber : ℕ} {source : Bytes}
    {result result' : Bool × Option Bytes} (h : Writes access file lineNumber source result)
    (h' : Writes access file lineNumber source result') : result = result' := by
  obtain ⟨fuel, hfuel⟩ := h
  obtain ⟨fuel', hfuel'⟩ := h'
  obtain ⟨lines, hlines, hwritten⟩ := Option.bind_eq_some_iff.mp hfuel
  obtain ⟨lines', hlines', hwritten'⟩ := Option.bind_eq_some_iff.mp hfuel'
  obtain rfl := Returns.unique ⟨fuel, hlines⟩ ⟨fuel', hlines'⟩
  obtain ⟨written, hloop, rfl⟩ := Option.map_eq_some_iff.mp hwritten
  obtain ⟨written', hloop', rfl⟩ := Option.map_eq_some_iff.mp hwritten'
  have hsame := Returns.unique ⟨fuel, Option.join_eq_some_iff.mp hloop⟩
    ⟨fuel', Option.join_eq_some_iff.mp hloop'⟩
  rw [Option.some.inj hsame]

theorem writeRound_next {lines : List Bytes} {i : ℕ} (hlt : i < lines.length) (hne : i ≠ intMax)
    (written : Bytes) : writeRound lines (i, written) =
      .inl (i + 1, written ++ (lines[i] ++ [newline])) := by
  simp only [writeRound, hlt, ↓reduceDIte, hne, ↓reduceIte]

theorem writeRound_returns {lines : List Bytes} (h : lines.length ≤ intMax) {i : ℕ}
    (hi : i ≤ lines.length) (written : Bytes) :
    Returns (writeRound lines) (i, written) (some (written ++ unlines newline (lines.drop i))) := by
  induction hi using Nat.decreasingInduction generalizing written with
  | self =>
    have hexit : writeRound lines (lines.length, written) = .inr (some written) := by
      simp [writeRound]
    simpa [unlines] using Returns.exit hexit
  | of_succ i hlt ih =>
    have hrest := ih (written ++ (lines[i] ++ [newline]))
    rw [List.append_assoc] at hrest
    rw [List.drop_eq_getElem_cons hlt]
    exact .next (writeRound_next hlt (by omega) written) hrest

theorem collect_openFile (file : Option Bytes) :
    Returns (Stream.collect newline) (openFile file, [], []) (lines newline (file.getD [])) := by
  cases file with
  | none => exact .exit (Stream.collect_failed (Stream.getline_failed rfl) rfl [])
  | some content => exact Stream.collect_returns content [] []

theorem writes_replaced {access : Access} (haccess : access.Full) {file : Option Bytes}
    {source : Bytes} {lineNumber : ℕ}
    (hcount : (replaced lineNumber source (lines newline (file.getD []))).length ≤ intMax) :
    Writes access file lineNumber source
      (true, some (unlines newline (replaced lineNumber source (lines newline (file.getD []))))) := by
  obtain ⟨fuel, hread⟩ := collect_openFile file
  obtain ⟨fuel', hwrite⟩ := writeRound_returns hcount (Nat.zero_le _) []
  have hread' := rounds_mono (Nat.le_max_left fuel fuel') hread
  have hwrite' := rounds_mono (Nat.le_max_right fuel fuel') hwrite
  refine ⟨max fuel fuel', ?_⟩
  simp only [writeLines, haccess.readable, haccess.writable, haccess.stored, ↓reduceIte, hread',
    Option.bind_some, hwrite', Option.join_some, Option.map_some, List.nil_append, List.drop_zero]

/-- A file that cannot be opened to write stays as it is, and success is reported all the same. -/
theorem Writes.unwritable {access : Access} (haccess : access.writable = false)
    {file : Option Bytes} {lineNumber : ℕ} {source : Bytes} {result : Bool × Option Bytes}
    (h : Writes access file lineNumber source result) : result = (true, file) := by
  obtain ⟨fuel, hfuel⟩ := h
  obtain ⟨lines, -, hwritten⟩ := Option.bind_eq_some_iff.mp hfuel
  obtain ⟨written, -, rfl⟩ := Option.map_eq_some_iff.mp hwritten
  simp only [haccess, Bool.false_eq_true, ↓reduceIte]

theorem writeRound_overflows {lines : List Bytes} (h : intMax < lines.length) {i : ℕ}
    (hi : i ≤ intMax) (written : Bytes) : Returns (writeRound lines) (i, written) none := by
  induction hi using Nat.decreasingInduction generalizing written with
  | self =>
    have hexit : writeRound lines (intMax, written) = .inr none := by
      simp only [writeRound, h, ↓reduceDIte, ↓reduceIte]
    exact .exit hexit
  | of_succ i hlt ih => exact .next (writeRound_next (by omega) (by omega) written) (ih _)

/-- Where there are more lines than an `int` counts, nothing can be said of the call. -/
theorem not_writes_of_many {access : Access} (haccess : access.readable = true)
    {file : Option Bytes} {source : Bytes} {lineNumber : ℕ}
    (hcount : intMax < (replaced lineNumber source (lines newline (file.getD []))).length)
    (result : Bool × Option Bytes) : ¬ Writes access file lineNumber source result := by
  intro ⟨fuel, hfuel⟩
  simp only [writeLines, haccess, ↓reduceIte] at hfuel
  obtain ⟨found, hfound, hwritten⟩ := Option.bind_eq_some_iff.mp hfuel
  obtain rfl := Returns.unique ⟨fuel, hfound⟩ (collect_openFile file)
  obtain ⟨written, hloop, -⟩ := Option.map_eq_some_iff.mp hwritten
  have hsame := Returns.unique ⟨fuel, Option.join_eq_some_iff.mp hloop⟩
    (writeRound_overflows hcount (Nat.zero_le _) [])
  cases hsame

theorem fileLines_eq_lines (content : Bytes) :
    ClientProcess.fileLines content = lines newline content := by
  by_cases hended : Ended newline content
  · simp [ClientProcess.fileLines, splitLines_of_ended hended]
  · obtain ⟨last, hne, hlast⟩ := getLast?_lines hended
    simp [ClientProcess.fileLines, splitLines_of_unended hended, hlast, hne]

section Files

variable {access : Access} {files : Bytes → Option Bytes} {path source : Bytes} {lineNumber : ℕ}

theorem replaceLine_self : ClientProcess.replaceLine path lineNumber source files path =
    some (unlines newline (replaced lineNumber source (lines newline ((files path).getD [])))) := by
  simp only [ClientProcess.replaceLine, Function.update_self, fileLines_eq_lines]
  rfl

/-- What is left is what `ClientProcess.replaceLine` leaves. -/
theorem writes_replaceLine (haccess : access.Full) (hcount : (replaced lineNumber source
      (lines newline ((files path).getD []))).length ≤ intMax) :
    Writes access (files path) lineNumber source
      (true, ClientProcess.replaceLine path lineNumber source files path) := by
  rw [replaceLine_self]
  exact writes_replaced haccess hcount

end Files

section Replaced

variable {lineNumber i : ℕ} {source : Bytes} {before : List Bytes}

theorem replaced_min : replaced (min lineNumber (before.length + 1)) source before =
    replaced lineNumber source before := by
  by_cases hle : lineNumber ≤ before.length + 1
  · rw [Nat.min_eq_left hle]
  · rw [Nat.min_eq_right (by omega), replaced, replaced, if_pos (by omega), if_pos (by omega)]

theorem mem_replaced {line : Bytes} (h : line ∈ replaced lineNumber source before) :
    line = source ∨ line ∈ before := by
  rw [replaced] at h
  split_ifs at h
  · simpa [or_comm] using h
  · exact (List.mem_or_eq_of_mem_set h).symm

theorem length_replaced (hle : lineNumber ≤ before.length + 1) :
    (replaced lineNumber source before).length = max before.length lineNumber := by
  rw [replaced]
  split_ifs
  · rw [List.length_append, List.length_singleton]
    omega
  · rw [List.length_set]
    omega

theorem getElem?_replaced_self (h : 1 ≤ lineNumber) (hle : lineNumber ≤ before.length + 1) :
    (replaced lineNumber source before)[lineNumber - 1]? = some source := by
  rw [replaced]
  split_ifs
  · have hlast : lineNumber - 1 = before.length := by omega
    rw [hlast, List.getElem?_concat_length]
  · exact List.getElem?_set_self (by omega)

theorem getElem?_replaced_ne (hne : i ≠ lineNumber - 1) (hi : i < before.length) :
    (replaced lineNumber source before)[i]? = before[i]? := by
  rw [replaced]
  split_ifs
  · exact List.getElem?_append_left hi
  · exact List.getElem?_set_ne hne.symm

theorem lines_replaced (hsource : newline ∉ source) (content : Bytes) :
    lines newline (unlines newline (replaced lineNumber source (lines newline content))) =
      replaced lineNumber source (lines newline content) := by
  apply lines_unlines
  intro line hline
  rcases mem_replaced hline with rfl | hmem
  · exact hsource
  · exact notMem_of_mem_lines hmem

end Replaced

/-- After a write the line is there and is read, all other lines are as they were, and no line
comes or goes but to make room for it. -/
structure PutGet (lineNumber : ℕ) (source before after : Bytes) : Prop where
  line : (lines newline after)[lineNumber - 1]? = some source
  read : ∀ destination, Reads (some after) lineNumber destination (true, source)
  others : ∀ i, i ≠ lineNumber - 1 → i < (lines newline before).length →
    (lines newline after)[i]? = (lines newline before)[i]?
  count : (lines newline after).length = max (lines newline before).length lineNumber

theorem putGet_replaced {lineNumber : ℕ} {source content : Bytes} (h : 1 ≤ lineNumber)
    (hle : lineNumber ≤ (lines newline content).length + 1) (hsource : newline ∉ source) :
    PutGet lineNumber source content
      (unlines newline (replaced lineNumber source (lines newline content))) := by
  have hline : (replaced lineNumber source (lines newline content))[lineNumber - 1]? = some source :=
    getElem?_replaced_self h hle
  rw [← lines_replaced hsource] at hline
  constructor
  · exact hline
  · intro destination
    rw [← readLine_of_line h hline destination]
    exact reads_readLine h _ destination
  · intro i hne hi
    rw [lines_replaced hsource, getElem?_replaced_ne hne hi]
  · rw [lines_replaced hsource, length_replaced hle]

/-- The line that is written is the one asked for, or the one after the last. -/
theorem writes_putGet {access : Access} (haccess : access.Full) {lineNumber : ℕ}
    (h : 1 ≤ lineNumber) {source : Bytes} (hsource : newline ∉ source) {content : Bytes}
    (hcount : max (lines newline content).length
      (min lineNumber ((lines newline content).length + 1)) ≤ intMax) :
    ∃ after, (∀ result, Writes access (some content) lineNumber source result ↔
        result = (true, some after)) ∧
      PutGet (min lineNumber ((lines newline content).length + 1)) source content after := by
  have hle := Nat.min_le_right lineNumber ((lines newline content).length + 1)
  have hlines : (replaced lineNumber source (lines newline content)).length ≤ intMax := by
    rw [← replaced_min, length_replaced hle]
    exact hcount
  have hwrites : Writes access (some content) lineNumber source _ :=
    writes_replaced haccess hlines
  have hputGet := putGet_replaced (by omega) hle hsource
  rw [replaced_min] at hputGet
  refine ⟨_, fun result => ⟨fun hresult => hresult.unique hwrites, fun hresult => ?_⟩, hputGet⟩
  rw [hresult]
  exact hwrites

theorem full_access : Access.Full ⟨true, true, id⟩ := ⟨rfl, rfl, fun _ => rfl⟩

theorem writes_putGet_first :
    ∃ after, (∀ result, Writes ⟨true, true, id⟩ (some [97, 10, 98]) 1 [99] result ↔
        result = (true, some after)) ∧
      PutGet (min 1 ((lines newline [97, 10, 98]).length + 1)) [99] [97, 10, 98] after :=
  writes_putGet full_access (by decide) (by decide) (by decide)

/-- In a file with one line the third line is written as the second. -/
theorem not_putGet_third : ∃ after,
    Writes ⟨true, true, id⟩ (some [97, 10]) 3 [98] (true, some after) ∧
      ¬ PutGet 3 [98] [97, 10] after := by
  refine ⟨_, ⟨3, rfl⟩, fun hput => ?_⟩
  have hline := hput.line
  exact absurd hline (by decide)

end EncryptedTransfer.FileHandler
