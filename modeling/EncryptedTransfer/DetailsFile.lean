import Mathlib.Tactic.IntervalCases
import EncryptedTransfer.ClientMessages

/-!
# The details file, `me.info`

The lines of a file as `FileHandler` reads and writes them, and the client id in hexadecimal on
the second line.
-/
namespace EncryptedTransfer.DetailsFile
open ServerStores hiding Client Client.new
open ByteFormats Text ClientProcess

section Lines

variable {line : Bytes}

theorem splitLines_append (h : newline ∉ line) (rest : Bytes) :
    splitLines (line ++ newline :: rest) = line :: splitLines rest := by
  induction line with
  | nil => rw [List.nil_append, splitLines, if_pos rfl]
  | cons b line ih =>
    have hb : b ≠ newline := fun he => h (by simp [he])
    rw [List.cons_append, splitLines, if_neg hb, ih fun hmem => h (List.mem_cons_of_mem b hmem)]

theorem notMem_of_mem_splitLines {content : Bytes} (h : line ∈ splitLines content) :
    newline ∉ line := by
  induction content generalizing line with
  | nil =>
    obtain rfl := List.mem_singleton.mp h
    exact List.not_mem_nil
  | cons b content ih =>
    rw [splitLines] at h
    split_ifs at h with hb
    · rcases List.mem_cons.mp h with rfl | hmem
      · exact List.not_mem_nil
      · exact ih hmem
    · have hne : newline ≠ b := fun he => hb he.symm
      cases hlines : splitLines content with
      | nil =>
        rw [hlines] at h
        obtain rfl := List.mem_singleton.mp h
        rwa [List.mem_singleton]
      | cons first lines =>
        rw [hlines] at h ih
        rcases List.mem_cons.mp h with rfl | hmem
        · rw [List.mem_cons, not_or]
          exact ⟨hne, ih List.mem_cons_self⟩
        · exact ih (List.mem_cons_of_mem _ hmem)

theorem readLine_second {content first second : Bytes} {rest : List Bytes}
    (h : splitLines content = first :: second :: rest) (destination : Bytes) :
    readLine (some content) 2 destination = (true, second) := by
  simp [readLine, h, readLineLoop]

/-- A single line is also read as the second. -/
theorem readLine_single {content first : Bytes} (h : splitLines content = [first])
    (destination : Bytes) : readLine (some content) 2 destination = (true, first) := by
  simp [readLine, h, readLineLoop]

theorem readLineLoop_mem (lineNumber : ℕ) (lines : List Bytes) (lineCount : ℕ)
    (destination : Bytes) : (readLineLoop lineNumber lineCount destination lines).2 = destination ∨
      (readLineLoop lineNumber lineCount destination lines).2 ∈ lines := by
  induction lines generalizing lineCount destination with
  | nil => exact .inl rfl
  | cons line lines ih =>
    rw [readLineLoop]
    split_ifs
    · exact .inr List.mem_cons_self
    · rcases ih (lineCount + 1) line with heq | hmem
      · exact .inr (List.mem_cons.mpr (.inl heq))
      · exact .inr (List.mem_cons_of_mem _ hmem)

theorem notMem_readLine {file : Option Bytes} {destination : Bytes} (h : newline ∉ destination)
    (lineNumber : ℕ) : newline ∉ (readLine file lineNumber destination).2 := by
  cases file with
  | none => exact h
  | some content =>
    rcases readLineLoop_mem lineNumber (splitLines content) 1 destination with heq | hmem
    · exact (congrArg (newline ∉ ·) heq).mpr h
    · exact notMem_of_mem_splitLines hmem

theorem fileLines_eq {content first second : Bytes} {rest : List Bytes}
    (h : splitLines content = first :: second :: rest) (hsecond : second ≠ []) :
    ∃ rest', fileLines content = first :: second :: rest' := by
  unfold fileLines
  simp only [h]
  split_ifs with hlast
  · cases rest with
    | nil => simp [hsecond] at hlast
    | cons third rest => exact ⟨(third :: rest).dropLast, rfl⟩
  · exact ⟨rest, rfl⟩

theorem splitLines_replaceLine {path content first second : Bytes} (source : Bytes)
    {rest : List Bytes} {files : Bytes → Option Bytes} (hfile : files path = some content)
    (h : splitLines content = first :: second :: rest) (hsecond : second ≠ []) :
    ∃ content' rest', replaceLine path 3 source files path = some content' ∧
      splitLines content' = first :: second :: rest' := by
  obtain ⟨rest', hlines⟩ := fileLines_eq h hsecond
  have hno (line : Bytes) (hmem : line ∈ first :: second :: rest) : newline ∉ line :=
    notMem_of_mem_splitLines (h ▸ hmem)
  have hwritten : ∃ lines, (if (first :: second :: rest').length < 3 then
      (first :: second :: rest') ++ [source] else (first :: second :: rest').set 2 source) =
        first :: second :: lines := by
    split_ifs
    · exact ⟨rest' ++ [source], rfl⟩
    · exact ⟨rest'.set 0 source, rfl⟩
  obtain ⟨lines, hlines'⟩ := hwritten
  refine ⟨_, splitLines (lines.flatMap fun line => line ++ [newline]), Function.update_self .., ?_⟩
  simp only [hfile, Option.getD_some, hlines, hlines', List.flatMap_cons, List.append_assoc,
    List.singleton_append]
  rw [splitLines_append (hno first (by simp)), splitLines_append (hno second (by simp))]

/-- Writing the third line of a single line makes it the second. -/
theorem splitLines_replaceLine_single {path content first source : Bytes}
    {files : Bytes → Option Bytes} (hfile : files path = some content)
    (h : splitLines content = [first]) (hfirst : first ≠ []) (hsource : newline ∉ source) :
    ∃ content', replaceLine path 3 source files path = some content' ∧
      splitLines content' = [first, source, []] := by
  have hlines : fileLines content = [first] := by
    simp [fileLines, h, hfirst]
  have hno : newline ∉ first := notMem_of_mem_splitLines (h ▸ List.mem_singleton_self first)
  refine ⟨_, Function.update_self .., ?_⟩
  simp only [hfile, Option.getD_some, hlines, List.length_singleton, Nat.reduceLT, ↓reduceIte,
    List.singleton_append, List.flatMap_cons, List.flatMap_nil, List.append_nil, List.append_assoc]
  rw [splitLines_append hno, splitLines_append hsource]
  rfl

end Lines

def digits (b : UInt8) : Bytes := encodeUtf8 [hexDigit (b.toNat / 16), hexDigit (b.toNat % 16)]

theorem encodeUtf8_hex (data : Bytes) : encodeUtf8 (hex data) = data.flatMap digits := by
  induction data with
  | nil => rfl
  | cons b data ih =>
    have hcons : hex (b :: data) = [hexDigit (b.toNat / 16), hexDigit (b.toNat % 16)] ++ hex data :=
      rfl
    rw [hcons, encodeUtf8_append, ih, List.flatMap_cons, digits]

theorem digit_spec {n : ℕ} (h : n < 16) : ∃ d, String.utf8EncodeChar (hexDigit n) = [d] ∧
    isHexDigit d = true ∧ hexValue d = UInt8.ofNat n := by
  interval_cases n <;> exact ⟨_, rfl, rfl, rfl⟩

theorem digits_spec (b : UInt8) : ∃ high low, digits b = [high, low] ∧
    isHexDigit high = true ∧ isHexDigit low = true ∧ 16 * hexValue high + hexValue low = b := by
  have hb := b.toNat_lt
  obtain ⟨high, hhigh, hok, hvalue⟩ := digit_spec (n := b.toNat / 16) (by omega)
  obtain ⟨low, hlow, hok', hvalue'⟩ := digit_spec (n := b.toNat % 16) (by omega)
  refine ⟨high, low, ?_, hok, hok', ?_⟩
  · rw [digits, encodeUtf8_cons, encodeUtf8_cons, hhigh, hlow]
    rfl
  · rw [hvalue, hvalue', ← UInt8.toNat_inj]
    have hbase : (16 : UInt8).toNat = 16 := rfl
    simp only [UInt8.toNat_add, UInt8.toNat_mul, UInt8.toNat_ofNat', hbase]
    omega

theorem hexToBytesArray_hex (data : Bytes) : hexToBytesArray (encodeUtf8 (hex data)) = data := by
  rw [encodeUtf8_hex]
  induction data with
  | nil => rfl
  | cons b data ih =>
    obtain ⟨high, low, hdigits, -, -, hvalue⟩ := digits_spec b
    rw [List.flatMap_cons, hdigits, List.cons_append, List.cons_append, List.nil_append,
      hexToBytesArray, ih, hvalue]

theorem length_hex (data : Bytes) : (encodeUtf8 (hex data)).length = 2 * data.length := by
  rw [encodeUtf8_hex]
  induction data with
  | nil => rfl
  | cons b data ih =>
    obtain ⟨high, low, hdigits, -⟩ := digits_spec b
    rw [List.flatMap_cons, List.length_append, ih, hdigits, List.length_cons, List.length_cons]
    simp only [List.length_nil, List.length_cons]
    omega

theorem isHexDigit_of_mem_hex {data : Bytes} {b : UInt8} (h : b ∈ encodeUtf8 (hex data)) :
    isHexDigit b = true := by
  rw [encodeUtf8_hex] at h
  obtain ⟨x, -, hx⟩ := List.mem_flatMap.mp h
  obtain ⟨high, low, hdigits, hok, hok', -⟩ := digits_spec x
  rw [hdigits] at hx
  rcases List.mem_cons.mp hx with rfl | hx
  · exact hok
  · obtain rfl := List.mem_singleton.mp hx
    exact hok'

theorem newline_notMem_hex (data : Bytes) : newline ∉ encodeUtf8 (hex data) :=
  fun hmem => absurd (isHexDigit_of_mem_hex hmem) (by decide)

theorem tolower_of_isHexDigit {b : UInt8} (h : isHexDigit b = true) : tolower b = b := by
  have hcase : ¬ (65 ≤ b ∧ b ≤ 90) := by
    simp only [isHexDigit, Bool.or_eq_true, Bool.and_eq_true, decide_eq_true_eq] at h
    simp only [UInt8.le_iff_toNat_le] at h ⊢
    simp only [UInt8.reduceToNat] at h ⊢
    omega
  rw [tolower, if_neg hcase]

theorem verifyClientIdHex_hex {clientId : Bytes} (h : clientId.length = 16) :
    verifyClientIdHex (encodeUtf8 (hex clientId)) = true := by
  have hall : ∀ b ∈ encodeUtf8 (hex clientId), isHexDigit (tolower b) = true := by
    intro b hb
    have hdigit := isHexDigit_of_mem_hex hb
    rwa [tolower_of_isHexDigit hdigit]
  rw [verifyClientIdHex, length_hex, h, List.all_eq_true.mpr hall]
  rfl

/-- The file holds this id on its second line. -/
def HasId (clientId : Bytes) (files : Bytes → Option Bytes) : Prop :=
  ∃ content first second rest, files clientDetailsPath = some content ∧
    splitLines content = first :: second :: rest ∧ verifyClientIdHex second = true ∧
      hexToBytesArray second = clientId

theorem verifyClientIdHex_nil : verifyClientIdHex [] = false := rfl

theorem ne_nil_of_verifyClientIdHex {hex : Bytes} (h : verifyClientIdHex hex = true) : hex ≠ [] := by
  rintro rfl
  rw [verifyClientIdHex_nil] at h
  cases h

theorem HasId.replaceLine {clientId source : Bytes} {files : Bytes → Option Bytes}
    (h : HasId clientId files) : HasId clientId (replaceLine clientDetailsPath 3 source files) := by
  obtain ⟨content, first, second, rest, hfile, hlines, hvalid, hid⟩ := h
  obtain ⟨content', rest', hfile', hlines'⟩ := splitLines_replaceLine source hfile hlines
    (ne_nil_of_verifyClientIdHex hvalid)
  exact ⟨content', first, second, rest', hfile', hlines', hvalid, hid⟩

theorem HasId.update {clientId path content : Bytes} {files : Bytes → Option Bytes}
    (h : HasId clientId files) (hpath : path ≠ clientDetailsPath) :
    HasId clientId (Function.update files path (some content)) := by
  obtain ⟨details, first, second, rest, hfile, hparts⟩ := h
  refine ⟨details, first, second, rest, ?_, hparts⟩
  rw [Function.update_of_ne hpath.symm, hfile]

theorem hasId_append {clientId name : Bytes} {files : Bytes → Option Bytes}
    (hid : clientId.length = 16) (hname : newline ∉ name) (hnone : files clientDetailsPath = none) :
    HasId clientId (appendLine clientDetailsPath (encodeUtf8 (hex clientId))
      (appendLine clientDetailsPath name files)) := by
  refine ⟨_, name, encodeUtf8 (hex clientId), [[]], Function.update_self .., ?_,
    verifyClientIdHex_hex hid, hexToBytesArray_hex clientId⟩
  rw [appendLine, Function.update_self, hnone]
  simp only [Option.getD_none, Option.getD_some, List.nil_append, List.append_assoc,
    List.singleton_append]
  rw [splitLines_append hname, splitLines_append (newline_notMem_hex clientId)]
  rfl

theorem HasId.loaded {clientId : Bytes} {files : Bytes → Option Bytes} (h : HasId clientId files)
    (hinfo : (files serverFilePath).isSome = true) (connects : Bool) :
    (Client.new files connects).clientIdHex ≠ [] ∧
      (Client.new files connects).clientIdBytes = clientId := by
  obtain ⟨content, first, second, rest, hfile, hlines, hvalid, hid⟩ := h
  have hsome : (files clientDetailsPath).isSome = true := by rw [hfile]; rfl
  have hread := readLine_second hlines []
  have hload (c : Client) (hc : c.files = files) : (loadRegistrationDetails c).clientIdHex = second ∧
      (loadRegistrationDetails c).clientIdBytes = hexToBytesArray second := by
    unfold loadRegistrationDetails
    rw [hc, if_pos hsome, hfile, hread]
    simp [hvalid]
  obtain ⟨hhex, hbytes⟩ := hload (loadClientName ⟨[], [], List.replicate 16 0, [], [], 0, 1, [],
    connects, files, [], false, [], false, [], []⟩) rfl
  rw [Client.new, if_pos hinfo]
  refine ⟨?_, hbytes.trans hid⟩
  simp only [hhex]
  exact ne_nil_of_verifyClientIdHex hvalid

end EncryptedTransfer.DetailsFile
