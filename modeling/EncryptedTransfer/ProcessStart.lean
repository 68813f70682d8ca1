import EncryptedTransfer.ClientLives

/-!
# What a process starts with

For all contents of `transfer.info` and `me.info`: the name, the id and the keys of a client that
has just been started.
-/
namespace EncryptedTransfer.ProcessStart
open ServerStores hiding Client Client.new
open ByteFormats Text ClientProcess DetailsFile KeyAgreement

/-- The text is the id in hexadecimal digits, in either case. -/
def Spells (text clientId : Bytes) : Prop :=
  clientId.length = 16 ∧ text.map tolower = encodeUtf8 (hex clientId)

theorem digit_value : ∀ k : Fin 256, isHexDigit (tolower (UInt8.ofNat k)) = true →
    ∃ n : Fin 16, hexValue (UInt8.ofNat k) = UInt8.ofNat n ∧
      String.utf8EncodeChar (hexDigit n) = [tolower (UInt8.ofNat k)] := by
  decide +kernel

theorem digits_value {a b : UInt8} (ha : isHexDigit (tolower a) = true)
    (hb : isHexDigit (tolower b) = true) :
    digits (16 * hexValue a + hexValue b) = [tolower a, tolower b] := by
  obtain ⟨high, hhigh, htext⟩ := digit_value ⟨a.toNat, a.toNat_lt⟩ (by simpa using ha)
  obtain ⟨low, hlow, htext'⟩ := digit_value ⟨b.toNat, b.toNat_lt⟩ (by simpa using hb)
  simp only [UInt8.ofNat_toNat] at hhigh htext hlow htext'
  have hvalue : (16 * hexValue a + hexValue b).toNat = 16 * high + low := by
    have hbase : (16 : UInt8).toNat = 16 := rfl
    rw [hhigh, hlow]
    simp only [UInt8.toNat_add, UInt8.toNat_mul, UInt8.toNat_ofNat', hbase]
    omega
  have hdiv : (16 * high.val + low.val) / 16 = high := by omega
  have hmod : (16 * high.val + low.val) % 16 = low := by omega
  rw [digits, hvalue, hdiv, hmod, encodeUtf8_cons, encodeUtf8_cons, htext, htext']
  rfl

theorem hex_hexToBytesArray (text : Bytes) (heven : text.length % 2 = 0)
    (hall : ∀ b ∈ text, isHexDigit (tolower b) = true) :
    encodeUtf8 (hex (hexToBytesArray text)) = text.map tolower := by
  rw [encodeUtf8_hex]
  induction text using hexToBytesArray.induct with
  | case1 a b rest ih =>
    rw [hexToBytesArray, List.flatMap_cons, digits_value (hall a (by simp)) (hall b (by simp)), ih]
    · rfl
    · simp only [List.length_cons] at heven
      omega
    · exact fun x hx => hall x (by simp [hx])
  | case2 text hshort =>
    cases text with
    | nil => rfl
    | cons a rest =>
      cases rest with
      | nil => simp at heven
      | cons b rest => exact absurd rfl (hshort a b rest)

theorem Spells.bytes {text clientId : Bytes} (h : Spells text clientId) :
    verifyClientIdHex text = true ∧ hexToBytesArray text = clientId := by
  obtain ⟨hlen, htext⟩ := h
  have hlength : text.length = 32 := by
    have hcount := congrArg List.length htext
    rw [List.length_map, length_hex, hlen] at hcount
    exact hcount
  have hall : ∀ b ∈ text, isHexDigit (tolower b) = true := by
    intro b hb
    have hmem : tolower b ∈ encodeUtf8 (hex clientId) := by
      rw [← htext]
      exact List.mem_map_of_mem hb
    exact isHexDigit_of_mem_hex hmem
  have hwritten := hex_hexToBytesArray text (by omega) hall
  constructor
  · rw [verifyClientIdHex, hlength, List.all_eq_true.mpr hall]
    rfl
  · rw [← hexToBytesArray_hex (hexToBytesArray text), hwritten, htext, hexToBytesArray_hex]

/-- What is accepted are the spellings of ids, and each is read as its id. -/
theorem spells_iff {text clientId : Bytes} : Spells text clientId ↔
    verifyClientIdHex text = true ∧ hexToBytesArray text = clientId := by
  refine ⟨Spells.bytes, ?_⟩
  rintro ⟨hvalid, rfl⟩
  simp only [verifyClientIdHex, Bool.and_eq_true, decide_eq_true_eq, List.all_eq_true] at hvalid
  obtain ⟨hlength, hall⟩ := hvalid
  have hwritten := hex_hexToBytesArray text (by omega) hall
  refine ⟨?_, hwritten.symm⟩
  have hcount := congrArg List.length hwritten
  rw [length_hex, List.length_map] at hcount
  omega

/-- The line of this number, or the last one where there are fewer. -/
def lineOf (lineNumber : ℕ) (content : Bytes) : Bytes :=
  ((splitLines content).take lineNumber).getLast?.getD []

theorem splitLines_ne_nil (content : Bytes) : splitLines content ≠ [] := by
  cases content with
  | nil => simp [splitLines]
  | cons b content =>
    rw [splitLines]
    split_ifs
    · simp
    · split <;> simp

theorem readLineLoop_snd {lineNumber lineCount : ℕ} (h : lineCount ≤ lineNumber)
    (destination : Bytes) (lines : List Bytes) :
    (readLineLoop lineNumber lineCount destination lines).2 =
      (lines.take (lineNumber + 1 - lineCount)).getLast?.getD destination := by
  induction lines generalizing lineCount destination with
  | nil => simp [readLineLoop]
  | cons line lines ih =>
    have htake : lineNumber + 1 - lineCount = (lineNumber - lineCount) + 1 := by omega
    rw [readLineLoop, htake, List.take_succ_cons, List.getLast?_cons, Option.getD_some]
    split_ifs with hlast
    · simp [hlast]
    · rw [ih (by omega)]
      congr 3
      omega

theorem readLine_snd {lineNumber : ℕ} (h : 1 ≤ lineNumber) (content destination : Bytes) :
    (readLine (some content) lineNumber destination).2 = lineOf lineNumber content := by
  have hread := readLineLoop_snd h destination (splitLines content)
  obtain ⟨line, lines, hlines⟩ := List.exists_cons_of_ne_nil (splitLines_ne_nil content)
  obtain ⟨n, rfl⟩ := Nat.exists_eq_add_of_le' h
  rw [hlines, Nat.add_sub_cancel, List.take_succ_cons, List.getLast?_cons, Option.getD_some] at hread
  simp only [readLine, lineOf, hlines, hread, List.take_succ_cons, List.getLast?_cons,
    Option.getD_some]

theorem readLine_two (content destination : Bytes) :
    readLine (some content) 2 destination = (true, lineOf 2 content) := by
  refine Prod.ext ?_ (readLine_snd (by omega) content destination)
  obtain ⟨line, lines, hlines⟩ := List.exists_cons_of_ne_nil (splitLines_ne_nil content)
  cases lines with
  | nil => simp [readLine, hlines, readLineLoop]
  | cons second rest => simp [readLine, hlines, readLineLoop]

theorem resize_take (n : ℕ) (line : Bytes) : resize n (line.take n) = resize n line := by
  have hmissing : n - min n line.length = n - line.length := by omega
  rw [resize, resize, List.take_take, Nat.min_self, List.length_take, hmissing]

theorem loadClientName_some {c : Client} {info : Bytes} (hfile : c.files serverFilePath = some info) :
    loadClientName c = { c with clientName := (lineOf 2 info).take 255 } := by
  rw [loadClientName, hfile, readLine_two]

theorem loadRegistrationDetails_some {c : Client} {content : Bytes}
    (hfile : c.files clientDetailsPath = some content) :
    loadRegistrationDetails c =
      if verifyClientIdHex (lineOf 2 content) then
        { c with
          clientIdHex := lineOf 2 content
          clientIdBytes := hexToBytesArray (lineOf 2 content)
          privateKey := lineOf 3 content }
      else c := by
  rw [loadRegistrationDetails, hfile, if_pos (by rfl), readLine_two]
  simp only [Bool.true_and]
  rw [readLine_snd (by omega)]

theorem loadRegistrationDetails_none {c : Client} (hfile : c.files clientDetailsPath = none) :
    loadRegistrationDetails c = c := by
  rw [loadRegistrationDetails, hfile]
  rfl

/-- What a process starts with, for all contents of its two files: the name of `transfer.info`,
cut or filled to its size; an id exactly where `me.info` spells one, with the private key after
it; and without an id neither of them. -/
theorem new_starts {files : Bytes → Option Bytes} {info : Bytes}
    (hinfo : files serverFilePath = some info) (connects : Bool) :
    let c := Client.new files connects
    c.connectedToServer = connects ∧ c.clientName = resize 255 (lineOf 2 info) ∧
    (∀ clientId, c.clientIdHex ≠ [] ∧ c.clientIdBytes = clientId ↔
      ∃ content, files clientDetailsPath = some content ∧ Spells (lineOf 2 content) clientId) ∧
    (∀ content, files clientDetailsPath = some content → c.clientIdHex ≠ [] →
      c.clientIdHex = lineOf 2 content ∧ c.privateKey = lineOf 3 content) ∧
    (c.clientIdHex = [] → c.clientIdBytes = List.replicate 16 0 ∧ c.privateKey = []) := by
  simp only [Client.new, hinfo, Option.isSome_some, ↓reduceIte]
  rw [loadClientName_some hinfo]
  cases hdetails : files clientDetailsPath with
  | none =>
    rw [loadRegistrationDetails_none hdetails]
    simp [resize_take]
  | some content =>
    rw [loadRegistrationDetails_some hdetails]
    by_cases hvalid : verifyClientIdHex (lineOf 2 content) = true
    · have hne := ne_nil_of_verifyClientIdHex hvalid
      simp [hvalid, resize_take, hne, spells_iff]
    · simp [hvalid, resize_take, spells_iff]

/-- An id in capital letters, on the only line. -/
def capitalId : Bytes → Option Bytes :=
  Function.update filesOfA clientDetailsPath (some (List.replicate 32 65))

theorem new_starts_capitalId :
    (Client.new capitalId true).clientIdHex ≠ [] ∧
      (Client.new capitalId true).clientIdBytes = List.replicate 16 170 := by
  have hinfo : capitalId serverFilePath = some infoOfA := by decide
  obtain ⟨-, -, hid, -⟩ := new_starts hinfo true
  exact (hid _).mpr ⟨List.replicate 32 65, by decide, by decide, by decide +kernel⟩

end EncryptedTransfer.ProcessStart
