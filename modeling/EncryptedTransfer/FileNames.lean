import EncryptedTransfer.CryptoLaws
import EncryptedTransfer.ClientMessages

/-!
# A file's name on its way

From the client's path to the name the server keeps the file under, and back in the report.
-/
namespace EncryptedTransfer.FileNames
open ByteFormats Text ServerCalls ServerEffects CryptoLaws ClientProcess ClientMessages

/-- The server reads one and the same name from the upload and from the name field it has sent
itself. -/
structure KeptAs (E : Externals) (path : Bytes) (filename : Str) : Prop where
  uploaded : filenameOf E (resize 255 (fileNameOf path)) = some filename
  echoed : filenameOf E (reportField filename) = some filename
  nul_notMem : nul ∉ filename

theorem tolower_eq_backslash (b : UInt8) : tolower b = backslash ↔ b = backslash := by
  unfold tolower
  split_ifs with hupper
  · have hlow : 65 ≤ b.toNat := UInt8.le_iff_toNat_le.mp hupper.1
    have hhigh : b.toNat ≤ 90 := UInt8.le_iff_toNat_le.mp hupper.2
    have hadd : (b + 32).toNat = (b.toNat + 32) % 256 := UInt8.toNat_add b 32
    have hback : backslash.toNat = 92 := rfl
    rw [← UInt8.toNat_inj, ← UInt8.toNat_inj]
    omega
  · rfl

theorem fileNameOf_map_tolower (path : Bytes) :
    fileNameOf (path.map tolower) = (fileNameOf path).map tolower := by
  have hsame : (fun b => decide (b ≠ backslash)) ∘ tolower = fun b => decide (b ≠ backslash) := by
    funext b
    simp [tolower_eq_backslash]
  rw [fileNameOf, ← List.map_reverse, List.takeWhile_map, hsame, ← List.map_reverse, fileNameOf]

theorem reportField_eq {filename : Str} (h : (encodeUtf8 filename).length ≤ 255) :
    reportField filename = padField 255 filename := by
  have hlen := length_le_encodeUtf8 filename
  rw [reportField, padNul, encodeUtf8_append, encodeUtf8_replicate_nul, List.take_append,
    List.take_of_length_le h, List.take_replicate, padField]
  congr 2
  omega

theorem nul_notMem_of_encodeUtf8 {s : Str} (h : 0 ∉ encodeUtf8 s) : nul ∉ s := by
  intro hmem
  apply h
  exact List.mem_flatMap.mpr ⟨nul, hmem, by decide⟩

theorem toLower_eq_nul {c : Char} (h : c.toLower = nul) : c = nul := by
  by_cases hu : 65 ≤ c.val.toNat ∧ c.val.toNat ≤ 90
  · have ht := toNat_toLower_of_upper hu
    rw [h] at ht
    have h0 : nul.val.toNat = 0 := rfl
    omega
  · rwa [toLower_of_not_upper hu] at h

variable {E : Externals} (hlower : LowerLaws E)
include hlower

/-- A name whose first 255 bytes are UTF-8 is kept in lower case. -/
theorem keptAs_lower {path : Bytes} {filename : Str} (hno : 0 ∉ fileNameOf path)
    (hname : decodeUtf8 ((fileNameOf path).take 255) = some filename)
    (hfits : (encodeUtf8 (E.lower filename)).length ≤ 255) :
    KeptAs E (path.map tolower) (E.lower filename) := by
  have hencode := decodeUtf8_eq_some.mp hname
  have hnul : nul ∉ filename := by
    apply nul_notMem_of_encodeUtf8
    rw [← hencode]
    exact fun hmem => hno (List.mem_of_mem_take hmem)
  have hnul' : nul ∉ filename.map Char.toLower := by
    intro hmem
    obtain ⟨c, hc, he⟩ := List.mem_map.mp hmem
    exact hnul (toLower_eq_nul he ▸ hc)
  have hlen : (encodeUtf8 (filename.map Char.toLower)).length = min 255 (fileNameOf path).length := by
    rw [encodeUtf8_map_toLower, List.length_map, ← hencode, List.length_take]
  have hfield : resize 255 (fileNameOf (path.map tolower)) =
      padField 255 (filename.map Char.toLower) := by
    rw [fileNameOf_map_tolower, resize, padField, hlen, encodeUtf8_map_toLower, ← hencode,
      List.map_take, List.length_map]
    congr 2
    omega
  refine ⟨?_, ?_, hlower.nul_notMem _ hnul⟩
  · rw [hfield, filenameOf_padField E hnul', hlower.lower_ascii]
  · rw [reportField_eq hfits, filenameOf_padField E (hlower.nul_notMem _ hnul), hlower.idempotent]

omit hlower in
theorem encodeUtf8_ascii {s : Str} (h : ∀ c ∈ s, c.val.toNat < 128) :
    encodeUtf8 s = s.map (fun c => UInt8.ofNat c.val.toNat) := by
  induction s with
  | nil => rfl
  | cons c s ih =>
    have hc : c.val.toNat ≤ 0x7f := Nat.le_of_lt_succ (h c (by simp))
    rw [encodeUtf8_cons, utf8EncodeChar_ascii hc, ih (fun d hd => h d (by simp [hd])), List.map_cons,
      List.singleton_append]

theorem keptAs_ascii {path : Bytes} {filename : Str} (hname : fileNameOf path = encodeUtf8 filename)
    (hascii : ∀ c ∈ filename, c.val.toNat < 128) (hnul : nul ∉ filename) :
    KeptAs E (path.map tolower) ((filename.take 255).map Char.toLower) := by
  have htake : ∀ c ∈ filename.take 255, c.val.toNat < 128 :=
    fun c hc => hascii c (List.mem_of_mem_take hc)
  have hcut : (fileNameOf path).take 255 = encodeUtf8 (filename.take 255) := by
    rw [hname, encodeUtf8_ascii hascii, encodeUtf8_ascii htake, List.map_take]
  have hno : 0 ∉ fileNameOf path := by
    rw [hname, encodeUtf8_ascii hascii]
    intro hmem
    obtain ⟨c, hc, he⟩ := List.mem_map.mp hmem
    have hlt := hascii c hc
    have hzero : c.val.toNat % 256 = 0 := by simpa using congrArg UInt8.toNat he
    have hc0 : c = nul := Char.ext (UInt32.toNat_inj.mp (by
      have h0 : nul.val.toNat = 0 := rfl
      omega))
    exact hnul (hc0 ▸ hc)
  have hfits : (encodeUtf8 (E.lower (filename.take 255))).length ≤ 255 := by
    rw [hlower.ascii _ htake, encodeUtf8_map_toLower, List.length_map, encodeUtf8_ascii htake,
      List.length_map, List.length_take]
    omega
  have hkept := keptAs_lower hlower hno (by rw [hcut, decodeUtf8_encodeUtf8]) hfits
  rwa [hlower.ascii _ htake] at hkept

end EncryptedTransfer.FileNames
