import Mathlib.Data.List.DropRight
import EncryptedTransfer.ByteFormats

/-!
# Text as characters and as UTF-8 bytes

Characters are Unicode scalar values, so the strict UTF-8 codec is the one of Lean's own
strings: decoding succeeds exactly on the encodings.
-/
namespace EncryptedTransfer.Text
open ByteFormats

abbrev Str := List Char

/-- The strict decoder: `none` where the bytes are not valid UTF-8. -/
def decodeUtf8 (data : Bytes) : Option Str := data.toByteArray.utf8Decode?.map Array.toList

def encodeUtf8 (s : Str) : Bytes := s.flatMap String.utf8EncodeChar

theorem encodeUtf8_toByteArray (s : Str) : (encodeUtf8 s).toByteArray = s.utf8Encode := rfl

theorem decodeUtf8_encodeUtf8 (s : Str) : decodeUtf8 (encodeUtf8 s) = some s := by
  simp [decodeUtf8, encodeUtf8_toByteArray, List.utf8Decode?_utf8Encode]

theorem decodeUtf8_eq_some {data : Bytes} {s : Str} :
    decodeUtf8 data = some s ↔ data = encodeUtf8 s := by
  constructor
  · intro h
    obtain ⟨cs, hcs, rfl⟩ := Option.map_eq_some_iff.mp h
    have hs : data.toByteArray.utf8Decode?.isSome := by simp [hcs]
    obtain ⟨l, hl⟩ := ByteArray.isSome_utf8Decode?_iff.mp hs
    have he : data = encodeUtf8 l := by
      rw [← List.toByteArray_inj, hl, encodeUtf8_toByteArray]
    rw [he] at h ⊢
    rw [decodeUtf8_encodeUtf8] at h
    rw [Option.some.inj h]
  · rintro rfl
    exact decodeUtf8_encodeUtf8 s

@[simp] theorem encodeUtf8_nil : encodeUtf8 [] = [] := rfl

@[simp] theorem encodeUtf8_append (s t : Str) :
    encodeUtf8 (s ++ t) = encodeUtf8 s ++ encodeUtf8 t := List.flatMap_append

@[simp] theorem encodeUtf8_cons (c : Char) (s : Str) :
    encodeUtf8 (c :: s) = String.utf8EncodeChar c ++ encodeUtf8 s := List.flatMap_cons

theorem length_le_encodeUtf8 (s : Str) : s.length ≤ (encodeUtf8 s).length := by
  induction s with
  | nil => simp
  | cons c s ih =>
    have hc := c.utf8Size_pos
    simp only [encodeUtf8_cons, List.length_append, String.length_utf8EncodeChar,
      List.length_cons]
    omega

def nul : Char := Char.ofNat 0

theorem encodeUtf8_replicate_nul (k : ℕ) :
    encodeUtf8 (List.replicate k nul) = List.replicate k 0 := by
  induction k with
  | zero => rfl
  | succ k ih =>
    rw [List.replicate_succ, encodeUtf8_cons, ih, List.replicate_succ]
    rfl

def stripNul (s : Str) : Str := (s.dropWhile (· = nul)).rdropWhile (· = nul)

/-- `s + (n - len(s)) * "\0"`; Python repeats a negative number of times as zero times. -/
def padNul (n : ℕ) (s : Str) : Str := s ++ List.replicate (n - s.length) nul

theorem stripNul_of_notMem {s : Str} (h : nul ∉ s) : stripNul s = s := by
  have hd : s.dropWhile (· = nul) = s := by
    cases s with
    | nil => rfl
    | cons c s =>
      have hc : c ≠ nul := fun he => h (by simp [he])
      simp [hc]
  unfold stripNul
  rw [hd, List.rdropWhile_eq_self_iff]
  intro hl
  have hm : s.getLast hl ≠ nul := fun he => h (he ▸ List.getLast_mem hl)
  simpa using hm

theorem rdropWhile_append_replicate (s : Str) (k : ℕ) :
    (s ++ List.replicate k nul).rdropWhile (· = nul) = s.rdropWhile (· = nul) := by
  induction k with
  | zero => simp
  | succ k ih =>
    rw [List.replicate_succ', ← List.append_assoc,
      List.rdropWhile_concat_pos _ _ _ (by simp), ih]

theorem stripNul_append_replicate {s : Str} (h : nul ∉ s) (k : ℕ) :
    stripNul (s ++ List.replicate k nul) = s := by
  cases s with
  | nil =>
    have hd : (List.replicate k nul).dropWhile (· = nul) = [] := by
      rw [List.dropWhile_eq_nil_iff]
      intro c hc
      simp [List.eq_of_mem_replicate hc]
    simp [stripNul, hd]
  | cons c s =>
    have hc : c ≠ nul := fun he => h (by simp [he])
    have hd : (c :: s ++ List.replicate k nul).dropWhile (· = nul) =
        c :: s ++ List.replicate k nul := by simp [hc]
    have hs : (c :: s).dropWhile (· = nul) = c :: s := by simp [hc]
    have h0 := stripNul_of_notMem h
    unfold stripNul at h0 ⊢
    rw [hd, rdropWhile_append_replicate]
    rw [hs] at h0
    exact h0

def padField (n : ℕ) (s : Str) : Bytes :=
  encodeUtf8 s ++ List.replicate (n - (encodeUtf8 s).length) 0

theorem length_padField {n : ℕ} {s : Str} (h : (encodeUtf8 s).length ≤ n) :
    (padField n s).length = n := by
  simp only [padField, List.length_append, List.length_replicate]
  omega

theorem decodeUtf8_padField (n : ℕ) (s : Str) :
    decodeUtf8 (padField n s) =
      some (s ++ List.replicate (n - (encodeUtf8 s).length) nul) := by
  rw [decodeUtf8_eq_some, encodeUtf8_append, encodeUtf8_replicate_nul, padField]

/-- The C locale's `tolower` on one byte. -/
def tolower (b : UInt8) : UInt8 := if 65 ≤ b ∧ b ≤ 90 then b + 32 else b

theorem tolower_high {b : UInt8} (hb : 0x80 ≤ b.toNat) : tolower b = b := by
  have h : ¬ (65 ≤ b ∧ b ≤ 90) := by
    rintro ⟨_, h90⟩
    have := UInt8.le_iff_toNat_le.mp h90
    simp at this
    omega
  simp [tolower, h]

theorem utf8EncodeChar_ascii {c : Char} (hc : c.val.toNat ≤ 0x7f) :
    String.utf8EncodeChar c = [UInt8.ofNat c.val.toNat] := by
  unfold String.utf8EncodeChar
  exact if_pos hc

theorem utf8EncodeChar_high {c : Char} (hc : ¬ c.val.toNat ≤ 0x7f) :
    ∀ b ∈ String.utf8EncodeChar c, 0x80 ≤ b.toNat := by
  have hv : c.val.toNat < 0x110000 := by
    rcases c.valid with h | h
    · exact h.trans (by decide)
    · exact h.2
  have hb (n : ℕ) (h : 0x80 ≤ n % 256) : 0x80 ≤ (UInt8.ofNat n).toNat := by
    rw [UInt8.toNat_ofNat']
    exact h
  unfold String.utf8EncodeChar
  simp only [hc, ↓reduceIte]
  split_ifs <;> simp only [List.forall_mem_cons] <;>
    refine ⟨hb _ (by omega), hb _ (by omega), ?_⟩
  · simp
  · exact ⟨hb _ (by omega), by simp⟩
  · exact ⟨hb _ (by omega), hb _ (by omega), by simp⟩

theorem utf8EncodeChar_toLower (c : Char) :
    String.utf8EncodeChar c.toLower = (String.utf8EncodeChar c).map tolower := by
  by_cases hc : c.val.toNat ≤ 0x7f
  · have hA : ∀ n : Fin 0x80, ∀ h, String.utf8EncodeChar (Char.mk (UInt32.ofNat n.val) h).toLower =
        [tolower (UInt8.ofNat n.val)] := by
      intro n h
      revert n
      decide
    rw [utf8EncodeChar_ascii hc, List.map_singleton]
    have hn := hA ⟨c.val.toNat, by omega⟩
    simp only [UInt32.ofNat_toNat] at hn
    exact hn c.valid
  · have hl : c.toLower = c := by
      unfold Char.toLower
      rw [dif_neg]
      rintro ⟨_, hz⟩
      have : c.val.toNat ≤ 90 := UInt32.le_iff_toNat_le.mp hz
      omega
    rw [hl, eq_comm]
    exact (List.map_congr_left fun b hb => tolower_high (utf8EncodeChar_high hc b hb)).trans
      (List.map_id _)

/-- Lower-casing the ASCII letters of the encoding is lower-casing them in the text. -/
theorem encodeUtf8_map_toLower (s : Str) :
    encodeUtf8 (s.map Char.toLower) = (encodeUtf8 s).map tolower := by
  induction s with
  | nil => rfl
  | cons c s ih =>
    rw [List.map_cons, encodeUtf8_cons, encodeUtf8_cons, List.map_append, ih,
      utf8EncodeChar_toLower]

end EncryptedTransfer.Text
