import EncryptedTransfer.ServerCalls

/-!
# What the programs rely on of other libraries

The documented laws of the functions in `Externals`, and functions that have them: the
padding of PKCS 7 as it is, a block cipher and a key transport that only keep the lengths.
-/
namespace EncryptedTransfer.CryptoLaws
open ByteFormats Text ServerCalls

/-- AES-CBC with PKCS 7 padding, under a 16-byte key. -/
structure AesLaws (E : Externals) : Prop where
  length_encrypt : ∀ key plain : Bytes, key.length = 16 →
    (E.aesEncrypt key plain).length = 16 * (plain.length / 16 + 1)
  decrypt_encrypt : ∀ key plain : Bytes, key.length = 16 →
    (E.aesDecrypt key (E.aesEncrypt key plain)).bind E.unpad = some plain

/-- A generated key pair, the private key in Base64: the public key is accepted and the
private key decrypts what it encrypts. -/
structure KeyPairLaws (E : Externals) (publicKey privateKey : Bytes) : Prop where
  length_public : publicKey.length = 160
  imported : E.importKey publicKey = true
  decode_encode : E.base64Decode (E.base64Encode privateKey) = privateKey
  encrypts : ∀ seed plain : Bytes, plain.length = 16 → ∃ cipher,
    E.oaepEncrypt seed publicKey plain = some cipher ∧ cipher.length < 2 ^ 32
  decrypt_encrypt : ∀ seed plain cipher : Bytes,
    E.oaepEncrypt seed publicKey plain = some cipher → E.oaepDecrypt privateKey cipher = some plain

/-- `str.lower`. -/
structure LowerLaws (E : Externals) : Prop where
  idempotent : ∀ s, E.lower (E.lower s) = E.lower s
  nul_notMem : ∀ s, nul ∉ s → nul ∉ E.lower s
  lower_ascii : ∀ s, E.lower (s.map Char.toLower) = E.lower s
  ascii : ∀ s : Str, (∀ c ∈ s, c.val.toNat < 128) → E.lower s = s.map Char.toLower

def pkcs7Pad (data : Bytes) : Bytes :=
  data ++ List.replicate (16 - data.length % 16) (UInt8.ofNat (16 - data.length % 16))

def pkcs7Unpad (data : Bytes) : Option Bytes :=
  let n := (data.getLast?.getD 0).toNat
  let content := data.take (data.length - n)
  if data.length % 16 = 0 ∧ 1 ≤ n ∧ n ≤ 16 ∧ data = content ++ List.replicate n (UInt8.ofNat n) then
    some content
  else none

theorem length_pkcs7Pad (data : Bytes) :
    (pkcs7Pad data).length = 16 * (data.length / 16 + 1) := by
  simp only [pkcs7Pad, List.length_append, List.length_replicate]
  omega

theorem pkcs7Unpad_pkcs7Pad (data : Bytes) : pkcs7Unpad (pkcs7Pad data) = some data := by
  have hlen := length_pkcs7Pad data
  have hpos : 16 - data.length % 16 ≠ 0 := by omega
  have hlast : ((pkcs7Pad data).getLast?.getD 0).toNat = 16 - data.length % 16 := by
    rw [pkcs7Pad, List.getLast?_append_of_ne_nil _ (by simpa using hpos),
      List.getLast?_replicate, if_neg hpos, Option.getD_some, UInt8.toNat_ofNat']
    omega
  have htake : (pkcs7Pad data).take ((pkcs7Pad data).length - (16 - data.length % 16)) = data := by
    have he : (pkcs7Pad data).length - (16 - data.length % 16) = data.length := by omega
    rw [he, pkcs7Pad, List.take_left]
  simp only [pkcs7Unpad, hlast, htake]
  rw [if_pos]
  exact ⟨by omega, by omega, by omega, rfl⟩

/-- Bytes that begin as a public key does, with a DER sequence. -/
def derKey : Bytes := 48 :: List.replicate 159 0

theorem length_derKey : derKey.length = 160 := by
  rw [derKey, List.length_cons, List.length_replicate]

/-- Ciphers that keep the data as it is. -/
def plainCiphers : Externals where
  lower := fun s => s.map Char.toLower
  aesDecrypt := fun key data => if key.length = 16 ∧ data.length % 16 = 0 then some data else none
  unpad := pkcs7Unpad
  importKey := fun key => key.length = 160 ∧ key.head? = some 48
  oaepEncrypt := fun _ _ plain => if plain.length ≤ 86 then some plain else none
  aesEncrypt := fun _ plain => pkcs7Pad plain
  oaepDecrypt := fun _ cipher => some cipher
  base64Encode := id
  base64Decode := id

theorem aesLaws_plainCiphers : AesLaws plainCiphers := by
  refine ⟨fun _ plain _ => length_pkcs7Pad plain, ?_⟩
  intro key plain hkey
  have hlen := length_pkcs7Pad plain
  simp [plainCiphers, hkey, hlen, pkcs7Unpad_pkcs7Pad]

theorem keyPairLaws_plainCiphers (privateKey : Bytes) :
    KeyPairLaws plainCiphers derKey privateKey := by
  refine ⟨length_derKey, ?_, rfl, ?_, ?_⟩
  · simp only [plainCiphers, length_derKey, true_and, decide_eq_true_eq]
    rfl
  · intro seed plain hplain
    refine ⟨plain, ?_, by omega⟩
    simp [plainCiphers, hplain]
  · intro seed plain cipher h
    simp only [plainCiphers, Option.ite_none_right_eq_some, Option.some.injEq] at h
    simp [plainCiphers, h.2]

theorem toLower_of_not_upper {c : Char} (h : ¬ (65 ≤ c.val.toNat ∧ c.val.toNat ≤ 90)) :
    c.toLower = c := by
  unfold Char.toLower
  rw [dif_neg]
  rintro ⟨h1, h2⟩
  exact h ⟨UInt32.le_iff_toNat_le.mp h1, UInt32.le_iff_toNat_le.mp h2⟩

theorem toNat_toLower_of_upper {c : Char} (h : 65 ≤ c.val.toNat ∧ c.val.toNat ≤ 90) :
    c.toLower.val.toNat = c.val.toNat + 32 := by
  have hu : 'A'.val ≤ c.val ∧ c.val ≤ 'Z'.val :=
    ⟨UInt32.le_iff_toNat_le.mpr h.1, UInt32.le_iff_toNat_le.mpr h.2⟩
  unfold Char.toLower
  rw [dif_pos hu]
  have hadd : (c.val + 32).toNat = (c.val.toNat + 32) % 2 ^ 32 := UInt32.toNat_add _ _
  exact hadd.trans (Nat.mod_eq_of_lt (by omega))

theorem lowerLaws_plainCiphers : LowerLaws plainCiphers := by
  have hc (c : Char) : c.toLower.toLower = c.toLower := by
    by_cases h : 65 ≤ c.val.toNat ∧ c.val.toNat ≤ 90
    · have ht := toNat_toLower_of_upper h
      exact toLower_of_not_upper (by omega)
    · rw [toLower_of_not_upper h, toLower_of_not_upper h]
  refine ⟨?_, ?_, ?_, fun _ _ => rfl⟩
  · intro s
    simp [plainCiphers, Function.comp_def, hc]
  · intro s hs h
    obtain ⟨c, hcs, he⟩ := List.mem_map.mp h
    by_cases hu : 65 ≤ c.val.toNat ∧ c.val.toNat ≤ 90
    · have ht := toNat_toLower_of_upper hu
      rw [he] at ht
      have h0 : nul.val.toNat = 0 := rfl
      omega
    · rw [toLower_of_not_upper hu] at he
      exact hs (he ▸ hcs)
  · intro s
    simp [plainCiphers, Function.comp_def, hc]

/-- Draws that repeat one byte. -/
def constantDraws (b : UInt8) : Draws where
  uuid := List.replicate 16 b
  uuid_length := List.length_replicate
  random := fun n => List.replicate n b
  random_length := fun _ => List.length_replicate
  seed := []
  now := []

end EncryptedTransfer.CryptoLaws
