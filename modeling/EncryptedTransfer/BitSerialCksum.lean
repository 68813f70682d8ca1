import Mathlib.Data.Nat.Digits.Lemmas
import EncryptedTransfer.Cksum
import EncryptedTransfer.PolynomialRemainders

/-!
# The POSIX checksum

The checksum bit by bit: the register of the generator is fed the bits of the message and of
its length, and complemented. The tables hold what eight bits do to the register, so both
classes compute it.
-/
namespace EncryptedTransfer.BitSerialCksum
open ByteFormats Cksum PolynomialRemainders

def generator : BitVec 32 := 0x04C11DB7

def bitsOf (c : UInt8) : List Bool := (List.range 8).map c.toBitVec.getMsbD

def bits (content : Bytes) : List Bool := content.flatMap bitsOf

/-- The shortest byte string of a number, the least significant byte first. -/
def lengthBytes (n : ℕ) : Bytes := (Nat.digits 256 n).map UInt8.ofNat

/-- What the register is fed. -/
def messageBits (content : Bytes) : List Bool := bits content ++ bits (lengthBytes content.length)

def posixCksum (content : Bytes) : UInt32 := ⟨~~~(register generator (messageBits content))⟩

def feedByte (crc : UInt32) (c : UInt8) : UInt32 :=
  ⟨(bitsOf c).foldl (feed generator) crc.toBitVec⟩

theorem ofLe_map_ofNat {digits : List ℕ} (h : ∀ d ∈ digits, d < 256) :
    ofLe (digits.map UInt8.ofNat) = Nat.ofDigits 256 digits := by
  induction digits with
  | nil => rfl
  | cons d digits ih =>
    have hd : (UInt8.ofNat d).toNat = d := UInt8.toNat_ofNat_of_lt' (h d List.mem_cons_self)
    rw [List.map_cons, ofLe, hd, ih fun d hd => h d (List.mem_cons_of_mem _ hd), Nat.ofDigits_cons]

theorem ofLe_lengthBytes (n : ℕ) : ofLe (lengthBytes n) = n := by
  rw [lengthBytes, ofLe_map_ofNat fun d hd => Nat.digits_lt_base (by decide) hd,
    Nat.ofDigits_digits]

theorem length_lengthBytes_le (s : Bytes) : (lengthBytes (ofLe s)).length ≤ s.length := by
  rw [lengthBytes, List.length_map, Nat.digits_length_le_iff (by decide)]
  exact ofLe_lt s

theorem length_bitsOf (c : UInt8) : (bitsOf c).length = 8 := by
  rw [bitsOf, List.length_map, List.length_range]

set_option maxRecDepth 4000 in
/-- An entry is the register that has been fed one byte. -/
theorem crctab_entry : ∀ i : Fin 256,
    Client.crctab.getD i 0 = ⟨register generator (bitsOf (UInt8.ofNat i))⟩ := by
  decide +kernel

theorem crctab_getD (d : UInt8) :
    (Client.crctab.getD d.toNat 0).toBitVec = register generator (bitsOf d) := by
  have hentry := crctab_entry ⟨d.toNat, d.toNat_lt⟩
  rw [UInt8.ofNat_toNat] at hentry
  rw [hentry]

def tableByte (crc : UInt32) (c : UInt8) : UInt8 := (crc >>> 24).toUInt8 ^^^ c

theorem toNat_tableByte (crc : UInt32) (c : UInt8) :
    ((crc >>> 24) ^^^ c.toUInt32).toNat = (tableByte crc c).toNat := by
  have hshift : (crc >>> 24).toNat < 256 := by
    have hlt := crc.toNat_lt
    have h24 : (crc >>> 24).toNat = crc.toNat >>> 24 := UInt32.toNat_shiftRight crc 24
    rw [h24, Nat.shiftRight_eq_div_pow]
    omega
  rw [tableByte, UInt32.toNat_xor, UInt8.toNat_xor, UInt8.toNat_toUInt32, UInt32.toNat_toUInt8,
    Nat.mod_eq_of_lt hshift]

theorem bitsOf_eq (crc : UInt32) (c : UInt8) : bitsOf c =
    List.zipWith xor ((List.range 8).map crc.toBitVec.getMsbD) (bitsOf (tableByte crc c)) := by
  rw [bitsOf, bitsOf, List.zipWith_map, List.zipWith_self]
  refine List.map_congr_left fun i hi => ?_
  have hlt : i < 8 := List.mem_range.mp hi
  have hindex : 24 + (7 - i) = 31 - i := by omega
  have hbyte : 7 - i < 8 := by omega
  have hword : i < 32 := by omega
  have htop : ((crc >>> 24).toUInt8).toBitVec.getMsbD i = crc.toBitVec.getMsbD i := by
    simp [BitVec.getMsbD_eq_getLsbD, hlt, hindex, hbyte, hword]
  rw [tableByte, UInt8.toBitVec_xor, BitVec.getMsbD_xor, htop, ← Bool.xor_assoc, Bool.xor_self,
    Bool.false_xor]

theorem step_eq_feedByte (crc : UInt32) (c : UInt8) :
    Client.step crc c.toUInt32 = feedByte crc c := by
  have hlen : ((List.range 8).map crc.toBitVec.getMsbD).length =
      (bitsOf (tableByte crc c)).length := by
    rw [length_bitsOf, List.length_map, List.length_range]
  have hfeed : (bitsOf c).foldl (feed generator) crc.toBitVec =
      crc.toBitVec <<< 8 ^^^ register generator (bitsOf (tableByte crc c)) := by
    have hlinear := foldl_feed_xor generator hlen crc.toBitVec 0#32
    rw [← bitsOf_eq, foldl_feed_self, BitVec.xor_zero] at hlinear
    exact hlinear
  have hmask : (crc <<< 8) &&& (0xFFFFFFFF : UInt32) = crc <<< 8 := UInt32.and_neg_one
  apply UInt32.toBitVec_inj.mp
  rw [feedByte, hfeed, Client.step, toNat_tableByte, hmask, UInt32.toBitVec_xor, crctab_getD,
    BitVec.xor_comm]
  rfl

theorem lookup_update (crc : UInt32) (c : UInt8) :
    ((crc >>> 24) ^^^ c.toUInt32).toNat < Client.crctab.length := by
  rw [toNat_tableByte, crctab_length]
  exact (tableByte crc c).toNat_lt

theorem and_eq_toUInt32 (n : UInt32) : n &&& 0xff = n.toUInt8.toUInt32 := by
  apply UInt32.toNat_inj.mp
  have hand : (n &&& 0xff).toNat = n.toNat &&& (2 ^ 8 - 1) := UInt32.toNat_and n 0xff
  rw [hand, Nat.and_two_pow_sub_one_eq_mod, UInt8.toNat_toUInt32, UInt32.toNat_toUInt8]

theorem lookup_digest (crc n : UInt32) :
    ((crc >>> 24) ^^^ (n &&& 0xff)).toNat < Client.crctab.length := by
  rw [and_eq_toUInt32]
  exact lookup_update crc _

def feedBytes (crc : UInt32) (content : Bytes) : UInt32 := content.foldl feedByte crc

theorem feedBytes_append (crc : UInt32) (content content' : Bytes) :
    feedBytes crc (content ++ content') = feedBytes (feedBytes crc content) content' :=
  List.foldl_append

theorem feedBytes_eq (crc : UInt32) (content : Bytes) :
    feedBytes crc content = ⟨(bits content).foldl (feed generator) crc.toBitVec⟩ := by
  induction content generalizing crc with
  | nil => rfl
  | cons c content ih =>
    have hbits : bits (c :: content) = bitsOf c ++ bits content := List.flatMap_cons
    rw [hbits, List.foldl_append]
    exact ih _

theorem foldl_step (crc : UInt32) (content : Bytes) :
    content.foldl (fun crc c => Client.step crc c.toUInt32) crc = feedBytes crc content := by
  simp only [step_eq_feedByte]
  rfl

theorem digestLoop_eq (crc n : UInt32) :
    Client.digestLoop crc n = feedBytes crc (lengthBytes n.toNat) := by
  induction crc, n using Client.digestLoop.induct with
  | case1 crc => simp [Client.digestLoop, lengthBytes, feedBytes]
  | case2 crc n hn ih =>
    have hpos : 0 < n.toNat := Nat.pos_of_ne_zero fun h0 => hn (UInt32.toNat_inj.mp h0)
    have hshift : (n >>> 8).toNat = n.toNat / 256 := by
      have h8 : (n >>> 8).toNat = n.toNat >>> 8 := UInt32.toNat_shiftRight n 8
      rw [h8, Nat.shiftRight_eq_div_pow]
    have hbyte : UInt8.ofNat (n.toNat % 256) = n.toUInt8 := by
      apply UInt8.toNat_inj.mp
      rw [UInt8.toNat_ofNat', UInt32.toNat_toUInt8, Nat.mod_mod]
    rw [Client.digestLoop, dif_neg hn, ih, hshift, lengthBytes, lengthBytes,
      Nat.digits_def' (by decide) hpos, List.map_cons, hbyte, and_eq_toUInt32, step_eq_feedByte]
    rfl

theorem posixCksum_eq (content : Bytes) : posixCksum content =
    ~~~(feedBytes (feedBytes 0 content) (lengthBytes content.length)) := by
  rw [← feedBytes_append, feedBytes_eq, posixCksum, messageBits, bits, bits, ← List.flatMap_append]
  rfl

/-- Calls `update(buf, size)` that are given a content piece by piece. -/
structure Cuts (calls : List (Bytes × UInt32)) (content : Bytes) : Prop where
  sizes : ∀ call ∈ calls, call.2.toNat ≤ call.1.length
  pieces : calls.flatMap (fun call => call.1.take call.2.toNat) = content

/-- `digest()` after these calls of `update` on a new `CRC`. -/
def clientDigest (calls : List (Bytes × UInt32)) : UInt32 :=
  (calls.foldl (fun d call => d.update call.1 call.2) Client.CRC.new).digest

/-- `digest()` after these calls of `update` on a new `crc32`. -/
def serverDigest (chunks : List Bytes) : Option ℕ :=
  (chunks.foldlM Server.Crc32.update .new).bind Server.Crc32.digest

theorem foldl_update {calls : List (Bytes × UInt32)} {content : Bytes} (h : Cuts calls content)
    (d : Client.CRC) : calls.foldl (fun d call => d.update call.1 call.2) d =
      ⟨feedBytes d.crc content, d.nchar + UInt32.ofNat content.length⟩ := by
  obtain ⟨hsizes, rfl⟩ := h
  induction calls generalizing d with
  | nil => simp [feedBytes]
  | cons call calls ih =>
    have hlen : (call.1.take call.2.toNat).length = call.2.toNat := by
      rw [List.length_take, min_eq_left (hsizes call List.mem_cons_self)]
    have hsize : UInt32.ofNat (call.1.take call.2.toNat).length = call.2 := by
      rw [hlen, UInt32.ofNat_toNat]
    rw [List.foldl_cons, ih _ fun c hc => hsizes c (List.mem_cons_of_mem _ hc), List.flatMap_cons,
      feedBytes_append, List.length_append, UInt32.ofNat_add, hsize, Client.CRC.update, foldl_step,
      UInt32.add_assoc]

theorem clientDigest_eq {calls : List (Bytes × UInt32)} {content : Bytes} (h : Cuts calls content)
    (hlen : content.length < 2 ^ 32) : clientDigest calls = posixCksum content := by
  have hn : (UInt32.ofNat content.length).toNat = content.length := UInt32.toNat_ofNat_of_lt' hlen
  rw [clientDigest, foldl_update h, Client.CRC.digest, digestLoop_eq, posixCksum_eq]
  simp only [Client.CRC.new, UInt32.zero_add, hn]

theorem foldlM_update (chunks : List Bytes) (nchars : ℕ) (crc : UInt32) :
    chunks.foldlM Server.Crc32.update ⟨nchars, crc.toNat⟩ =
      some ⟨nchars + chunks.flatten.length, (feedBytes crc chunks.flatten).toNat⟩ := by
  induction chunks generalizing nchars crc with
  | nil => rfl
  | cons chunk chunks ih =>
    have hupdate : Server.Crc32.update ⟨nchars, crc.toNat⟩ chunk =
        some ⟨nchars + chunk.length, (feedBytes crc chunk).toNat⟩ := by
      rw [Server.Crc32.update, updateLoop_agree, foldl_step]
      rfl
    rw [List.foldlM_cons, hupdate, Option.bind_eq_bind, Option.bind_some, ih, List.flatten_cons,
      feedBytes_append, List.length_append, Nat.add_assoc]

theorem serverDigest_eq {chunks : List Bytes} (hlen : chunks.flatten.length < 2 ^ 32) :
    serverDigest chunks = some (posixCksum chunks.flatten).toNat := by
  have hn : (UInt32.ofNat chunks.flatten.length).toNat = chunks.flatten.length :=
    UInt32.toNat_ofNat_of_lt' hlen
  have hfold := foldlM_update chunks 0 0
  have hdigest := digestLoop_agree (feedBytes 0 chunks.flatten) (UInt32.ofNat chunks.flatten.length)
  rw [hn] at hdigest
  have hnew : Server.Crc32.new = ⟨0, (0 : UInt32).toNat⟩ := rfl
  rw [serverDigest, hnew, hfold, Option.bind_some, Server.Crc32.digest]
  simp only [Nat.zero_add]
  rw [hdigest, Option.map_some, unsigned_complement, digestLoop_eq, hn, posixCksum_eq]

theorem cuts_single {content : Bytes} (hlen : content.length < 2 ^ 32) :
    Cuts [(content, UInt32.ofNat content.length)] content := by
  have hn : (UInt32.ofNat content.length).toNat = content.length := UInt32.toNat_ofNat_of_lt' hlen
  refine ⟨?_, ?_⟩
  · rintro call hcall
    obtain rfl := List.mem_singleton.mp hcall
    exact hn.le
  · simp [hn]

theorem calculateCksum_eq {content : Bytes} (hlen : content.length < 2 ^ 32) :
    Client.calculateCksum content (UInt32.ofNat content.length) = posixCksum content :=
  clientDigest_eq (cuts_single hlen) hlen

/-- The server's checksum of a stored file. -/
theorem cksumCalc_posix {content : Bytes} (hlen : content.length < 2 ^ 32) :
    Server.cksumCalc content = some (posixCksum content).toNat := by
  rw [cksumCalc_eq hlen, calculateCksum_eq hlen]

theorem toPoly_posixCksum (content : Bytes) : toPoly (~~~(posixCksum content).toBitVec) =
    remainder (generatorPoly generator) ((messageBits content).map bit) := by
  rw [← toPoly_register, posixCksum, BitVec.not_not]

/-- However a content is cut into calls of `update`, both classes have its POSIX checksum,
the complement of a remainder, and no lookup is out of range. -/
theorem cksums_posix {content : Bytes} (hlen : content.length < 2 ^ 32)
    {calls : List (Bytes × UInt32)} (hcalls : Cuts calls content) {chunks : List Bytes}
    (hchunks : chunks.flatten = content) :
    clientDigest calls = posixCksum content ∧
    serverDigest chunks = some (posixCksum content).toNat ∧
    Server.cksumCalc content = some (posixCksum content).toNat ∧
    toPoly (~~~(posixCksum content).toBitVec) =
      remainder (generatorPoly generator) ((messageBits content).map bit) ∧
    ∀ crc : UInt32, (∀ c : UInt8, ((crc >>> 24) ^^^ c.toUInt32).toNat < Client.crctab.length) ∧
      ∀ n, ((crc >>> 24) ^^^ (n &&& 0xff)).toNat < Client.crctab.length := by
  have hserver : serverDigest chunks = some (posixCksum content).toNat := by
    subst hchunks
    exact serverDigest_eq hlen
  exact ⟨clientDigest_eq hcalls hlen, hserver, cksumCalc_posix hlen, toPoly_posixCksum content,
    fun crc => ⟨lookup_update crc, lookup_digest crc⟩⟩

theorem cksums_posix_cut :
    clientDigest [([1, 2, 9], 2), ([3], 1)] = posixCksum [1, 2, 3] ∧
    serverDigest [[1], [2, 3]] = some (posixCksum [1, 2, 3]).toNat ∧
    Server.cksumCalc [1, 2, 3] = some (posixCksum [1, 2, 3]).toNat ∧
    toPoly (~~~(posixCksum [1, 2, 3]).toBitVec) =
      remainder (generatorPoly generator) ((messageBits [1, 2, 3]).map bit) ∧
    ∀ crc : UInt32, (∀ c : UInt8, ((crc >>> 24) ^^^ c.toUInt32).toNat < Client.crctab.length) ∧
      ∀ n, ((crc >>> 24) ^^^ (n &&& 0xff)).toNat < Client.crctab.length :=
  cksums_posix (by decide) ⟨by decide, by decide⟩ rfl

end EncryptedTransfer.BitSerialCksum
