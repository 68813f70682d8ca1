import Mathlib.Data.List.Basic
import Mathlib.Tactic.NormNum
import EncryptedTransfer.ByteFormats

/-!
# The two checksum implementations

`crc32` is the server's Python class over unbounded integers, `CRC` the client's C++ class
over 32-bit words; each has its own copy of the table. Both fold the message and then its
length, least significant byte first. They agree on every message shorter than 2³² bytes.
-/
namespace EncryptedTransfer.Cksum
open ByteFormats

namespace Server

def crctab : List ℕ :=
  [
    0x00000000, 0x04C11DB7, 0x09823B6E, 0x0D4326D9, 0x130476DC, 0x17C56B6B, 0x1A864DB2,
    0x1E475005, 0x2608EDB8, 0x22C9F00F, 0x2F8AD6D6, 0x2B4BCB61, 0x350C9B64, 0x31CD86D3,
    0x3C8EA00A, 0x384FBDBD, 0x4C11DB70, 0x48D0C6C7, 0x4593E01E, 0x4152FDA9, 0x5F15ADAC,
    0x5BD4B01B, 0x569796C2, 0x52568B75, 0x6A1936C8, 0x6ED82B7F, 0x639B0DA6, 0x675A1011,
    0x791D4014, 0x7DDC5DA3, 0x709F7B7A, 0x745E66CD, 0x9823B6E0, 0x9CE2AB57, 0x91A18D8E,
    0x95609039, 0x8B27C03C, 0x8FE6DD8B, 0x82A5FB52, 0x8664E6E5, 0xBE2B5B58, 0xBAEA46EF,
    0xB7A96036, 0xB3687D81, 0xAD2F2D84, 0xA9EE3033, 0xA4AD16EA, 0xA06C0B5D, 0xD4326D90,
    0xD0F37027, 0xDDB056FE, 0xD9714B49, 0xC7361B4C, 0xC3F706FB, 0xCEB42022, 0xCA753D95,
    0xF23A8028, 0xF6FB9D9F, 0xFBB8BB46, 0xFF79A6F1, 0xE13EF6F4, 0xE5FFEB43, 0xE8BCCD9A,
    0xEC7DD02D, 0x34867077, 0x30476DC0, 0x3D044B19, 0x39C556AE, 0x278206AB, 0x23431B1C,
    0x2E003DC5, 0x2AC12072, 0x128E9DCF, 0x164F8078, 0x1B0CA6A1, 0x1FCDBB16, 0x018AEB13,
    0x054BF6A4, 0x0808D07D, 0x0CC9CDCA, 0x7897AB07, 0x7C56B6B0, 0x71159069, 0x75D48DDE,
    0x6B93DDDB, 0x6F52C06C, 0x6211E6B5, 0x66D0FB02, 0x5E9F46BF, 0x5A5E5B08, 0x571D7DD1,
    0x53DC6066, 0x4D9B3063, 0x495A2DD4, 0x44190B0D, 0x40D816BA, 0xACA5C697, 0xA864DB20,
    0xA527FDF9, 0xA1E6E04E, 0xBFA1B04B, 0xBB60ADFC, 0xB6238B25, 0xB2E29692, 0x8AAD2B2F,
    0x8E6C3698, 0x832F1041, 0x87EE0DF6, 0x99A95DF3, 0x9D684044, 0x902B669D, 0x94EA7B2A,
    0xE0B41DE7, 0xE4750050, 0xE9362689, 0xEDF73B3E, 0xF3B06B3B, 0xF771768C, 0xFA325055,
    0xFEF34DE2, 0xC6BCF05F, 0xC27DEDE8, 0xCF3ECB31, 0xCBFFD686, 0xD5B88683, 0xD1799B34,
    0xDC3ABDED, 0xD8FBA05A, 0x690CE0EE, 0x6DCDFD59, 0x608EDB80, 0x644FC637, 0x7A089632,
    0x7EC98B85, 0x738AAD5C, 0x774BB0EB, 0x4F040D56, 0x4BC510E1, 0x46863638, 0x42472B8F,
    0x5C007B8A, 0x58C1663D, 0x558240E4, 0x51435D53, 0x251D3B9E, 0x21DC2629, 0x2C9F00F0,
    0x285E1D47, 0x36194D42, 0x32D850F5, 0x3F9B762C, 0x3B5A6B9B, 0x0315D626, 0x07D4CB91,
    0x0A97ED48, 0x0E56F0FF, 0x1011A0FA, 0x14D0BD4D, 0x19939B94, 0x1D528623, 0xF12F560E,
    0xF5EE4BB9, 0xF8AD6D60, 0xFC6C70D7, 0xE22B20D2, 0xE6EA3D65, 0xEBA91BBC, 0xEF68060B,
    0xD727BBB6, 0xD3E6A601, 0xDEA580D8, 0xDA649D6F, 0xC423CD6A, 0xC0E2D0DD, 0xCDA1F604,
    0xC960EBB3, 0xBD3E8D7E, 0xB9FF90C9, 0xB4BCB610, 0xB07DABA7, 0xAE3AFBA2, 0xAAFBE615,
    0xA7B8C0CC, 0xA379DD7B, 0x9B3660C6, 0x9FF77D71, 0x92B45BA8, 0x9675461F, 0x8832161A,
    0x8CF30BAD, 0x81B02D74, 0x857130C3, 0x5D8A9099, 0x594B8D2E, 0x5408ABF7, 0x50C9B640,
    0x4E8EE645, 0x4A4FFBF2, 0x470CDD2B, 0x43CDC09C, 0x7B827D21, 0x7F436096, 0x7200464F,
    0x76C15BF8, 0x68860BFD, 0x6C47164A, 0x61043093, 0x65C52D24, 0x119B4BE9, 0x155A565E,
    0x18197087, 0x1CD86D30, 0x029F3D35, 0x065E2082, 0x0B1D065B, 0x0FDC1BEC, 0x3793A651,
    0x3352BBE6, 0x3E119D3F, 0x3AD08088, 0x2497D08D, 0x2056CD3A, 0x2D15EBE3, 0x29D4F654,
    0xC5A92679, 0xC1683BCE, 0xCC2B1D17, 0xC8EA00A0, 0xD6AD50A5, 0xD26C4D12, 0xDF2F6BCB,
    0xDBEE767C, 0xE3A1CBC1, 0xE760D676, 0xEA23F0AF, 0xEEE2ED18, 0xF0A5BD1D, 0xF464A0AA,
    0xF9278673, 0xFDE69BC4, 0x89B8FD09, 0x8D79E0BE, 0x803AC667, 0x84FBDBD0, 0x9ABC8BD5,
    0x9E7D9662, 0x933EB0BB, 0x97FFAD0C, 0xAFB010B1, 0xAB710D06, 0xA6322BDF, 0xA2F33668,
    0xBCB4666D, 0xB8757BDA, 0xB5365D03, 0xB1F740B4
  ]

/-- The state of the Python class `crc32`. -/
structure Crc32 where
  nchars : ℕ
  crc : ℕ
  deriving DecidableEq, Repr

def Crc32.new : Crc32 := ⟨0, 0⟩

/-- One table step; `none` is an `IndexError`. -/
def step (crc c : ℕ) : Option ℕ :=
  crctab[(crc >>> 24) ^^^ c]?.map (· ^^^ ((crc <<< 8) &&& 0xFFFFFFFF))

def updateLoop (crc : ℕ) : Bytes → Option ℕ
  | [] => some crc
  | c :: buf => (step crc c.toNat).bind (fun crc => updateLoop crc buf)

def Crc32.update (d : Crc32) (buf : Bytes) : Option Crc32 :=
  (updateLoop d.crc buf).map (fun crc => ⟨d.nchars + buf.length, crc⟩)

/-- `n & 0xFFFFFFFF` of a possibly negative integer. -/
def unsigned (n : ℤ) : ℕ := (n % 2 ^ 32).toNat

def digestLoop (crc n : ℕ) : Option ℕ :=
  if _h : n = 0 then some crc
  else (step crc (n &&& 0xFF)).bind (fun crc => digestLoop crc (n >>> 8))
termination_by n
decreasing_by
  rw [Nat.shiftRight_eq_div_pow]
  exact Nat.div_lt_self (by omega) (by norm_num)

def Crc32.digest (d : Crc32) : Option ℕ :=
  (digestLoop d.crc d.nchars).map (fun crc : ℕ => unsigned (~~~(crc : ℤ)))

/-- The reads of `cksum_calc`: 4096 bytes at a time until a read returns nothing. -/
def readLoop (d : Crc32) (fd : Bytes) : Option Crc32 :=
  if _h : fd = [] then some d
  else (d.update (fd.take 4096)).bind (fun d => readLoop d (fd.drop 4096))
termination_by fd.length
decreasing_by
  have := List.length_pos_of_ne_nil _h
  simp only [List.length_drop]
  omega

def cksumCalc (content : Bytes) : Option ℕ := (readLoop .new content).bind Crc32.digest

end Server

namespace Client

def crctab : List UInt32 :=
  [
    0x00000000, 0x04C11DB7, 0x09823B6E, 0x0D4326D9, 0x130476DC, 0x17C56B6B, 0x1A864DB2,
    0x1E475005, 0x2608EDB8, 0x22C9F00F, 0x2F8AD6D6, 0x2B4BCB61, 0x350C9B64, 0x31CD86D3,
    0x3C8EA00A, 0x384FBDBD, 0x4C11DB70, 0x48D0C6C7, 0x4593E01E, 0x4152FDA9, 0x5F15ADAC,
    0x5BD4B01B, 0x569796C2, 0x52568B75, 0x6A1936C8, 0x6ED82B7F, 0x639B0DA6, 0x675A1011,
    0x791D4014, 0x7DDC5DA3, 0x709F7B7A, 0x745E66CD, 0x9823B6E0, 0x9CE2AB57, 0x91A18D8E,
    0x95609039, 0x8B27C03C, 0x8FE6DD8B, 0x82A5FB52, 0x8664E6E5, 0xBE2B5B58, 0xBAEA46EF,
    0xB7A96036, 0xB3687D81, 0xAD2F2D84, 0xA9EE3033, 0xA4AD16EA, 0xA06C0B5D, 0xD4326D90,
    0xD0F37027, 0xDDB056FE, 0xD9714B49, 0xC7361B4C, 0xC3F706FB, 0xCEB42022, 0xCA753D95,
    0xF23A8028, 0xF6FB9D9F, 0xFBB8BB46, 0xFF79A6F1, 0xE13EF6F4, 0xE5FFEB43, 0xE8BCCD9A,
    0xEC7DD02D, 0x34867077, 0x30476DC0, 0x3D044B19, 0x39C556AE, 0x278206AB, 0x23431B1C,
    0x2E003DC5, 0x2AC12072, 0x128E9DCF, 0x164F8078, 0x1B0CA6A1, 0x1FCDBB16, 0x018AEB13,
    0x054BF6A4, 0x0808D07D, 0x0CC9CDCA, 0x7897AB07, 0x7C56B6B0, 0x71159069, 0x75D48DDE,
    0x6B93DDDB, 0x6F52C06C, 0x6211E6B5, 0x66D0FB02, 0x5E9F46BF, 0x5A5E5B08, 0x571D7DD1,
    0x53DC6066, 0x4D9B3063, 0x495A2DD4, 0x44190B0D, 0x40D816BA, 0xACA5C697, 0xA864DB20,
    0xA527FDF9, 0xA1E6E04E, 0xBFA1B04B, 0xBB60ADFC, 0xB6238B25, 0xB2E29692, 0x8AAD2B2F,
    0x8E6C3698, 0x832F1041, 0x87EE0DF6, 0x99A95DF3, 0x9D684044, 0x902B669D, 0x94EA7B2A,
    0xE0B41DE7, 0xE4750050, 0xE9362689, 0xEDF73B3E, 0xF3B06B3B, 0xF771768C, 0xFA325055,
    0xFEF34DE2, 0xC6BCF05F, 0xC27DEDE8, 0xCF3ECB31, 0xCBFFD686, 0xD5B88683, 0xD1799B34,
    0xDC3ABDED, 0xD8FBA05A, 0x690CE0EE, 0x6DCDFD59, 0x608EDB80, 0x644FC637, 0x7A089632,
    0x7EC98B85, 0x738AAD5C, 0x774BB0EB, 0x4F040D56, 0x4BC510E1, 0x46863638, 0x42472B8F,
    0x5C007B8A, 0x58C1663D, 0x558240E4, 0x51435D53, 0x251D3B9E, 0x21DC2629, 0x2C9F00F0,
    0x285E1D47, 0x36194D42, 0x32D850F5, 0x3F9B762C, 0x3B5A6B9B, 0x0315D626, 0x07D4CB91,
    0x0A97ED48, 0x0E56F0FF, 0x1011A0FA, 0x14D0BD4D, 0x19939B94, 0x1D528623, 0xF12F560E,
    0xF5EE4BB9, 0xF8AD6D60, 0xFC6C70D7, 0xE22B20D2, 0xE6EA3D65, 0xEBA91BBC, 0xEF68060B,
    0xD727BBB6, 0xD3E6A601, 0xDEA580D8, 0xDA649D6F, 0xC423CD6A, 0xC0E2D0DD, 0xCDA1F604,
    0xC960EBB3, 0xBD3E8D7E, 0xB9FF90C9, 0xB4BCB610, 0xB07DABA7, 0xAE3AFBA2, 0xAAFBE615,
    0xA7B8C0CC, 0xA379DD7B, 0x9B3660C6, 0x9FF77D71, 0x92B45BA8, 0x9675461F, 0x8832161A,
    0x8CF30BAD, 0x81B02D74, 0x857130C3, 0x5D8A9099, 0x594B8D2E, 0x5408ABF7, 0x50C9B640,
    0x4E8EE645, 0x4A4FFBF2, 0x470CDD2B, 0x43CDC09C, 0x7B827D21, 0x7F436096, 0x7200464F,
    0x76C15BF8, 0x68860BFD, 0x6C47164A, 0x61043093, 0x65C52D24, 0x119B4BE9, 0x155A565E,
    0x18197087, 0x1CD86D30, 0x029F3D35, 0x065E2082, 0x0B1D065B, 0x0FDC1BEC, 0x3793A651,
    0x3352BBE6, 0x3E119D3F, 0x3AD08088, 0x2497D08D, 0x2056CD3A, 0x2D15EBE3, 0x29D4F654,
    0xC5A92679, 0xC1683BCE, 0xCC2B1D17, 0xC8EA00A0, 0xD6AD50A5, 0xD26C4D12, 0xDF2F6BCB,
    0xDBEE767C, 0xE3A1CBC1, 0xE760D676, 0xEA23F0AF, 0xEEE2ED18, 0xF0A5BD1D, 0xF464A0AA,
    0xF9278673, 0xFDE69BC4, 0x89B8FD09, 0x8D79E0BE, 0x803AC667, 0x84FBDBD0, 0x9ABC8BD5,
    0x9E7D9662, 0x933EB0BB, 0x97FFAD0C, 0xAFB010B1, 0xAB710D06, 0xA6322BDF, 0xA2F33668,
    0xBCB4666D, 0xB8757BDA, 0xB5365D03, 0xB1F740B4
  ]

/-- The state of the C++ class `CRC`. -/
structure CRC where
  crc : UInt32
  nchar : UInt32
  deriving DecidableEq, Repr

def CRC.new : CRC := ⟨0, 0⟩

def step (crc : UInt32) (c : UInt32) : UInt32 :=
  crctab.getD ((crc >>> 24) ^^^ c).toNat 0 ^^^ ((crc <<< 8) &&& 0xFFFFFFFF)

/-- `update(buf, size)` on the first `size` bytes of the buffer. -/
def CRC.update (d : CRC) (buf : Bytes) (size : UInt32) : CRC :=
  ⟨(buf.take size.toNat).foldl (fun crc c => step crc c.toUInt32) d.crc, d.nchar + size⟩

def digestLoop (crc n : UInt32) : UInt32 :=
  if _h : n = 0 then crc else digestLoop (step crc (n &&& 0xff)) (n >>> 8)
termination_by n.toNat
decreasing_by
  have hn : n.toNat ≠ 0 := fun h0 => _h (UInt32.toNat_inj.mp h0)
  rw [UInt32.toNat_shiftRight]
  exact lt_of_eq_of_lt (Nat.shiftRight_eq_div_pow _ _) (Nat.div_lt_self (by omega) (by decide))

def CRC.digest (d : CRC) : UInt32 := ~~~(digestLoop d.crc d.nchar)

def calculateCksum (content : Bytes) (size : UInt32) : UInt32 :=
  (CRC.new.update content size).digest

end Client

set_option maxRecDepth 4000 in
theorem crctab_eq : Client.crctab.map UInt32.toNat = Server.crctab := by decide

set_option maxRecDepth 4000 in
theorem crctab_length : Client.crctab.length = 256 := by decide

theorem crctab_get {i : ℕ} (hi : i < 256) :
    Server.crctab[i]? = some (Client.crctab.getD i 0).toNat := by
  have hl : i < Client.crctab.length := crctab_length ▸ hi
  rw [← crctab_eq, List.getElem?_map, List.getElem?_eq_getElem hl, Option.map_some,
    List.getD_eq_getElem?_getD, List.getElem?_eq_getElem hl, Option.getD_some]

theorem step_agree (crc c : UInt32) (hc : c.toNat < 256) :
    Server.step crc.toNat c.toNat = some (Client.step crc c).toNat := by
  have hs : (crc >>> 24).toNat = crc.toNat >>> 24 := UInt32.toNat_shiftRight crc 24
  have hi : crc.toNat >>> 24 ^^^ c.toNat < 2 ^ 8 := by
    apply Nat.xor_lt_two_pow _ hc
    have := crc.toNat_lt
    rw [Nat.shiftRight_eq_div_pow]
    omega
  have hl : (crc <<< 8).toNat = crc.toNat <<< 8 % 2 ^ 32 := UInt32.toNat_shiftLeft crc 8
  unfold Server.step Client.step
  rw [crctab_get hi, Option.map_some, UInt32.toNat_xor, UInt32.toNat_xor, UInt32.toNat_and, hs, hl,
    show (0xFFFFFFFF : UInt32).toNat = 2 ^ 32 - 1 from rfl,
    show (0xFFFFFFFF : ℕ) = 2 ^ 32 - 1 from rfl, Nat.and_two_pow_sub_one_eq_mod,
    Nat.and_two_pow_sub_one_eq_mod, Nat.mod_mod]

theorem updateLoop_agree (crc : UInt32) (buf : Bytes) :
    Server.updateLoop crc.toNat buf =
      some (buf.foldl (fun crc c => Client.step crc c.toUInt32) crc).toNat := by
  induction buf generalizing crc with
  | nil => rfl
  | cons c buf ih =>
    have hc : c.toUInt32.toNat < 256 := by
      rw [UInt8.toNat_toUInt32]
      exact c.toNat_lt
    have hstep := step_agree crc c.toUInt32 hc
    rw [UInt8.toNat_toUInt32] at hstep
    rw [Server.updateLoop, hstep, Option.bind_some, ih, List.foldl_cons]

theorem digestLoop_agree (crc n : UInt32) :
    Server.digestLoop crc.toNat n.toNat = some (Client.digestLoop crc n).toNat := by
  induction crc, n using Client.digestLoop.induct with
  | case1 crc => simp [Server.digestLoop, Client.digestLoop]
  | case2 crc n hn ih =>
    have hn' : n.toNat ≠ 0 := fun h0 => hn (UInt32.toNat_inj.mp h0)
    have hand : (n &&& 0xff).toNat = n.toNat &&& 0xFF := UInt32.toNat_and n 0xff
    have hlt : (n &&& 0xff).toNat < 256 := by
      rw [hand]
      exact Nat.and_lt_two_pow _ (n := 8) (by norm_num)
    have hshift : (n >>> 8).toNat = n.toNat >>> 8 := UInt32.toNat_shiftRight n 8
    rw [Server.digestLoop, dif_neg hn', ← hand, step_agree crc _ hlt, Option.bind_some, ← hshift, ih]
    conv_rhs => rw [Client.digestLoop, dif_neg hn]

theorem unsigned_complement (crc : UInt32) :
    Server.unsigned (~~~(crc.toNat : ℤ)) = (~~~crc).toNat := by
  have h := crc.toNat_lt
  have hc : (~~~crc).toNat = 2 ^ 32 - 1 - crc.toNat := by
    rw [UInt32.toNat_not, show UInt32.size = 2 ^ 32 from rfl, Nat.sub_sub]
  have hn : (~~~(crc.toNat : ℤ)) = Int.negSucc crc.toNat := rfl
  rw [hc, Server.unsigned, hn, Int.negSucc_eq]
  omega

theorem readLoop_eq (d : Server.Crc32) (crc : UInt32) (hd : d.crc = crc.toNat) (fd : Bytes) :
    Server.readLoop d fd = some ⟨d.nchars + fd.length,
      (fd.foldl (fun crc c => Client.step crc c.toUInt32) crc).toNat⟩ := by
  induction h : fd.length using Nat.strong_induction_on generalizing d crc fd with
  | _ n ih =>
    rw [Server.readLoop]
    split_ifs with hfd
    · subst hfd
      simp only [List.length_nil] at h
      subst h
      simp [← hd]
    · have hpos := List.length_pos_of_ne_nil hfd
      have hlt : (fd.drop 4096).length < n := by
        rw [List.length_drop]
        omega
      have hu : d.update (fd.take 4096) = some ⟨d.nchars + (fd.take 4096).length,
          ((fd.take 4096).foldl (fun crc c => Client.step crc c.toUInt32) crc).toNat⟩ := by
        rw [Server.Crc32.update, hd, updateLoop_agree, Option.map_some]
      rw [hu, Option.bind_some, ih _ hlt _ _ rfl _ rfl, ← List.foldl_append, List.take_append_drop,
        Nat.add_assoc, ← List.length_append, List.take_append_drop, h]

theorem cksumCalc_eq {content : Bytes} (h : content.length < 2 ^ 32) :
    Server.cksumCalc content =
      some (Client.calculateCksum content (UInt32.ofNat content.length)).toNat := by
  have hn : (UInt32.ofNat content.length).toNat = content.length := UInt32.toNat_ofNat_of_lt' h
  rw [Server.cksumCalc, readLoop_eq .new 0 rfl, Option.bind_some, Server.Crc32.digest,
    Client.calculateCksum, Client.CRC.digest, Client.CRC.update, hn, List.take_length]
  simp only [Server.Crc32.new, Client.CRC.new, Nat.zero_add, UInt32.zero_add]
  nth_rewrite 1 [← hn]
  rw [digestLoop_agree, Option.map_some, unsigned_complement]

/-- Whatever its length, a file has a checksum, and it fits 32 bits. -/
theorem digestLoop_isSome (crc : UInt32) (n : ℕ) :
    ∃ crc' : UInt32, Server.digestLoop crc.toNat n = some crc'.toNat := by
  induction n using Nat.strong_induction_on generalizing crc with
  | _ n ih =>
    rw [Server.digestLoop]
    split_ifs with hn
    · exact ⟨crc, rfl⟩
    · have hlt : n &&& 0xFF < 256 := Nat.and_lt_two_pow _ (n := 8) (by norm_num)
      have hc : (UInt32.ofNat (n &&& 0xFF)).toNat = n &&& 0xFF :=
        UInt32.toNat_ofNat_of_lt' (hlt.trans (by norm_num))
      have hstep := step_agree crc (UInt32.ofNat (n &&& 0xFF)) (by omega)
      rw [hc] at hstep
      rw [hstep, Option.bind_some]
      apply ih
      rw [Nat.shiftRight_eq_div_pow]
      exact Nat.div_lt_self (by omega) (by norm_num)

theorem cksumCalc_isSome (content : Bytes) :
    ∃ cksum : UInt32, Server.cksumCalc content = some cksum.toNat := by
  obtain ⟨crc, hcrc⟩ := digestLoop_isSome
    (content.foldl (fun crc c => Client.step crc c.toUInt32) 0) (0 + content.length)
  refine ⟨~~~crc, ?_⟩
  rw [Server.cksumCalc, readLoop_eq .new 0 rfl, Option.bind_some, Server.Crc32.digest]
  simp only [Server.Crc32.new]
  rw [hcrc, Option.map_some, unsigned_complement]

end EncryptedTransfer.Cksum
