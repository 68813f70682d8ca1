import Mathlib.Data.List.Basic
import Mathlib.Algebra.Order.Ring.Nat
import Mathlib.Tactic.Ring

/-!
# Little-endian integers and fixed record formats

A format is a list of fields of fixed size. `pack` refuses an integer that does not fit its
field and pads or cuts a byte string; `unpack` refuses data of any other length than the
format's. Both are the rules of Python's `struct` for the codes `s`, `B`, `H` and `I` in
little-endian order without alignment.
-/
namespace EncryptedTransfer.ByteFormats

abbrev Bytes := List UInt8

/-- The `w` low-order bytes of `n`, least significant first. -/
def leBytes : ℕ → ℕ → Bytes
  | 0, _ => []
  | w + 1, n => UInt8.ofNat n :: leBytes w (n / 256)

/-- The number a little-endian byte string denotes. -/
def ofLe : Bytes → ℕ
  | [] => 0
  | b :: bs => b.toNat + 256 * ofLe bs

@[simp] theorem leBytes_length (w n : ℕ) : (leBytes w n).length = w := by
  induction w generalizing n with
  | zero => rfl
  | succ w ih => simp [leBytes, ih]

theorem ofLe_leBytes (w n : ℕ) : ofLe (leBytes w n) = n % 256 ^ w := by
  induction w generalizing n with
  | zero => simp [leBytes, ofLe, Nat.mod_one]
  | succ w ih =>
    have hb : (UInt8.ofNat n).toNat = n % 256 := UInt8.toNat_ofNat'
    simp only [leBytes, ofLe, ih, hb]
    rw [pow_succ', Nat.mod_mul]

theorem ofLe_leBytes_of_lt {w n : ℕ} (h : n < 256 ^ w) : ofLe (leBytes w n) = n := by
  rw [ofLe_leBytes, Nat.mod_eq_of_lt h]

theorem ofLe_lt (bs : Bytes) : ofLe bs < 256 ^ bs.length := by
  induction bs with
  | nil => simp [ofLe]
  | cons b bs ih =>
    have hb := b.toNat_lt
    simp only [ofLe, List.length_cons, pow_succ']
    omega

/-- One field of a record: a byte string of fixed length, or an unsigned integer. -/
inductive Field where
  | bytes (n : ℕ)
  | uint (w : ℕ)
  deriving DecidableEq, Repr

namespace Field

def size : Field → ℕ
  | bytes n => n
  | uint w => w

abbrev Value : Field → Type
  | bytes _ => Bytes
  | uint _ => ℕ

/-- Cut to the field's length, or padded with zero bytes. -/
def pack : (f : Field) → f.Value → Option Bytes
  | bytes n, b => some (b.take n ++ List.replicate (n - b.length) 0)
  | uint w, v => if v < 256 ^ w then some (leBytes w v) else none

def read : (f : Field) → Bytes → f.Value
  | bytes _, b => b
  | uint _, b => ofLe b

/-- The values a field stores without loss. -/
def Fits : (f : Field) → f.Value → Prop
  | bytes n, b => b.length = n
  | uint w, v => v < 256 ^ w

end Field

abbrev Record : List Field → Type
  | [] => Unit
  | f :: fs => f.Value × Record fs

def calcsize (fmt : List Field) : ℕ := (fmt.map Field.size).sum

def pack : (fmt : List Field) → Record fmt → Option Bytes
  | [], _ => some []
  | f :: fs, (v, vs) =>
    match f.pack v, pack fs vs with
    | some b, some bs => some (b ++ bs)
    | _, _ => none

def unpack : (fmt : List Field) → Bytes → Option (Record fmt)
  | [], data => if data = [] then some () else none
  | f :: fs, data =>
    if f.size ≤ data.length then
      (unpack fs (data.drop f.size)).map (fun vs => (f.read (data.take f.size), vs))
    else none

def Fits : (fmt : List Field) → Record fmt → Prop
  | [], _ => True
  | f :: fs, (v, vs) => f.Fits v ∧ Fits fs vs

@[simp] theorem calcsize_nil : calcsize [] = 0 := rfl

@[simp] theorem calcsize_cons (f : Field) (fs : List Field) :
    calcsize (f :: fs) = f.size + calcsize fs := by
  simp [calcsize]

/-- `unpack` accepts exactly the data of the format's size. -/
theorem unpack_isSome (fmt : List Field) (data : Bytes) :
    (unpack fmt data).isSome = true ↔ data.length = calcsize fmt := by
  induction fmt generalizing data with
  | nil => simp [unpack]
  | cons f fs ih =>
    simp only [unpack, calcsize_cons]
    split_ifs with h
    · rw [Option.isSome_map, ih, List.length_drop]
      omega
    · simp only [Option.isSome_none, Bool.false_eq_true, false_iff]
      omega

theorem unpack_append {f : Field} {b : Bytes} (hb : b.length = f.size) (fs : List Field)
    (data : Bytes) :
    unpack (f :: fs) (b ++ data) = (unpack fs data).map (fun vs => (f.read b, vs)) := by
  simp [unpack, ← hb]

theorem Field.length_pack {f : Field} {v : f.Value} {b : Bytes} (h : f.pack v = some b) :
    b.length = f.size := by
  cases f with
  | bytes n =>
    simp only [Field.pack, Option.some.injEq] at h
    subst h
    simp [Field.size]
    omega
  | uint w =>
    simp only [Field.pack, Option.ite_none_right_eq_some, Option.some.injEq] at h
    obtain ⟨_, rfl⟩ := h
    simp [Field.size]

theorem length_pack {fmt : List Field} {r : Record fmt} {data : Bytes}
    (h : pack fmt r = some data) : data.length = calcsize fmt := by
  induction fmt generalizing data with
  | nil =>
    cases h
    rfl
  | cons f fs ih =>
    obtain ⟨v, vs⟩ := r
    simp only [pack] at h
    split at h
    · next b bs hb hbs =>
      cases h
      rw [List.length_append, Field.length_pack hb, ih hbs, calcsize_cons]
    · cases h

theorem Field.read_pack {f : Field} {v : f.Value} {b : Bytes} (hv : f.Fits v)
    (h : f.pack v = some b) : f.read b = v := by
  cases f with
  | bytes n =>
    simp only [Field.Fits] at hv
    simp only [Field.pack, Option.some.injEq] at h
    subst h
    simp [Field.read, ← hv]
  | uint w =>
    simp only [Field.pack, Option.ite_none_right_eq_some, Option.some.injEq] at h
    obtain ⟨hlt, rfl⟩ := h
    exact ofLe_leBytes_of_lt hlt

/-- Unpacking inverts packing on values that fit their fields. -/
theorem unpack_pack {fmt : List Field} {r : Record fmt} {data : Bytes} (hr : Fits fmt r)
    (h : pack fmt r = some data) : unpack fmt data = some r := by
  induction fmt generalizing data with
  | nil => simp_all [pack, unpack]
  | cons f fs ih =>
    obtain ⟨v, vs⟩ := r
    simp only [pack] at h
    split at h
    · rename_i b bs hb hbs
      simp only [Option.some.injEq] at h
      subst h
      rw [unpack_append (Field.length_pack hb), ih hr.2 hbs, Option.map_some,
        Field.read_pack hr.1 hb]
    · cases h

end EncryptedTransfer.ByteFormats
