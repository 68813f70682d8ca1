import Mathlib.Algebra.CharP.Two
import Mathlib.Algebra.Field.ZMod
import Mathlib.Algebra.Polynomial.BigOperators
import Mathlib.Algebra.Polynomial.Div
import Mathlib.Algebra.Polynomial.Inductions
import Mathlib.Algebra.Polynomial.Monic
import Mathlib.RingTheory.Coprime.Lemmas
import Mathlib.Tactic.LinearCombination

/-!
# Remainders of polynomials, and shift registers

A list of coefficients is divided by a monic polynomial one coefficient at a time. Over bits
the remainder fits a word, and a step of the division is a step of a shift register.
-/
namespace EncryptedTransfer.PolynomialRemainders
open Polynomial

section Division

variable {R : Type*} [CommRing R]

noncomputable def ofCoeffs (l : List R) : R[X] := l.foldl (fun p a => p * X + C a) 0

/-- The remainder of the coefficients followed by as many zeros as the degree of `G`. -/
noncomputable def remainder (G : R[X]) (l : List R) : R[X] := (ofCoeffs l * X ^ G.natDegree) %ₘ G

@[simp] theorem ofCoeffs_nil : ofCoeffs ([] : List R) = 0 := rfl

theorem ofCoeffs_concat (l : List R) (a : R) : ofCoeffs (l ++ [a]) = ofCoeffs l * X + C a := by
  rw [ofCoeffs, List.foldl_append]
  rfl

theorem ofCoeffs_append (l m : List R) :
    ofCoeffs (l ++ m) = ofCoeffs l * X ^ m.length + ofCoeffs m := by
  induction m using List.reverseRecOn with
  | nil => simp
  | append_singleton m a ih =>
    rw [← List.append_assoc, ofCoeffs_concat, ih, ofCoeffs_concat, List.length_append,
      List.length_singleton]
    ring

theorem coeff_ofCoeffs {l : List R} {n : ℕ} (h : l.length ≤ n) : (ofCoeffs l).coeff n = 0 := by
  induction l using List.reverseRecOn generalizing n with
  | nil => simp
  | append_singleton l a ih =>
    rw [List.length_append, List.length_singleton] at h
    obtain ⟨m, rfl⟩ := Nat.exists_eq_add_of_le' (Nat.le_of_add_left_le h)
    rw [ofCoeffs_concat, coeff_add, coeff_mul_X, coeff_C_succ, add_zero, ih (by omega)]

theorem degree_ofCoeffs_lt (l : List R) : (ofCoeffs l).degree < l.length :=
  (degree_lt_iff_coeff_zero _ _).mpr fun _ => coeff_ofCoeffs

theorem ofCoeffs_injective {l m : List R} (hlen : l.length = m.length)
    (h : ofCoeffs l = ofCoeffs m) : l = m := by
  induction l using List.reverseRecOn generalizing m with
  | nil => exact (List.length_eq_zero_iff.mp hlen.symm).symm
  | append_singleton l a ih =>
    rcases List.eq_nil_or_concat m with rfl | ⟨m, b, rfl⟩
    · simp at hlen
    · rw [List.concat_eq_append] at h hlen ⊢
      rw [ofCoeffs_concat, ofCoeffs_concat] at h
      have hlast : a = b := by simpa using congrArg (fun p => p.coeff 0) h
      have hinit : ofCoeffs l = ofCoeffs m := by
        ext n
        simpa [coeff_mul_X] using congrArg (fun p => p.coeff (n + 1)) h
      rw [hlast, ih (by simpa using hlen) hinit]

variable {G : R[X]}

@[simp] theorem remainder_nil : remainder G [] = 0 := by
  rw [remainder, ofCoeffs_nil, zero_mul, zero_modByMonic]

variable (hG : G.Monic)
include hG

theorem remainder_concat (l : List R) (a : R) :
    remainder G (l ++ [a]) = (remainder G l * X + C a * X ^ G.natDegree) %ₘ G := by
  refine modByMonic_eq_of_dvd_sub hG ?_
  have hstep : ofCoeffs (l ++ [a]) * X ^ G.natDegree -
      (remainder G l * X + C a * X ^ G.natDegree) =
        -((remainder G l - ofCoeffs l * X ^ G.natDegree) * X) := by
    rw [ofCoeffs_concat]
    ring
  rw [hstep, dvd_neg]
  exact (dvd_modByMonic_sub _ G).mul_right X

theorem remainder_eq_iff {l m : List R} : remainder G l = remainder G m ↔
    G ∣ (ofCoeffs l - ofCoeffs m) * X ^ G.natDegree := by
  rw [← modByMonic_eq_zero_iff_dvd hG, sub_mul, sub_modByMonic, sub_eq_zero, remainder, remainder]

omit hG in
theorem isCoprime_X_pow (h : IsUnit (G.coeff 0)) (n : ℕ) : IsCoprime G (X ^ n) := by
  obtain ⟨b, hb⟩ := h.exists_right_inv
  have hsplit : divX G * X + C (G.coeff 0) = G := divX_mul_X_add G
  have hunit : C (G.coeff 0) * C b = (1 : R[X]) := by rw [← C_mul, hb, C_1]
  have hcoprime : IsCoprime G X := by
    refine ⟨C b, -(C b * divX G), ?_⟩
    linear_combination hunit - C b * hsplit
  exact hcoprime.pow_right

/-- Lists that differ only within a window no longer than the degree of `G` have different
remainders. -/
theorem remainder_ne_of_window (h0 : IsUnit (G.coeff 0)) {before window window' after : List R}
    (hlen : window.length = window'.length) (hwindow : window.length ≤ G.natDegree)
    (hne : window ≠ window') :
    remainder G (before ++ window ++ after) ≠ remainder G (before ++ window' ++ after) := by
  have : Nontrivial R := by
    refine (subsingleton_or_nontrivial R).resolve_left fun _ => hne ?_
    exact List.ext_getElem hlen fun _ _ _ => Subsingleton.elim _ _
  intro hsame
  have hdiff : (ofCoeffs (before ++ window ++ after) - ofCoeffs (before ++ window' ++ after)) *
      X ^ G.natDegree =
        (ofCoeffs window - ofCoeffs window') * X ^ (after.length + G.natDegree) := by
    simp only [ofCoeffs_append, hlen]
    ring
  have hdvd := (remainder_eq_iff hG).mp hsame
  rw [hdiff] at hdvd
  have hwindows : G ∣ ofCoeffs window - ofCoeffs window' :=
    (isCoprime_X_pow h0 _).dvd_of_dvd_mul_right hdvd
  have hdegree : (ofCoeffs window - ofCoeffs window').degree < G.degree := by
    rw [degree_eq_natDegree hG.ne_zero]
    refine lt_of_lt_of_le (lt_of_le_of_lt (degree_sub_le _ _)
      (max_lt (degree_ofCoeffs_lt window) ?_)) (Nat.cast_le.mpr hwindow)
    rw [hlen]
    exact degree_ofCoeffs_lt window'
  by_cases hzero : ofCoeffs window - ofCoeffs window' = 0
  · exact hne (ofCoeffs_injective hlen (sub_eq_zero.mp hzero))
  · exact hG.not_dvd_of_degree_lt hzero hdegree hwindows

end Division

def bit (b : Bool) : ZMod 2 := if b then 1 else 0

theorem bit_injective : Function.Injective bit := by decide

theorem bit_xor (a b : Bool) : bit (a ^^ b) = bit a + bit b := by
  cases a <;> cases b <;> rfl

section Registers

variable {w : ℕ}

/-- The polynomial whose coefficients are the bits of a word, bit 0 the constant one. -/
noncomputable def toPoly (v : BitVec w) : (ZMod 2)[X] :=
  ∑ i ∈ Finset.range w, C (bit (v.getLsbD i)) * X ^ i

/-- The generator whose lower coefficients are the bits of `g`. -/
noncomputable def generatorPoly (g : BitVec w) : (ZMod 2)[X] := X ^ w + toPoly g

/-- A step of the register: the bit that leaves it and the one that is fed decide whether the
generator is subtracted. -/
def feed (g crc : BitVec w) (b : Bool) : BitVec w :=
  if (crc.msb ^^ b) then (crc <<< 1) ^^^ g else crc <<< 1

/-- The register after these bits. -/
def register (g : BitVec w) (bits : List Bool) : BitVec w := bits.foldl (feed g) 0

theorem coeff_toPoly (v : BitVec w) (i : ℕ) : (toPoly v).coeff i = bit (v.getLsbD i) := by
  rw [toPoly, finsetSum_coeff]
  by_cases hi : i < w
  · simp [coeff_C_mul, coeff_X_pow, hi]
  · rw [BitVec.getLsbD_of_ge v i (by omega)]
    refine Finset.sum_eq_zero fun k hk => ?_
    have hne : i ≠ k := by
      have := Finset.mem_range.mp hk
      omega
    rw [coeff_C_mul_X_pow, if_neg hne]

theorem degree_toPoly_lt (v : BitVec w) : (toPoly v).degree < w := by
  refine (degree_lt_iff_coeff_zero _ _).mpr fun i hi => ?_
  rw [coeff_toPoly, BitVec.getLsbD_of_ge v i hi]
  rfl

@[simp] theorem toPoly_zero : toPoly (0#w) = 0 := by
  ext i
  simp [coeff_toPoly, bit]

theorem toPoly_xor (v v' : BitVec w) : toPoly (v ^^^ v') = toPoly v + toPoly v' := by
  ext i
  rw [coeff_add, coeff_toPoly, coeff_toPoly, coeff_toPoly, BitVec.getLsbD_xor, bit_xor]

theorem toPoly_shiftLeft (v : BitVec w) :
    toPoly (v <<< 1) + C (bit v.msb) * X ^ w = toPoly v * X := by
  ext i
  rw [coeff_add, coeff_toPoly, coeff_C_mul_X_pow, BitVec.getLsbD_shiftLeft,
    BitVec.msb_eq_getLsbD_last]
  cases i with
  | zero =>
    rw [coeff_mul_X_zero]
    by_cases hw : w = 0
    · subst hw
      simp [bit]
    · simp [bit, Ne.symm hw]
  | succ i =>
    rw [coeff_mul_X, coeff_toPoly]
    rcases Nat.lt_trichotomy (i + 1) w with hlt | rfl | hgt
    · simp [hlt, hlt.ne]
    · simp [bit]
    · rw [BitVec.getLsbD_of_ge v i (by omega)]
      simp [bit, hgt.ne', hgt.not_gt]

theorem monic_generatorPoly (g : BitVec w) : (generatorPoly g).Monic :=
  monic_X_pow_add (degree_toPoly_lt g)

theorem natDegree_generatorPoly (g : BitVec w) : (generatorPoly g).natDegree = w := by
  rw [generatorPoly, natDegree_add_eq_left_of_degree_lt, natDegree_X_pow]
  rw [degree_X_pow]
  exact degree_toPoly_lt g

theorem toPoly_feed (g crc : BitVec w) (b : Bool) :
    toPoly (feed g crc b) = (toPoly crc * X + C (bit b) * X ^ w) %ₘ generatorPoly g := by
  refine (div_modByMonic_unique (C (bit crc.msb + bit b)) _ (monic_generatorPoly g) ⟨?_, ?_⟩).2.symm
  · have hfeed : toPoly (feed g crc b) =
        toPoly (crc <<< 1) + C (bit crc.msb + bit b) * toPoly g := by
      rw [feed, ← bit_xor]
      split_ifs with h
      · rw [toPoly_xor, h]
        simp [bit]
      · simp [bit, h]
    have htwo : (2 : (ZMod 2)[X]) = 0 := CharTwo.two_eq_zero
    rw [hfeed, ← toPoly_shiftLeft, generatorPoly, C_add]
    linear_combination ((C (bit crc.msb) + C (bit b)) * toPoly g) * htwo
  · rw [degree_eq_natDegree (monic_generatorPoly g).ne_zero, natDegree_generatorPoly]
    exact degree_toPoly_lt _

/-- The register holds the remainder. -/
theorem toPoly_register (g : BitVec w) (bits : List Bool) :
    toPoly (register g bits) = remainder (generatorPoly g) (bits.map bit) := by
  induction bits using List.reverseRecOn with
  | nil => simp [register]
  | append_singleton bits b ih =>
    have hstep : register g (bits ++ [b]) = feed g (register g bits) b := by
      rw [register, List.foldl_append]
      rfl
    rw [hstep, toPoly_feed, ih, List.map_append, List.map_singleton,
      remainder_concat (monic_generatorPoly g), natDegree_generatorPoly]

theorem register_ne_of_window {g : BitVec w} (hg : g.getLsbD 0 = true)
    {before window window' after : List Bool} (hlen : window.length = window'.length)
    (hwindow : window.length ≤ w) (hne : window ≠ window') :
    register g (before ++ window ++ after) ≠ register g (before ++ window' ++ after) := by
  intro hsame
  have hunit : IsUnit ((generatorPoly g).coeff 0) := by
    have hw : 0 ≠ w := by
      rintro rfl
      simp at hg
    rw [generatorPoly, coeff_add, coeff_X_pow, if_neg hw, coeff_toPoly, hg, zero_add]
    exact isUnit_one
  have hpoly := congrArg toPoly hsame
  simp only [toPoly_register, List.map_append] at hpoly
  refine remainder_ne_of_window (monic_generatorPoly g) hunit ?_ ?_ ?_ hpoly
  · rw [List.length_map, List.length_map, hlen]
  · rwa [List.length_map, natDegree_generatorPoly]
  · exact fun h => hne (List.map_injective_iff.mpr bit_injective h)

theorem feed_xor (g crc crc' : BitVec w) (b b' : Bool) :
    feed g (crc ^^^ crc') (b ^^ b') = feed g crc b ^^^ feed g crc' b' := by
  have hshift : (crc ^^^ crc') <<< 1 = crc <<< 1 ^^^ crc' <<< 1 := BitVec.shiftLeft_xor_distrib ..
  have hmsb : ((crc ^^^ crc').msb ^^ (b ^^ b')) = ((crc.msb ^^ b) ^^ (crc'.msb ^^ b')) := by
    rw [BitVec.msb_xor]
    cases crc.msb <;> cases crc'.msb <;> cases b <;> cases b' <;> rfl
  rw [feed, hmsb, hshift, feed, feed]
  cases crc.msb ^^ b <;> cases crc'.msb ^^ b'
  · rfl
  · simp [BitVec.xor_assoc]
  · simp [BitVec.xor_assoc, BitVec.xor_comm g]
  · have hcancel : g ^^^ (crc' <<< 1 ^^^ g) = crc' <<< 1 := by
      rw [BitVec.xor_comm _ g, ← BitVec.xor_assoc, BitVec.xor_self, BitVec.zero_xor]
    simp [BitVec.xor_assoc, hcancel]

theorem foldl_feed_xor (g : BitVec w) {bits bits' : List Bool} (hlen : bits.length = bits'.length)
    (crc crc' : BitVec w) : (List.zipWith xor bits bits').foldl (feed g) (crc ^^^ crc') =
      bits.foldl (feed g) crc ^^^ bits'.foldl (feed g) crc' := by
  induction bits generalizing bits' crc crc' with
  | nil =>
    obtain rfl := List.length_eq_zero_iff.mp hlen.symm
    rfl
  | cons b bits ih =>
    cases bits' with
    | nil => cases hlen
    | cons b' bits' =>
      rw [List.zipWith_cons_cons, List.foldl_cons, feed_xor, ih (by simpa using hlen)]
      rfl

/-- A register that is fed its own first bits is shifted. -/
theorem foldl_feed_self (g crc : BitVec w) (k : ℕ) :
    ((List.range k).map crc.getMsbD).foldl (feed g) crc = crc <<< k := by
  induction k with
  | zero => simp
  | succ k ih =>
    have hmsb : (crc <<< k).msb = crc.getMsbD k := by
      rw [BitVec.msb, BitVec.getMsbD_shiftLeft, Nat.zero_add]
    rw [List.range_succ, List.map_append, List.foldl_append, ih, List.map_singleton,
      List.foldl_cons, List.foldl_nil, feed, hmsb, Bool.xor_self, BitVec.shiftLeft_add]
    rfl

end Registers

end EncryptedTransfer.PolynomialRemainders
